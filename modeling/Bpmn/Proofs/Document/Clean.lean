import Bpmn.Proofs.Document.Unfolding

namespace Bpmn

namespace Json

/-- What is found in a tree at any depth, the tree itself included. -/
inductive Inside (j : Json) : Json → Prop where
  | here : Inside j j
  | item {items k} (before : Inside j (.arr items)) (held : k ∈ items) : Inside j k
  | field {fields p} (before : Inside j (.obj fields)) (held : p ∈ fields) : Inside j p.2

/-- A tree in which nothing is cut off and every object has own fields only. -/
inductive Clean : Json → Prop where
  | null : Clean .null
  | bool (b : Bool) : Clean (.bool b)
  | num (n : Number) : Clean (.num n)
  | str (s : String) : Clean (.str s)
  | arr {items : List Json} (each : ∀ j ∈ items, Clean j) : Clean (.arr items)
  | obj {fields : List (String × Json)} (own : ∀ p ∈ fields, Key.isOwn p.1 = true)
      (each : ∀ p ∈ fields, Clean p.2) : Clean (.obj fields)

namespace Clean

variable {j k : Json}

theorem solid (h : j.Clean) : j.Solid := by
  induction h with
  | arr _ ih => exact .arr ih
  | obj _ _ ih => exact .obj ih
  | _ => constructor

theorem inside (h : j.Clean) (hk : j.Inside k) : k.Clean := by
  induction hk with
  | here => exact h
  | item _ held ih =>
    cases ih with
    | arr each => exact each _ held
  | field _ held ih =>
    cases ih with
    | obj _ each => exact each _ held

theorem isOwn_of_mem {fields : List (String × Json)} {key : String} (h : (Json.obj fields).Clean)
    (hkey : key ∈ Fields.keys fields) : Key.isOwn key = true := by
  obtain ⟨p, hp, rfl⟩ := List.mem_map.mp hkey
  cases h with
  | obj own _ => exact own p hp

/-- Nothing is left out of a clean tree. -/
theorem own_eq (h : j.Clean) : j.own = j := by
  induction h with
  | arr _ ih =>
    rw [own, ownItems_eq, List.map_congr_left ih, List.map_id']
  | @obj fields own _ ih =>
    have hsame : ∀ p ∈ fields, (p.1, p.2.own) = p := fun p hp => Prod.ext rfl (ih p hp)
    rw [Json.own, ownFields_eq, List.filter_eq_self.mpr own, List.map_congr_left hsame, List.map_id']
  | _ => rfl

end Clean

end Json

namespace Key

/-- An own key is no internal one but that of the type, and no reference. -/
theorem isOwn_iff {key : String} :
    isOwn key = true ↔ (key = "$type" ∨ key.toList.head? ≠ some '$') ∧ isReference key = false := by
  simp [isOwn]

end Key

namespace Graph

variable {g : Graph} {root depth : Nat} {path : List Nat}

theorem clean_plain {v : Value} (h : v.isPlain = true) : v.plain.Clean := by
  cases v with
  | list place => cases h
  | node place => cases h
  | _ => constructor

theorem clean_descriptor {place : Nat} (hnamed : g.PlainlyNamed root)
    (hshown : g.Shows root (.node place)) : (g.descriptor place).Clean := by
  have hplain (key : String) (hkey : key ∈ ["id", "$type", "name"]) : (g.field place key).plain.Clean :=
    clean_plain (hnamed place hshown key hkey)
  have hown : ∀ key ∈ ["id", "type", "name"], Key.isOwn key = true := by decide
  apply Json.Clean.obj
  · simpa using hown
  · simp [hplain]

/-- A copy is clean, whatever it is a copy of: an object on the way is described, and of every other one the
own fields are copied. -/
theorem clean_copyValue {v : Value} {j : Json} (hnamed : g.PlainlyNamed root) (hv : g.Shows root v)
    (h : g.copyValue depth path v = .ok j) : j.Clean := by
  induction depth generalizing path v j with
  | zero => cases h
  | succ depth ih =>
    cases v with
    | list place =>
      obtain ⟨below, items, hdepth, rfl, hitems⟩ := copyValue_list h
      obtain rfl := Nat.succ.inj hdepth
      refine .arr fun j hj => ?_
      obtain ⟨v, hheld, hcopy⟩ := exists_of_forall₂ hitems j hj
      exact ih (.item hv hheld) hcopy
    | node place =>
      by_cases hmem : place ∈ path
      · rw [copyValue_again hmem h, describe_eq hnamed hv]
        exact clean_descriptor hnamed hv
      · obtain ⟨below, fields, hdepth, rfl, hfields⟩ := copyValue_fresh hmem h
        obtain rfl := Nat.succ.inj hdepth
        constructor
        · intro q hq
          obtain ⟨p, hp, hkey, -⟩ := exists_of_forall₂ hfields q hq
          exact hkey ▸ (List.mem_filter.mp hp).2
        · intro q hq
          obtain ⟨p, hp, -, hcopy⟩ := exists_of_forall₂ hfields q hq
          exact ih (.field hv hp) hcopy
    | _ => exact copyValue_plain rfl h ▸ clean_plain rfl

theorem keys_ownEntries (place : Nat) :
    Fields.keys (g.ownEntries place) = (Fields.keys (g.fields place)).filter Key.isOwn := by
  rw [Fields.keys, ownEntries, Fields.keys, List.filter_map]
  rfl

/-- A clean tree that has been put into a graph is copied as it is. -/
theorem ownFields_add {fields : List (String × Json)} (h : (Json.obj fields).Clean) (base : Graph) :
    (base.add (.obj fields)).1.ownFields (base.add (.obj fields)).2 = .ok fields := by
  have htakes := takes_add h.solid (Nat.le_refl _) base
  have hdepth : (Json.obj fields).depth ≤ (base.add (.obj fields)).1.contents.size :=
    Nat.le_trans (Nat.le_add_left _ _) htakes.room
  obtain ⟨place, -, hplace, -⟩ := htakes.unfolds.of_obj
  have hunfolds := htakes.unfolds
  rw [hplace] at hunfolds ⊢
  obtain ⟨_, hobj, hown⟩ := hunfolds.ownFieldsAt hdepth
  obtain rfl := Json.obj.inj hobj
  have hsame : Json.ownFields fields = fields := Json.obj.inj h.own_eq
  rw [ownFields_node, hown, hsame]

/-- A copy of an object has no internal key but that of a type and no reference at any level, it keeps the
other keys of each object that it copies field by field in their order, and it is its own copy where it is
read as a document in which everything has a place of its own. -/
structure IsCleanCopy (g : Graph) (root : Nat) (fields : List (String × Json)) : Prop where
  clean : ∀ inner, (Json.obj fields).Inside (.obj inner) → ∀ key ∈ Fields.keys inner,
    (key = "$type" ∨ key.toList.head? ≠ some '$') ∧ Key.isReference key = false
  ordered : ∀ steps path place, g.Meets root steps path (.node place) → place ∉ path →
    ∃ inner, (Json.obj fields).at? steps = some (.obj inner) ∧
      Fields.keys inner = (Fields.keys (g.fields place)).filter Key.isOwn
  again : ∀ base : Graph,
    (base.add (.obj fields)).1.ownFields (base.add (.obj fields)).2 = .ok fields

theorem exists_isCleanCopy (hloopless : g.Loopless root) (hnamed : g.PlainlyNamed root) :
    ∃ fields, g.ownFields (.node root) = .ok fields ∧ g.IsCleanCopy root fields := by
  obtain ⟨fields, hfields⟩ := exists_ownFieldsAt hloopless
  have hcopy : g.copyValue (g.copyBound + 1) [] (.node root) = .ok (.obj fields) := by
    rw [copyValue_root, hfields]
    rfl
  have hclean := clean_copyValue hnamed .start hcopy
  refine ⟨fields, (ownFields_node root).trans hfields, ?_, ?_, ownFields_add hclean⟩
  · intro inner hinside key hkey
    exact Key.isOwn_iff.mp ((hclean.inside hinside).isOwn_of_mem hkey)
  · intro steps path place hmet hfresh
    obtain ⟨_, below, j, hat, hj⟩ := hmet.copied hcopy
    obtain ⟨_, inner, -, rfl, hinner⟩ := copyValue_fresh hfresh hj
    exact ⟨inner, hat, hinner.keys_eq.symm.trans (keys_ownEntries place)⟩

theorem exists_isCleanCopy_linkEvents :
    linkEvents.Loopless 0 ∧ linkEvents.PlainlyNamed 0 ∧
      ∃ fields, linkEvents.ownFields (.node 0) = .ok fields ∧ linkEvents.IsCleanCopy 0 fields :=
  ⟨loopless_linkEvents, plainlyNamed_linkEvents,
    exists_isCleanCopy loopless_linkEvents plainlyNamed_linkEvents⟩

end Graph

end Bpmn
