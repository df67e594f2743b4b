import Bpmn.Document.Copy
import Bpmn.Proofs.Checked
import Bpmn.Proofs.Fields
import Mathlib.Data.Finset.Card
import Mathlib.Logic.Relation
import Mathlib.Tactic.IntervalCases

namespace Bpmn

namespace Json

/-- What stands at a position. -/
def at? : List Step → Json → Option Json
  | [], j => some j
  | .field key :: rest, .obj fields => (Fields.get? fields key).bind (at? rest)
  | .item i :: rest, .arr items => items[i]?.bind (at? rest)
  | _, _ => none

mutual

/-- How many objects are inside one another. -/
def objects : Json → Nat
  | .arr items => objectsOfItems items
  | .obj fields => objectsOfFields fields + 1
  | _ => 0

def objectsOfItems : List Json → Nat
  | [] => 0
  | item :: rest => max item.objects (objectsOfItems rest)

def objectsOfFields : List (String × Json) → Nat
  | [] => 0
  | (_, value) :: rest => max value.objects (objectsOfFields rest)

end

theorem objects_arr_le {items : List Json} {n : Nat} :
    (Json.arr items).objects ≤ n ↔ ∀ j ∈ items, j.objects ≤ n := by
  rw [objects]
  induction items with
  | nil => simp [objectsOfItems]
  | cons item rest ih => simp [objectsOfItems, ih]

theorem objects_obj_le {fields : List (String × Json)} {n : Nat} :
    (Json.obj fields).objects ≤ n + 1 ↔ ∀ p ∈ fields, p.2.objects ≤ n := by
  rw [objects, Nat.add_le_add_iff_right]
  induction fields with
  | nil => simp [objectsOfFields]
  | cons field rest ih => simp [objectsOfFields, ih]

theorem at?_append (steps more : List Step) (j : Json) :
    j.at? (steps ++ more) = (j.at? steps).bind (at? more) := by
  induction steps generalizing j with
  | nil => rfl
  | cons step rest ih =>
    cases step with
    | field key =>
      cases j with
      | obj fields =>
        simp only [List.cons_append, at?]
        cases Fields.get? fields key with
        | none => rfl
        | some value => exact ih value
      | _ => rfl
    | item i =>
      cases j with
      | arr items =>
        simp only [List.cons_append, at?]
        cases items[i]? with
        | none => rfl
        | some item => exact ih item
      | _ => rfl
    | key n => cases j <;> rfl

end Json

/-- Neither a list nor an object. -/
def Value.isPlain : Value → Bool
  | .list _ => false
  | .node _ => false
  | _ => true

namespace Graph

variable (g : Graph)

/-- A list has another one among its items. -/
def Holds (p q : Nat) : Prop := .list q ∈ g.listed p

/-- The values that can be reached from an object through own fields and items. -/
inductive Shows (root : Nat) : Value → Prop where
  | start : Shows root (.node root)
  | field {place p} (before : Shows root (.node place)) (own : p ∈ g.ownEntries place) : Shows root p.2
  | item {place v} (before : Shows root (.list place)) (held : v ∈ g.listed place) : Shows root v

open Classical in
/-- The objects that can be reached from an object. -/
noncomputable def shownObjects (root : Nat) : Finset Nat :=
  (Finset.range g.contents.size).filter fun place => g.Shows root (.node place)

/-- No list that can be reached from an object leads back into itself through lists alone. -/
def Loopless (root : Nat) : Prop :=
  ∀ place, g.Shows root (.list place) → ¬ Relation.TransGen g.Holds place place

/-- Every object that can be reached has a plain identifier, type and name. -/
def PlainlyNamed (root : Nat) : Prop :=
  ∀ place, g.Shows root (.node place) →
    ∀ key ∈ ["id", "$type", "name"], (g.field place key).isPlain = true

/-- The steps from an object to a value, and the objects that lie on the way to it, the last one first.
No way leads on from an object that lies on it already. -/
inductive Meets (root : Nat) : List Step → List Nat → Value → Prop where
  | start : Meets root [] [] (.node root)
  | field {steps path place key v} (before : Meets root steps path (.node place))
      (fresh : place ∉ path) (own : Fields.get? (g.ownEntries place) key = some v) :
      Meets root (steps ++ [.field key]) (place :: path) v
  | item {steps path place i v} (before : Meets root steps path (.list place))
      (held : (g.listed place)[i]? = some v) : Meets root (steps ++ [.item i]) path v

/-- The identifier, type and name of an object. -/
def descriptor (place : Nat) : Json :=
  .obj [("id", (g.field place "id").plain), ("type", (g.field place "$type").plain),
    ("name", (g.field place "name").plain)]

/-- What a copy has in place of a value that is met behind some objects. -/
def StandsFor (path : List Nat) : Value → Json → Prop
  | .node place, j =>
    if place ∈ path then j = g.descriptor place
    else ∃ fields, j = .obj fields ∧ Fields.keys fields = Fields.keys (g.ownEntries place)
  | .list place, j => ∃ items, j = .arr items ∧ items.length = (g.listed place).length
  | v, j => j = v.plain

/-- A finite tree that holds at each position what stands for the value that is met there, and nothing
else but the parts of descriptors. -/
structure IsTreeOf (copy : Json) (root : Nat) : Prop where
  nested : copy.objects ≤ (g.shownObjects root).card + 1
  ends : ∀ steps, copy.at? steps ≠ some .endless
  met : ∀ steps path v, g.Meets root steps path v →
    ∃ j, copy.at? steps = some j ∧ g.StandsFor path v j
  only : ∀ steps j, copy.at? steps = some j → (∃ path v, g.Meets root steps path v) ∨
    ∃ before key path place, steps = before ++ [.field key] ∧
      g.Meets root before path (.node place) ∧ place ∈ path

variable {g} {root depth : Nat} {path : List Nat}

theorem mem_shownObjects {place : Nat} :
    place ∈ g.shownObjects root ↔ place < g.contents.size ∧ g.Shows root (.node place) := by
  classical
  rw [shownObjects, Finset.mem_filter, Finset.mem_range]

/-- Places of a graph, each of them once. -/
structure Once (g : Graph) (places : List Nat) : Prop where
  nodup : places.Nodup
  inside : ∀ place ∈ places, place < g.contents.size

namespace Once

variable {places : List Nat} {place : Nat}

theorem nil : g.Once [] := ⟨List.nodup_nil, by simp⟩

theorem cons (h : g.Once places) (hfresh : place ∉ places) (hinside : place < g.contents.size) :
    g.Once (place :: places) :=
  ⟨List.nodup_cons.mpr ⟨hfresh, h.nodup⟩, List.forall_mem_cons.mpr ⟨hinside, h.inside⟩⟩

theorem length_le_card {set : Finset Nat} (h : g.Once places) (hin : ∀ place ∈ places, place ∈ set) :
    places.length ≤ set.card := by
  have hsubset : places.toFinset ⊆ set := by
    intro place hplace
    exact hin place (List.mem_toFinset.mp hplace)
  have hcard := Finset.card_le_card hsubset
  rwa [List.toFinset_card_of_nodup h.nodup] at hcard

theorem length_le (h : g.Once places) : places.length ≤ g.contents.size := by
  have hin : ∀ place ∈ places, place ∈ Finset.range g.contents.size :=
    fun place hplace => Finset.mem_range.mpr (h.inside place hplace)
  have hcard := h.length_le_card hin
  rwa [Finset.card_range] at hcard

end Once

theorem lt_size_of_mem_listed {place : Nat} {v : Value} (h : v ∈ g.listed place) :
    place < g.contents.size := by
  rw [listed] at h
  split at h
  · next hitems => exact (Array.getElem?_eq_some_iff.mp hitems).1
  · cases h

theorem lt_size_of_mem_fields {place : Nat} {p : String × Value} (h : p ∈ g.fields place) :
    place < g.contents.size := by
  rw [fields] at h
  split at h
  · next hfields => exact (Array.getElem?_eq_some_iff.mp hfields).1
  · cases h

theorem lt_size_of_mem_ownEntries {place : Nat} {p : String × Value} (h : p ∈ g.ownEntries place) :
    place < g.contents.size :=
  lt_size_of_mem_fields (List.mem_of_mem_filter h)

/-- Where no list has another one among its items, none leads back into itself. -/
theorem loopless_of_not_holds (h : ∀ p q, ¬ g.Holds p q) : g.Loopless root := by
  intro place _ hback
  obtain ⟨q, hq, -⟩ := Relation.TransGen.head'_iff.mp hback
  exact h place q hq

/-- One object more on the path leaves room for lists again. -/
theorem room_of_cons {size length rest depth : Nat} (hlength : length + 1 ≤ size)
    (hroom : (size - length) * (size + 1) + rest < depth + 1) :
    (size - (length + 1)) * (size + 1) + (size - 0) < depth := by
  obtain ⟨left, hleft⟩ : ∃ left, size - length = left + 1 := ⟨size - length - 1, by omega⟩
  have hless : size - (length + 1) = left := by omega
  rw [hleft, Nat.succ_mul] at hroom
  rw [hless]
  omega

/-- A copy does not run out of depth.  The objects on the path are distinct, and so are the lists passed
since the last of them (`chain`); both numbers are bounded by the size of the graph. -/
theorem exists_copyValue (hloopless : g.Loopless root) {chain : List Nat} {v : Value}
    (hshown : g.Shows root v) (hpath : g.Once path) (hchain : g.Once chain)
    (hleads : ∀ place, v = .list place → ∀ p ∈ chain, Relation.TransGen g.Holds p place)
    (hdepth : (g.contents.size - path.length) * (g.contents.size + 1)
      + (g.contents.size - chain.length) < depth) :
    ∃ j, g.copyValue depth path v = .ok j := by
  induction depth generalizing path chain v with
  | zero => omega
  | succ depth ih =>
    cases v with
    | list place =>
      have hitems : ∀ v ∈ g.listed place, ∃ j, g.copyValue depth path v = .ok j := by
        intro v hv
        have hfresh : place ∉ chain := by
          intro hmem
          exact hloopless place hshown (hleads place rfl place hmem)
        have hlonger := hchain.cons hfresh (lt_size_of_mem_listed hv)
        have hlength := hlonger.length_le
        refine ih (.item hshown hv) hpath hlonger ?_ ?_
        · intro inner hinner p hp
          subst hinner
          rcases List.mem_cons.mp hp with rfl | hp
          · exact .single hv
          · exact (hleads place rfl p hp).tail hv
        · simp only [List.length_cons] at hlength ⊢
          omega
      obtain ⟨items, hmap⟩ := exists_ok_mapM hitems
      exact ⟨.arr items, by rw [copyValue, hmap]; rfl⟩
    | node place =>
      by_cases hmem : place ∈ path
      · exact ⟨g.describe place, by rw [copyValue, if_pos (List.contains_iff_mem.mpr hmem)]; rfl⟩
      have hfields : ∀ p ∈ g.ownEntries place, ∃ field,
          (do return (p.1, ← g.copyValue depth (place :: path) p.2) : Except Fault _) = .ok field := by
        intro p hp
        have hlonger := hpath.cons hmem (lt_size_of_mem_ownEntries hp)
        have hroom := room_of_cons hlonger.length_le hdepth
        obtain ⟨j, hj⟩ := ih (.field hshown hp) hlonger .nil (by simp) hroom
        exact ⟨(p.1, j), by rw [hj]; rfl⟩
      obtain ⟨copied, hmap⟩ := exists_ok_mapM hfields
      refine ⟨.obj copied, ?_⟩
      rw [copyValue, if_neg (by simpa using hmem)]
      exact congrArg (· >>= fun fields => pure (Json.obj fields)) hmap
    | _ => exact ⟨_, rfl⟩

/-- The copy of an object's own fields is the copy of the object when none is on the way to it. -/
theorem copyValue_root : g.copyValue (g.copyBound + 1) [] (.node root) = .obj <$> g.ownFieldsAt root := by
  rw [copyValue, ownFieldsAt]
  simp only [List.contains_nil, Bool.false_eq_true, if_false]
  exact bind_pure_comp _ _

theorem exists_ownFieldsAt (h : g.Loopless root) : ∃ fields, g.ownFieldsAt root = .ok fields := by
  have hbound : (g.contents.size - ([] : List Nat).length) * (g.contents.size + 1)
      + (g.contents.size - ([] : List Nat).length) < g.copyBound + 1 := by
    rw [copyBound, Nat.succ_mul, List.length_nil, Nat.sub_zero]
    omega
  obtain ⟨j, hj⟩ := exists_copyValue h .start .nil .nil (by simp) hbound
  rw [copyValue_root] at hj
  obtain ⟨fields, hfields, -⟩ := ok_map.mp hj
  exact ⟨fields, hfields⟩

theorem ownFields_node (place : Nat) : g.ownFields (.node place) = g.ownFieldsAt place := by
  cases hfields : g.fields place with
  | nil => simp [ownFields, orAbsent, truthy, ownFieldsAt, ownEntries, hfields, Pure.pure, Except.pure]
  | cons field rest => simp [ownFields, orAbsent, truthy, hfields, placeOf, bind_of_ok]

theorem unfold_of_isPlain {v : Value} (h : v.isPlain = true) : g.unfold v = v.plain := by
  cases v with
  | list place => cases h
  | node place => cases h
  | _ => rfl

theorem describe_eq {place : Nat} (h : g.PlainlyNamed root) (hshown : g.Shows root (.node place)) :
    g.describe place = g.descriptor place := by
  have hplain (key : String) (hkey : key ∈ ["id", "$type", "name"]) :
      g.unfold (g.field place key) = (g.field place key).plain :=
    unfold_of_isPlain (h place hshown key hkey)
  simp [describe, descriptor, hplain]

theorem copyValue_again {place : Nat} {j : Json} (hmem : place ∈ path)
    (h : g.copyValue depth path (.node place) = .ok j) : j = g.describe place := by
  cases depth with
  | zero => cases h
  | succ depth =>
    rw [copyValue, if_pos (List.contains_iff_mem.mpr hmem)] at h
    exact (ok_pure.mp h).symm

theorem copyValue_fresh {place : Nat} {j : Json} (hfresh : place ∉ path)
    (h : g.copyValue depth path (.node place) = .ok j) :
    ∃ below fields, depth = below + 1 ∧ j = .obj fields ∧
      Fields.Match (fun v j => g.copyValue below (place :: path) v = .ok j) (g.ownEntries place) fields := by
  cases depth with
  | zero => cases h
  | succ depth =>
    rw [copyValue, if_neg (by simpa using hfresh)] at h
    obtain ⟨fields, hmap, h⟩ := ok_bind.mp h
    obtain rfl := ok_pure.mp h
    exact ⟨depth, fields, rfl, rfl, Fields.ok_mapM_values.mp hmap⟩

theorem copyValue_list {place : Nat} {j : Json} (h : g.copyValue depth path (.list place) = .ok j) :
    ∃ below items, depth = below + 1 ∧ j = .arr items ∧
      List.Forall₂ (fun v j => g.copyValue below path v = .ok j) (g.listed place) items := by
  cases depth with
  | zero => cases h
  | succ depth =>
    obtain ⟨items, hmap, h⟩ := ok_bind.mp h
    obtain rfl := ok_pure.mp h
    exact ⟨depth, items, rfl, rfl, ok_mapM.mp hmap⟩

theorem copyValue_plain {v : Value} {j : Json} (hplain : v.isPlain = true)
    (h : g.copyValue depth path v = .ok j) : j = v.plain := by
  cases depth with
  | zero => cases h
  | succ depth =>
    cases v with
    | list place => cases hplain
    | node place => cases hplain
    | _ => exact (Except.ok.inj h).symm

theorem standsFor_of_copyValue {v : Value} {j : Json} (hnamed : g.PlainlyNamed root)
    (hshown : g.Shows root v) (h : g.copyValue depth path v = .ok j) : g.StandsFor path v j := by
  cases v with
  | list place =>
    obtain ⟨below, items, -, rfl, hitems⟩ := copyValue_list h
    exact ⟨items, rfl, hitems.length_eq.symm⟩
  | node place =>
    rw [StandsFor]
    split
    · next hmem => rw [copyValue_again hmem h, describe_eq hnamed hshown]
    · next hfresh =>
      obtain ⟨below, fields, -, rfl, hfields⟩ := copyValue_fresh hfresh h
      exact ⟨fields, rfl, hfields.keys_eq.symm⟩
  | _ => exact copyValue_plain rfl h

/-- What is met is reached, and a copy of it stands at its position. -/
theorem Meets.copied {copy : Json} {steps : List Step} {v : Value} (h : g.Meets root steps path v)
    (hcopy : g.copyValue depth [] (.node root) = .ok copy) :
    g.Shows root v ∧ ∃ below j, copy.at? steps = some j ∧ g.copyValue below path v = .ok j := by
  induction h with
  | start => exact ⟨.start, depth, copy, by cases copy <;> rfl, hcopy⟩
  | @field steps path place key v _ fresh own ih =>
    obtain ⟨hshown, below, j, hat, hj⟩ := ih
    refine ⟨.field hshown (Fields.mem_of_get? own), ?_⟩
    obtain ⟨below, fields, rfl, rfl, hfields⟩ := copyValue_fresh fresh hj
    have hget := hfields.get? key
    rw [own] at hget
    generalize hvalue : Fields.get? fields key = value at hget
    cases hget with
    | @some _ j' hj' =>
      refine ⟨below, j', ?_, hj'⟩
      rw [Json.at?_append, hat, Option.bind_some, Json.at?, hvalue]
      rfl
  | @item steps path place i v _ held ih =>
    obtain ⟨hshown, below, j, hat, hj⟩ := ih
    refine ⟨.item hshown (List.mem_of_getElem? held), ?_⟩
    obtain ⟨below, items, rfl, rfl, hitems⟩ := copyValue_list hj
    obtain ⟨hi, rfl⟩ := List.getElem?_eq_some_iff.mp held
    have hi' : i < items.length := hitems.length_eq ▸ hi
    refine ⟨below, items[i], ?_, (List.forall₂_iff_get.mp hitems).2 i hi hi'⟩
    rw [Json.at?_append, hat, Option.bind_some, Json.at?, List.getElem?_eq_getElem hi']
    rfl

theorem at?_plain {v : Value} {step : Step} (h : v.isPlain = true) : v.plain.at? [step] = none := by
  cases v with
  | list place => cases h
  | node place => cases h
  | _ => cases step <;> rfl

/-- The parts of a descriptor are plain. -/
theorem plain_of_descriptor {place : Nat} {step : Step} {j : Json} (hnamed : g.PlainlyNamed root)
    (hshown : g.Shows root (.node place)) (h : (g.descriptor place).at? [step] = some j) :
    ∃ key v, step = .field key ∧ Value.isPlain v = true ∧ j = v.plain := by
  have hplain := hnamed place hshown
  cases step with
  | field key =>
    have hget : Fields.get? [("id", (g.field place "id").plain), ("type", (g.field place "$type").plain),
        ("name", (g.field place "name").plain)] key = some j := by
      simpa [descriptor, Json.at?] using h
    have hmem := Fields.mem_of_get? hget
    simp only [List.mem_cons, Prod.mk.injEq, List.not_mem_nil, or_false] at hmem
    rcases hmem with ⟨-, rfl⟩ | ⟨-, rfl⟩ | ⟨-, rfl⟩
    · exact ⟨key, _, rfl, hplain "id" (by simp), rfl⟩
    · exact ⟨key, _, rfl, hplain "$type" (by simp), rfl⟩
    · exact ⟨key, _, rfl, hplain "name" (by simp), rfl⟩
  | _ => cases h

/-- One step on from what has been met leads to what is met next, or into a descriptor. -/
theorem Meets.next {steps : List Step} {step : Step} {v : Value} {j j' : Json}
    (hnamed : g.PlainlyNamed root) (hmet : g.Meets root steps path v) (hshown : g.Shows root v)
    (hcopy : g.copyValue depth path v = .ok j) (hat : j.at? [step] = some j') :
    (∃ path' v', g.Meets root (steps ++ [step]) path' v') ∨
      ∃ key place v', step = .field key ∧ v = .node place ∧ place ∈ path ∧
        Value.isPlain v' = true ∧ j' = v'.plain := by
  cases v with
  | list place =>
    obtain ⟨below, items, -, rfl, hitems⟩ := copyValue_list hcopy
    cases step with
    | item i =>
      have hi : i < items.length := by
        by_contra hi
        simp [Json.at?, List.getElem?_eq_none (Nat.le_of_not_lt hi)] at hat
      have hi' : i < (g.listed place).length := hitems.length_eq ▸ hi
      exact .inl ⟨path, _, hmet.item (List.getElem?_eq_getElem hi')⟩
    | _ => cases hat
  | node place =>
    by_cases hmem : place ∈ path
    · rw [copyValue_again hmem hcopy, describe_eq hnamed hshown] at hat
      obtain ⟨key, v', rfl, hplain, rfl⟩ := plain_of_descriptor hnamed hshown hat
      exact .inr ⟨key, place, v', rfl, rfl, hmem, hplain, rfl⟩
    · obtain ⟨below, fields, -, rfl, hfields⟩ := copyValue_fresh hmem hcopy
      cases step with
      | field key =>
        have hget := hfields.get? key
        rw [Json.at?] at hat
        obtain ⟨value, hvalue, -⟩ := Option.bind_eq_some_iff.mp hat
        rw [hvalue] at hget
        generalize hown : Fields.get? (g.ownEntries place) key = own at hget
        cases hget with
        | some => exact .inl ⟨place :: path, _, hmet.field hmem hown⟩
      | _ => cases hat
  | _ =>
    rw [copyValue_plain rfl hcopy, at?_plain rfl] at hat
    cases hat

/-- A position of the copy has been met, or it is that of a part of a descriptor. -/
theorem meets_of_at? {copy : Json} {steps : List Step} {j : Json} (hnamed : g.PlainlyNamed root)
    (hcopy : g.copyValue depth [] (.node root) = .ok copy) (hat : copy.at? steps = some j) :
    (∃ path v, g.Meets root steps path v) ∨
      ∃ before key path place v, steps = before ++ [.field key] ∧
        g.Meets root before path (.node place) ∧ place ∈ path ∧ Value.isPlain v = true ∧ j = v.plain := by
  induction steps using List.reverseRecOn generalizing j with
  | nil => exact .inl ⟨[], .node root, .start⟩
  | append_singleton before step ih =>
    rw [Json.at?_append, Option.bind_eq_some_iff] at hat
    obtain ⟨j₀, hat₀, hstep⟩ := hat
    rcases ih hat₀ with ⟨path, v, hmet⟩ | ⟨_, _, _, _, v, -, -, -, hplain, rfl⟩
    · obtain ⟨hshown, below, j₁, hat₁, hj₁⟩ := hmet.copied hcopy
      obtain rfl := Option.some.inj (hat₀.symm.trans hat₁)
      rcases hmet.next hnamed hshown hj₁ hstep with hnext | ⟨key, place, v', rfl, rfl, hmem, hplain, hj⟩
      · exact .inl hnext
      · exact .inr ⟨before, key, path, place, v', rfl, hmet, hmem, hplain, hj⟩
    · rw [at?_plain hplain] at hstep
      cases hstep

theorem objects_plain {v : Value} : v.plain.objects = 0 := by
  cases v <;> rfl

theorem objects_descriptor (place : Nat) : (g.descriptor place).objects = 1 := by
  simp [descriptor, Json.objects, Json.objectsOfFields, objects_plain]

theorem length_le_shownObjects (hpath : g.Once path) (hshown : ∀ p ∈ path, g.Shows root (.node p)) :
    path.length ≤ (g.shownObjects root).card :=
  hpath.length_le_card fun place hmem =>
    mem_shownObjects.mpr ⟨hpath.inside place hmem, hshown place hmem⟩

/-- Below the distinct objects on a path a copy goes on for as many objects as are left, and for one
descriptor. -/
theorem objects_copyValue {v : Value} {j : Json} (hnamed : g.PlainlyNamed root)
    (hv : g.Shows root v) (hpath : g.Once path) (hshown : ∀ p ∈ path, g.Shows root (.node p))
    (h : g.copyValue depth path v = .ok j) :
    j.objects ≤ (g.shownObjects root).card - path.length + 1 := by
  induction depth generalizing path v j with
  | zero => cases h
  | succ depth ih =>
    cases v with
    | list place =>
      obtain ⟨below, items, hdepth, rfl, hitems⟩ := copyValue_list h
      obtain rfl := Nat.succ.inj hdepth
      rw [Json.objects_arr_le]
      intro j hj
      obtain ⟨v, hv', hcopy⟩ := exists_of_forall₂ hitems j hj
      exact ih (.item hv hv') hpath hshown hcopy
    | node place =>
      by_cases hmem : place ∈ path
      · rw [copyValue_again hmem h, describe_eq hnamed hv, objects_descriptor]
        omega
      obtain ⟨below, fields, hdepth, rfl, hfields⟩ := copyValue_fresh hmem h
      obtain rfl := Nat.succ.inj hdepth
      rw [Json.objects_obj_le]
      intro q hq
      obtain ⟨p, hp, -, hcopy⟩ := exists_of_forall₂ hfields q hq
      have hpath' := hpath.cons hmem (lt_size_of_mem_ownEntries hp)
      have hshown' : ∀ p ∈ place :: path, g.Shows root (.node p) :=
        List.forall_mem_cons.mpr ⟨hv, hshown⟩
      have hlength := length_le_shownObjects hpath' hshown'
      have hle := ih (.field hv hp) hpath' hshown' hcopy
      simp only [List.length_cons] at hlength hle
      omega
    | _ =>
      rw [copyValue_plain rfl h, objects_plain]
      exact Nat.zero_le _

/-- A copy of own fields is a finite tree in which an object is described exactly where it lies on the
way to it, and is copied field by field everywhere else. -/
theorem exists_isTreeOf (hloopless : g.Loopless root) (hnamed : g.PlainlyNamed root) :
    ∃ fields, g.ownFields (.node root) = .ok fields ∧ g.IsTreeOf (.obj fields) root := by
  obtain ⟨fields, hfields⟩ := exists_ownFieldsAt hloopless
  have hcopy : g.copyValue (g.copyBound + 1) [] (.node root) = .ok (.obj fields) := by
    rw [copyValue_root, hfields]
    rfl
  have hmet : ∀ steps path v, g.Meets root steps path v →
      ∃ j, (Json.obj fields).at? steps = some j ∧ g.StandsFor path v j := by
    intro steps path v hmet
    obtain ⟨hshown, below, j, hat, hj⟩ := hmet.copied hcopy
    exact ⟨j, hat, standsFor_of_copyValue hnamed hshown hj⟩
  refine ⟨fields, (ownFields_node root).trans hfields, ?_, ?_, hmet, ?_⟩
  · simpa using objects_copyValue hnamed .start .nil (by simp) hcopy
  · intro steps hat
    rcases meets_of_at? hnamed hcopy hat with ⟨path, v, hway⟩ | ⟨_, _, _, _, v, -, -, -, hplain, hend⟩
    · obtain ⟨j, hj, hstands⟩ := hmet steps path v hway
      obtain rfl := Option.some.inj (hat.symm.trans hj)
      cases v with
      | list place =>
        obtain ⟨items, hitems, -⟩ := hstands
        cases hitems
      | node place =>
        rw [StandsFor] at hstands
        split at hstands
        · cases hstands
        · obtain ⟨copied, hobj, -⟩ := hstands
          cases hobj
      | _ => cases hstands
    · cases v with
      | list place => cases hplain
      | node place => cases hplain
      | _ => cases hend
  · intro steps j hat
    rcases meets_of_at? hnamed hcopy hat with hway | ⟨before, key, path, place, _, hsteps, hway, hmem, -⟩
    · exact .inl hway
    · exact .inr ⟨before, key, path, place, hsteps, hway, hmem⟩

/-- Two link events that name each other, one of them in a list of sources. -/
def linkEvents : Graph where
  contents := #[
    .object [("$type", .str "bpmn:LinkEventDefinition"), ("id", .str "a"), ("target", .node 1)],
    .object [("$type", .str "bpmn:LinkEventDefinition"), ("id", .str "b"), ("source", .list 2)],
    .list [.node 0]]

theorem loopless_linkEvents : linkEvents.Loopless 0 := by
  apply loopless_of_not_holds
  intro p q h
  have hp : p < 3 := lt_size_of_mem_listed h
  rw [Holds] at h
  interval_cases p <;> simp [listed, linkEvents] at h

theorem plainlyNamed_linkEvents : linkEvents.PlainlyNamed 0 := by
  intro place _ key hkey
  by_cases hp : place < 3
  · interval_cases place <;> revert key <;> decide
  · have hnone : linkEvents.fields place = [] := by
      rw [fields, Array.getElem?_eq_none (Nat.le_of_not_lt hp)]
    rw [field, hnone]
    rfl

theorem exists_isTreeOf_linkEvents :
    linkEvents.Loopless 0 ∧ linkEvents.PlainlyNamed 0 ∧
      ∃ fields, linkEvents.ownFields (.node 0) = .ok fields ∧ linkEvents.IsTreeOf (.obj fields) 0 :=
  ⟨loopless_linkEvents, plainlyNamed_linkEvents,
    exists_isTreeOf loopless_linkEvents plainlyNamed_linkEvents⟩

end Graph

end Bpmn
