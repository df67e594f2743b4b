import Bpmn.Proofs.Document.Copies
import Bpmn.Proofs.Document.Trees
import Mathlib.Logic.Relation

namespace Bpmn

namespace Json

mutual

/-- A tree with the own fields of its objects at every level. -/
def own : Json → Json
  | .arr items => .arr (ownItems items)
  | .obj fields => .obj (ownFields fields)
  | j => j

def ownItems : List Json → List Json
  | [] => []
  | item :: rest => item.own :: ownItems rest

def ownFields : List (String × Json) → List (String × Json)
  | [] => []
  | (key, value) :: rest =>
    if Key.isOwn key then (key, value.own) :: ownFields rest else ownFields rest

end

/-- A tree in which nothing is cut off. -/
inductive Solid : Json → Prop where
  | null : Solid .null
  | bool (b : Bool) : Solid (.bool b)
  | num (n : Number) : Solid (.num n)
  | str (s : String) : Solid (.str s)
  | arr {items : List Json} (each : ∀ j ∈ items, Solid j) : Solid (.arr items)
  | obj {fields : List (String × Json)} (each : ∀ p ∈ fields, Solid p.2) : Solid (.obj fields)

theorem ownItems_eq (items : List Json) : ownItems items = items.map own := by
  induction items with
  | nil => rfl
  | cons item rest ih => rw [ownItems, ih, List.map_cons]

theorem ownFields_eq (fields : List (String × Json)) :
    ownFields fields =
      (List.filter (fun p => Key.isOwn p.1) fields).map fun p => (p.1, p.2.own) := by
  induction fields with
  | nil => rfl
  | cons field rest ih =>
    obtain ⟨key, value⟩ := field
    rw [ownFields, List.filter_cons, ih]
    split <;> rfl

end Json

/-- The place of a list or an object. -/
def Value.place? : Value → Option Nat
  | .list place => some place
  | .node place => some place
  | _ => none

namespace Graph

variable (g : Graph)

/-- What stands directly in a list or an object. -/
def Leads : Value → Value → Prop
  | .list place, v => v ∈ g.listed place
  | .node place, v => ∃ key, (key, v) ∈ g.fields place
  | _, _ => False

/-- What stands somewhere in a value, itself included. -/
def Reaches (v w : Value) : Prop := Relation.ReflTransGen g.Leads v w

/-- A list stands where a list is met, and an object where an object is. -/
def IsPlaced : Value → Prop
  | .list place => ∃ items, g.contents[place]? = some (.list items)
  | .node place => ∃ fields, g.contents[place]? = some (.object fields)
  | _ => True

instance (v : Value) : Decidable (g.IsPlaced v) :=
  match v with
  | .list place =>
    match h : g.contents[place]? with
    | some (.list items) => isTrue ⟨items, h⟩
    | some (.object _) => isFalse fun ⟨_, hitems⟩ => nomatch h.symm.trans hitems
    | none => isFalse fun ⟨_, hitems⟩ => nomatch h.symm.trans hitems
  | .node place =>
    match h : g.contents[place]? with
    | some (.list _) => isFalse fun ⟨_, hfields⟩ => nomatch h.symm.trans hfields
    | some (.object fields) => isTrue ⟨fields, h⟩
    | none => isFalse fun ⟨_, hfields⟩ => nomatch h.symm.trans hfields
  | .null => isTrue trivial
  | .bool _ => isTrue trivial
  | .num _ => isTrue trivial
  | .str _ => isTrue trivial

/-- Everything in a value stands at a place of its kind, and nothing leads back into itself. -/
structure Acyclic (v : Value) : Prop where
  placed : ∀ w, g.Reaches v w → g.IsPlaced w
  noReturn : ∀ w, g.Reaches v w → ¬ Relation.TransGen g.Leads w w

/-- A tree is what a value holds, with at most so many lists and objects inside one another. -/
def UnfoldsIn : Nat → Value → Json → Prop
  | 0, .list _, _ => False
  | 0, .node _, _ => False
  | depth + 1, .list place, j => ∃ values items, g.contents[place]? = some (.list values) ∧
      j = .arr items ∧ List.Forall₂ (UnfoldsIn depth) values items
  | depth + 1, .node place, j => ∃ values fields, g.contents[place]? = some (.object values) ∧
      j = .obj fields ∧ Fields.Match (UnfoldsIn depth) values fields
  | _, v, j => j = v.plain

variable {g} {v w : Value} {j : Json} {depth place : Nat}

theorem listed_of_contents {items : List Value} (h : g.contents[place]? = some (.list items)) :
    g.listed place = items := by
  rw [listed, h]

theorem fields_of_contents {fields : Fields Value} (h : g.contents[place]? = some (.object fields)) :
    g.fields place = fields := by
  rw [Graph.fields, h]

theorem unfoldsIn_list : g.UnfoldsIn depth (.list place) j ↔
    ∃ below items, depth = below + 1 ∧ g.contents[place]? = some (.list (g.listed place)) ∧
      j = .arr items ∧ List.Forall₂ (g.UnfoldsIn below) (g.listed place) items := by
  cases depth with
  | zero => simp [UnfoldsIn]
  | succ depth =>
    constructor
    · rintro ⟨values, items, hplace, rfl, hitems⟩
      rw [listed_of_contents hplace]
      exact ⟨depth, items, rfl, hplace, rfl, hitems⟩
    · rintro ⟨below, items, hdepth, hplace, rfl, hitems⟩
      obtain rfl := Nat.succ.inj hdepth
      exact ⟨_, items, hplace, rfl, hitems⟩

theorem unfoldsIn_node : g.UnfoldsIn depth (.node place) j ↔
    ∃ below fields, depth = below + 1 ∧ g.contents[place]? = some (.object (g.fields place)) ∧
      j = .obj fields ∧ Fields.Match (g.UnfoldsIn below) (g.fields place) fields := by
  cases depth with
  | zero => simp [UnfoldsIn]
  | succ depth =>
    constructor
    · rintro ⟨values, fields, hplace, rfl, hfields⟩
      rw [fields_of_contents hplace]
      exact ⟨depth, fields, rfl, hplace, rfl, hfields⟩
    · rintro ⟨below, fields, hdepth, hplace, rfl, hfields⟩
      obtain rfl := Nat.succ.inj hdepth
      exact ⟨_, fields, hplace, rfl, hfields⟩

theorem unfoldsIn_plain (h : v.isPlain = true) : g.UnfoldsIn depth v j ↔ j = v.plain := by
  cases v with
  | list place => cases h
  | node place => cases h
  | _ => cases depth <;> exact Iff.rfl

theorem UnfoldsIn.of_arr {items : List Json} (h : g.UnfoldsIn depth v (.arr items)) :
    ∃ place below, v = .list place ∧ below ≤ depth ∧
      List.Forall₂ (g.UnfoldsIn below) (g.listed place) items := by
  cases v with
  | list place =>
    obtain ⟨below, _, rfl, -, hsame, hitems⟩ := unfoldsIn_list.mp h
    obtain rfl := Json.arr.inj hsame
    exact ⟨place, below, rfl, Nat.le_succ below, hitems⟩
  | node place =>
    obtain ⟨_, _, -, -, hsame, -⟩ := unfoldsIn_node.mp h
    cases hsame
  | _ => cases (unfoldsIn_plain rfl).mp h

theorem UnfoldsIn.of_obj {fields : List (String × Json)} (h : g.UnfoldsIn depth v (.obj fields)) :
    ∃ place below, v = .node place ∧ below ≤ depth ∧
      Fields.Match (g.UnfoldsIn below) (g.fields place) fields := by
  cases v with
  | list place =>
    obtain ⟨_, _, -, -, hsame, -⟩ := unfoldsIn_list.mp h
    cases hsame
  | node place =>
    obtain ⟨below, _, rfl, -, hsame, hfields⟩ := unfoldsIn_node.mp h
    obtain rfl := Json.obj.inj hsame
    exact ⟨place, below, rfl, Nat.le_succ below, hfields⟩
  | _ => cases (unfoldsIn_plain rfl).mp h

theorem UnfoldsIn.of_leaf (h : g.UnfoldsIn depth v j) (harr : ∀ items, j ≠ .arr items)
    (hobj : ∀ fields, j ≠ .obj fields) : v.isPlain = true ∧ j = v.plain := by
  cases v with
  | list place =>
    obtain ⟨_, items, -, -, hsame, -⟩ := unfoldsIn_list.mp h
    exact absurd hsame (harr items)
  | node place =>
    obtain ⟨_, fields, -, -, hsame, -⟩ := unfoldsIn_node.mp h
    exact absurd hsame (hobj fields)
  | _ => exact ⟨rfl, (unfoldsIn_plain rfl).mp h⟩

theorem UnfoldsIn.mono {more : Nat} (h : g.UnfoldsIn depth v j) (hle : depth ≤ more) :
    g.UnfoldsIn more v j := by
  induction depth generalizing more v j with
  | zero =>
    cases v with
    | list place => cases h
    | node place => cases h
    | _ => exact (unfoldsIn_plain rfl).mpr h
  | succ depth ih =>
    obtain ⟨more, rfl⟩ : ∃ n, more = n + 1 := ⟨more - 1, by omega⟩
    have hless : depth ≤ more := by omega
    cases v with
    | list place =>
      obtain ⟨values, items, hplace, rfl, hitems⟩ := h
      exact ⟨values, items, hplace, rfl, hitems.imp fun _ _ h => ih h hless⟩
    | node place =>
      obtain ⟨values, fields, hplace, rfl, hfields⟩ := h
      exact ⟨values, fields, hplace, rfl, hfields.imp fun _ _ h => ⟨h.1, ih h.2 hless⟩⟩
    | _ => exact h

theorem rightUnique_unfoldsIn (depth : Nat) : Relator.RightUnique (g.UnfoldsIn depth) := by
  induction depth with
  | zero =>
    intro v j j' h h'
    cases v with
    | list place => cases h
    | node place => cases h
    | _ => exact h.trans h'.symm
  | succ depth ih =>
    intro v j j' h h'
    cases v with
    | list place =>
      obtain ⟨_, items, hplace, rfl, hitems⟩ := h
      obtain ⟨_, items', hplace', rfl, hitems'⟩ := h'
      rw [hplace] at hplace'
      cases hplace'
      exact congrArg Json.arr (List.right_unique_forall₂' ih hitems hitems')
    | node place =>
      obtain ⟨_, fields, hplace, rfl, hfields⟩ := h
      obtain ⟨_, fields', hplace', rfl, hfields'⟩ := h'
      rw [hplace] at hplace'
      cases hplace'
      refine congrArg Json.obj (List.right_unique_forall₂' ?_ hfields hfields')
      intro p q q' hq hq'
      exact Prod.ext (hq.1.symm.trans hq'.1) (ih hq.2 hq'.2)
    | _ => exact h.trans h'.symm

/-- A value holds one tree. -/
theorem UnfoldsIn.unique {depth' : Nat} {j' : Json} (h : g.UnfoldsIn depth v j)
    (h' : g.UnfoldsIn depth' v j') : j = j' :=
  rightUnique_unfoldsIn _ (h.mono (Nat.le_max_left depth depth')) (h'.mono (Nat.le_max_right depth depth'))

theorem depth_plain (v : Value) : v.plain.depth = 0 := by
  cases v <;> rfl

/-- The depth of a tree is enough for it. -/
theorem UnfoldsIn.exact (h : g.UnfoldsIn depth v j) : g.UnfoldsIn j.depth v j ∧ j.depth ≤ depth := by
  induction depth generalizing v j with
  | zero =>
    cases v with
    | list place => cases h
    | node place => cases h
    | _ =>
      obtain rfl := h
      rw [depth_plain]
      exact ⟨rfl, Nat.le_refl 0⟩
  | succ depth ih =>
    cases v with
    | list place =>
      obtain ⟨values, items, hplace, rfl, hitems⟩ := h
      constructor
      · refine ⟨values, items, hplace, rfl, forall₂_of_mem hitems ?_⟩
        intro v j hj hv
        exact (ih hv).1.mono (Json.depth_le_of_mem hj)
      · rw [Json.depth_arr_le]
        intro j hj
        obtain ⟨v, -, hv⟩ := exists_of_forall₂ hitems j hj
        exact (ih hv).2
    | node place =>
      obtain ⟨values, fields, hplace, rfl, hfields⟩ := h
      constructor
      · refine ⟨values, fields, hplace, rfl, forall₂_of_mem hfields ?_⟩
        intro p q hq hp
        exact ⟨hp.1, (ih hp.2).1.mono (Json.depth_le_of_mem_fields hq)⟩
      · rw [Json.depth_obj_le]
        intro q hq
        obtain ⟨p, -, hp⟩ := exists_of_forall₂ hfields q hq
        exact (ih hp.2).2
    | _ =>
      obtain rfl := h
      rw [depth_plain]
      exact ⟨rfl, Nat.zero_le _⟩

theorem IsPlaced.unique (hv : g.IsPlaced v) (hw : g.IsPlaced w) (hplace : v.place? = some place)
    (hplace' : w.place? = some place) : v = w := by
  -- A place holds a list or an object and not both.
  have hkind (items : List Value) (fields : Fields Value)
      (hitems : g.contents[place]? = some (.list items)) :
      ¬ g.contents[place]? = some (.object fields) := by
    rw [hitems]
    simp
  cases v with
  | list p =>
    obtain rfl := Option.some.inj hplace
    obtain ⟨items, hitems⟩ := hv
    cases w with
    | list q => rw [Option.some.inj hplace']
    | node q =>
      obtain rfl := Option.some.inj hplace'
      obtain ⟨fields, hfields⟩ := hw
      exact absurd hfields (hkind items fields hitems)
    | _ => cases hplace'
  | node p =>
    obtain rfl := Option.some.inj hplace
    obtain ⟨fields, hfields⟩ := hv
    cases w with
    | node q => rw [Option.some.inj hplace']
    | list q =>
      obtain rfl := Option.some.inj hplace'
      obtain ⟨items, hitems⟩ := hw
      exact absurd hfields (hkind items fields hitems)
    | _ => cases hplace'
  | _ => cases hplace

theorem IsPlaced.lt_size (hv : g.IsPlaced v) (hplace : v.place? = some place) :
    place < g.contents.size := by
  cases v with
  | list p =>
    obtain rfl := Option.some.inj hplace
    obtain ⟨items, hitems⟩ := hv
    exact (Array.getElem?_eq_some_iff.mp hitems).1
  | node p =>
    obtain rfl := Option.some.inj hplace
    obtain ⟨fields, hfields⟩ := hv
    exact (Array.getElem?_eq_some_iff.mp hfields).1
  | _ => cases hplace

/-- Places on a way from a root to a value, each of them once. -/
structure OnWay (g : Graph) (root : Value) (chain : List Nat) (v : Value) : Prop where
  reached : g.Reaches root v
  once : g.Once chain
  leads : ∀ q ∈ chain, ∃ u, g.Reaches root u ∧ u.place? = some q ∧ Relation.TransGen g.Leads u v

section Way

variable {root : Value} {chain : List Nat}

/-- A value that never leads back is met nowhere on the way to it. -/
theorem OnWay.cons (hway : g.OnWay root chain v) (h : g.Acyclic root) (hplace : v.place? = some place) :
    g.Once (place :: chain) := by
  have hplaced := h.placed v hway.reached
  refine hway.once.cons ?_ (hplaced.lt_size hplace)
  intro hmem
  obtain ⟨u, hu, hplace', hback⟩ := hway.leads place hmem
  obtain rfl := (h.placed u hu).unique hplaced hplace' hplace
  exact h.noReturn u hu hback

theorem OnWay.step (hway : g.OnWay root chain v) (h : g.Acyclic root) (hplace : v.place? = some place)
    (hw : g.Leads v w) : g.OnWay root (place :: chain) w := by
  refine ⟨hway.reached.tail hw, hway.cons h hplace, ?_⟩
  intro q hq
  rcases List.mem_cons.mp hq with rfl | hq
  · exact ⟨v, hway.reached, hplace, .single hw⟩
  · obtain ⟨u, hu, hplace', hback⟩ := hway.leads q hq
    exact ⟨u, hu, hplace', hback.tail hw⟩

/-- A value that never leads back into itself holds a tree.  The number of places on the way to it is
bounded by the size of the graph. -/
theorem OnWay.exists_unfoldsIn (hway : g.OnWay root chain v) (h : g.Acyclic root)
    (hdepth : g.contents.size ≤ depth + chain.length) : ∃ j, g.UnfoldsIn depth v j := by
  induction depth generalizing v chain with
  | zero =>
    have hnone : v.place? = none := by
      rw [Option.eq_none_iff_forall_ne_some]
      intro place hplace
      have hlength := (hway.cons h hplace).length_le
      rw [List.length_cons] at hlength
      omega
    cases v with
    | list place => cases hnone
    | node place => cases hnone
    | _ => exact ⟨_, rfl⟩
  | succ depth ih =>
    have hbelow {place : Nat} (hplace : v.place? = some place) (w : Value) (hw : g.Leads v w) :
        ∃ j, g.UnfoldsIn depth w j := by
      apply ih (hway.step h hplace hw)
      rw [List.length_cons]
      omega
    cases v with
    | list place =>
      obtain ⟨items, hitems⟩ := exists_forall₂ (hbelow rfl)
      obtain ⟨values, hplace⟩ := h.placed _ hway.reached
      rw [listed_of_contents hplace] at hitems
      exact ⟨.arr items, values, items, hplace, rfl, hitems⟩
    | node place =>
      have hfields : ∀ p ∈ g.fields place,
          ∃ q : String × Json, p.1 = q.1 ∧ g.UnfoldsIn depth p.2 q.2 := by
        intro p hp
        obtain ⟨j, hj⟩ := hbelow rfl p.2 ⟨p.1, hp⟩
        exact ⟨(p.1, j), rfl, hj⟩
      obtain ⟨fields, hfields⟩ := exists_forall₂ hfields
      obtain ⟨values, hplace⟩ := h.placed _ hway.reached
      rw [fields_of_contents hplace] at hfields
      exact ⟨.obj fields, values, fields, hplace, rfl, hfields⟩
    | _ => exact ⟨_, rfl⟩

end Way

theorem Acyclic.unfoldsIn_size (h : g.Acyclic v) (hreached : g.Reaches v w) :
    ∃ j, g.UnfoldsIn g.contents.size w j := by
  have hway : g.OnWay v [] w := ⟨hreached, .nil, by simp⟩
  exact hway.exists_unfoldsIn h (by simp)

/-- Where everything leads to earlier places, nothing leads back. -/
theorem acyclic_of_lt (hv : g.IsPlaced v)
    (hlists : ∀ p < g.contents.size, ∀ w ∈ g.listed p, g.IsPlaced w ∧ ∀ q ∈ w.place?, q < p)
    (hfields : ∀ p < g.contents.size, ∀ f ∈ g.fields p, g.IsPlaced f.2 ∧ ∀ q ∈ f.2.place?, q < p) :
    g.Acyclic v := by
  have hstep {u w : Value} (huw : g.Leads u w) :
      ∃ p, u.place? = some p ∧ g.IsPlaced w ∧ ∀ q ∈ w.place?, q < p := by
    cases u with
    | list p => exact ⟨p, rfl, hlists p (lt_size_of_mem_listed huw) w huw⟩
    | node p =>
      obtain ⟨key, hw⟩ := huw
      exact ⟨p, rfl, hfields p (lt_size_of_mem_fields hw) (key, w) hw⟩
    | _ => cases huw
  have hlt {u w : Value} (huw : Relation.TransGen g.Leads u w) :
      ∀ p ∈ u.place?, ∀ q ∈ w.place?, q < p := by
    induction huw with
    | single huw =>
      obtain ⟨p, hp, -, hless⟩ := hstep huw
      intro p' hp' q hq
      obtain rfl := Option.mem_unique hp' hp
      exact hless q hq
    | tail _ hlast ih =>
      obtain ⟨r, hr, -, hless⟩ := hstep hlast
      intro p hp q hq
      exact Nat.lt_trans (hless q hq) (ih p hp r hr)
  constructor
  · intro w hw
    cases hw with
    | refl => exact hv
    | tail _ hlast =>
      obtain ⟨_, -, hplaced, -⟩ := hstep hlast
      exact hplaced
  · intro w _ hback
    obtain ⟨_, hfirst, -⟩ := Relation.TransGen.head'_iff.mp hback
    obtain ⟨p, hp, -⟩ := hstep hfirst
    exact Nat.lt_irrefl p (hlt hback p hp p hp)

/-- The objects on a path hold larger trees. -/
def Larger (g : Graph) (path : List Nat) (j : Json) : Prop :=
  ∀ place ∈ path, ∃ d t, g.UnfoldsIn d (.node place) t ∧ sizeOf j < sizeOf t

section Larger

variable {path : List Nat}

/-- What holds a tree is none of the objects that hold larger ones. -/
theorem Larger.fresh (hpath : g.Larger path j) (h : g.UnfoldsIn depth (.node place) j) : place ∉ path := by
  intro hmem
  obtain ⟨d, t, ht, hsize⟩ := hpath place hmem
  obtain rfl := h.unique ht
  exact Nat.lt_irrefl _ hsize

theorem Larger.item {items : List Json} (hpath : g.Larger path (.arr items)) (hj : j ∈ items) :
    g.Larger path j := by
  intro place hmem
  obtain ⟨d, t, ht, hsize⟩ := hpath place hmem
  have hitem := List.sizeOf_lt_of_mem hj
  simp only [Json.arr.sizeOf_spec] at hsize
  exact ⟨d, t, ht, by omega⟩

theorem Larger.field {fields : List (String × Json)} {key : String} (hpath : g.Larger path (.obj fields))
    (h : g.UnfoldsIn depth (.node place) (.obj fields)) (hj : (key, j) ∈ fields) :
    g.Larger (place :: path) j := by
  have hsmaller : sizeOf j < sizeOf (Json.obj fields) := by
    have hfield := List.sizeOf_lt_of_mem hj
    simp only [Prod.mk.sizeOf_spec, Json.obj.sizeOf_spec] at hfield ⊢
    omega
  intro other hmem
  rcases List.mem_cons.mp hmem with rfl | hmem
  · exact ⟨_, _, h, hsmaller⟩
  · obtain ⟨d, t, ht, hsize⟩ := hpath other hmem
    exact ⟨d, t, ht, Nat.lt_trans hsmaller hsize⟩

end Larger

/-- A copy of a tree writes its own fields, as no object is met inside itself. -/
theorem UnfoldsIn.copyValue {bound : Nat} {path : List Nat} (h : g.UnfoldsIn depth v j)
    (hpath : g.Larger path j) (hbound : depth < bound) : g.copyValue bound path v = .ok j.own := by
  induction depth generalizing v j bound path with
  | zero =>
    obtain ⟨bound, rfl⟩ : ∃ n, bound = n + 1 := ⟨bound - 1, by omega⟩
    cases v with
    | list place => cases h
    | node place => cases h
    | _ =>
      obtain rfl := h
      rfl
  | succ depth ih =>
    obtain ⟨bound, rfl⟩ : ∃ n, bound = n + 1 := ⟨bound - 1, by omega⟩
    have hless : depth < bound := by omega
    cases v with
    | list place =>
      obtain ⟨values, items, hplace, rfl, hitems⟩ := h
      have hcopied : values.mapM (g.copyValue bound path) = .ok (items.map Json.own) := by
        rw [ok_mapM, List.forall₂_map_right_iff]
        refine forall₂_of_mem hitems ?_
        intro v j hj hv
        exact ih hv (hpath.item hj) hless
      rw [Graph.copyValue, listed_of_contents hplace, hcopied, Json.own, Json.ownItems_eq]
      rfl
    | node place =>
      have hfresh := hpath.fresh h
      have htree := h
      obtain ⟨values, fields, hplace, rfl, hfields⟩ := h
      have hcopied : (g.ownEntries place).mapM (fun p => do
          return (p.1, ← g.copyValue bound (place :: path) p.2)) = .ok (Json.ownFields fields) := by
        apply Fields.ok_mapM_values.mpr
        rw [Json.ownFields_eq, Fields.Match, List.forall₂_map_right_iff, ownEntries,
          fields_of_contents hplace]
        refine forall₂_of_mem (hfields.filter Key.isOwn) ?_
        intro p q hq hp
        exact ⟨hp.1, ih hp.2 (hpath.field htree (List.mem_of_mem_filter hq)) hless⟩
      rw [Graph.copyValue, if_neg (by simpa using hfresh), Json.own]
      exact congrArg (· >>= fun fields => pure (Json.obj fields)) hcopied
    | _ =>
      obtain rfl := h
      rfl

theorem UnfoldsIn.isPlaced (h : g.UnfoldsIn depth v j) : g.IsPlaced v := by
  cases v with
  | list place =>
    obtain ⟨_, _, -, hplace, -⟩ := unfoldsIn_list.mp h
    exact ⟨_, hplace⟩
  | node place =>
    obtain ⟨_, _, -, hplace, -⟩ := unfoldsIn_node.mp h
    exact ⟨_, hplace⟩
  | _ => trivial

theorem UnfoldsIn.field (h : g.UnfoldsIn (depth + 1) (.node place) j) (key : String) :
    ∃ j', g.UnfoldsIn depth (g.field place key) j' := by
  obtain ⟨below, fields, hdepth, -, rfl, hfields⟩ := unfoldsIn_node.mp h
  obtain rfl := Nat.succ.inj hdepth
  have hvalue := hfields.get? key
  rw [Graph.field]
  generalize Fields.get? (g.fields place) key = o, Fields.get? fields key = o' at hvalue
  cases hvalue with
  | none => exact ⟨.null, (unfoldsIn_plain rfl).mpr rfl⟩
  | some hv => exact ⟨_, hv⟩

theorem UnfoldsIn.itemsOrNone {items : List Value} (h : g.UnfoldsIn depth v j)
    (hitems : g.itemsOrNone v = .ok items) : ∀ w ∈ items, ∃ j', g.UnfoldsIn depth w j' := by
  have hplain {l : List String} : ∀ w ∈ l.map Value.str, ∃ j', g.UnfoldsIn depth w j' := by
    intro w hw
    obtain ⟨s, -, rfl⟩ := List.mem_map.mp hw
    exact ⟨.str s, (unfoldsIn_plain rfl).mpr rfl⟩
  by_cases htruthy : g.truthy v
  · rw [Graph.itemsOrNone, orAbsent, if_pos htruthy] at hitems
    change g.items v = .ok items at hitems
    cases v with
    | list place =>
      obtain rfl := Except.ok.inj hitems
      obtain ⟨below, trees, rfl, -, -, htrees⟩ := unfoldsIn_list.mp h
      intro w hw
      obtain ⟨t, -, ht⟩ := exists_of_forall₂ htrees.flip w hw
      exact ⟨t, UnfoldsIn.mono ht (Nat.le_succ below)⟩
    | node place =>
      obtain rfl := Except.ok.inj hitems
      exact hplain
    | str s =>
      obtain rfl := Except.ok.inj hitems
      simpa using hplain (l := s.toList.map Char.toString)
    | _ => cases hitems
  · rw [Graph.itemsOrNone, orAbsent, if_neg htruthy] at hitems
    obtain rfl := Except.ok.inj hitems
    simp

/-- What has been unfolded so far is what stands there. -/
def Knows (g : Graph) (known : Unfolded) : Prop :=
  ∀ (place : Nat) (j : Json), known[place]? = some j →
    ∃ d v, Value.place? v = some place ∧ g.UnfoldsIn d v j

theorem Knows.once {known : Unfolded} {make : StateT Unfolded Option Json} (hknown : g.Knows known)
    (h : g.UnfoldsIn depth v j) (hplace : v.place? = some place)
    (hmake : ∃ known', make.run known = some (j, known') ∧ g.Knows known') :
    ∃ known', (Unfolded.once place make).run known = some (j, known') ∧ g.Knows known' := by
  cases hget : known[place]? with
  | some j' =>
    obtain ⟨d, w, hplace', hw⟩ := hknown place j' hget
    obtain rfl := h.isPlaced.unique hw.isPlaced hplace hplace'
    obtain rfl := h.unique hw
    exact ⟨known, by simp [Unfolded.once, hget], hknown⟩
  | none =>
    obtain ⟨known', hrun, hknown'⟩ := hmake
    refine ⟨known'.insert place j, by simp [Unfolded.once, hget, hrun], ?_⟩
    intro other j' hj'
    rw [Std.TreeMap.getElem?_insert] at hj'
    split at hj'
    · next hsame =>
      obtain rfl := Std.LawfulEqCmp.eq_of_compare hsame
      obtain rfl := Option.some.inj hj'
      exact ⟨depth, v, hplace, h⟩
    · exact hknown' other j' hj'

theorem UnfoldsIn.unfoldWithin {bound : Nat} {known : Unfolded} (h : g.UnfoldsIn depth v j)
    (hbound : depth < bound) (hknown : g.Knows known) :
    ∃ known', (g.unfoldWithin bound v).run known = some (j, known') ∧ g.Knows known' := by
  induction depth generalizing bound v j known with
  | zero =>
    obtain ⟨bound, rfl⟩ : ∃ n, bound = n + 1 := ⟨bound - 1, by omega⟩
    cases v with
    | list place => cases h
    | node place => cases h
    | _ =>
      obtain rfl := h
      exact ⟨known, rfl, hknown⟩
  | succ depth ih =>
    obtain ⟨bound, rfl⟩ : ∃ n, bound = n + 1 := ⟨bound - 1, by omega⟩
    have hless : depth < bound := by omega
    cases v with
    | list place =>
      apply hknown.once h rfl
      obtain ⟨values, items, hplace, rfl, hitems⟩ := h
      obtain ⟨items', known', hrun, hitems', hknown'⟩ :=
        Unfolded.mapM_ends (R := g.UnfoldsIn depth) (f := g.unfoldWithin bound) (l := values) hknown
          fun v hv known hknown => by
            obtain ⟨j, -, hj⟩ := exists_of_forall₂ hitems.flip v hv
            obtain ⟨known', hrun, hknown'⟩ := ih hj hless hknown
            exact ⟨j, known', hrun, hj, hknown'⟩
      obtain rfl := List.right_unique_forall₂' (rightUnique_unfoldsIn depth) hitems hitems'
      rw [listed_of_contents hplace]
      exact ⟨known', by simp [hrun], hknown'⟩
    | node place =>
      apply hknown.once h rfl
      have hunique := rightUnique_unfoldsIn (g := g) (depth + 1)
      have htree := h
      obtain ⟨values, fields, hplace, rfl, hfields⟩ := h
      obtain ⟨fields', known', hrun, hfields', hknown'⟩ :=
        Unfolded.mapM_ends (R := fun p q => p.1 = q.1 ∧ g.UnfoldsIn depth p.2 q.2)
          (f := fun (p : String × Value) => do return (p.1, ← g.unfoldWithin bound p.2)) (l := values)
          hknown fun p hp known hknown => by
            obtain ⟨q, -, hq⟩ := exists_of_forall₂ hfields.flip p hp
            obtain ⟨known', hrun, hknown'⟩ := ih hq.2 hless hknown
            exact ⟨(p.1, q.2), known', by simp [hrun], ⟨rfl, hq.2⟩, hknown'⟩
      have hsame := hunique htree ⟨values, fields', hplace, rfl, hfields'⟩
      obtain rfl := Json.obj.inj hsame
      rw [fields_of_contents hplace]
      simp only [bind_pure_comp] at hrun
      exact ⟨known', by simp [hrun], hknown'⟩
    | _ =>
      obtain rfl := h
      exact ⟨known, rfl, hknown⟩

theorem UnfoldsIn.unfold (h : g.UnfoldsIn depth v j) (hdepth : depth ≤ g.contents.size) :
    g.unfold v = j := by
  have hempty : g.Knows ∅ := by
    intro place j hj
    simp at hj
  have hbound : depth < g.depthBound := by
    rw [depthBound]
    omega
  obtain ⟨known, hrun, -⟩ := h.unfoldWithin hbound hempty
  rw [Graph.unfold, StateT.run'_eq, hrun]
  rfl

theorem UnfoldsIn.ownFieldsAt (h : g.UnfoldsIn depth (.node place) j) (hdepth : depth ≤ g.contents.size) :
    ∃ fields, j = .obj fields ∧ g.ownFieldsAt place = .ok (Json.ownFields fields) := by
  have hbound : depth < g.copyBound + 1 := by
    rw [copyBound, Nat.succ_mul]
    omega
  have hpath : g.Larger [] j := by simp [Larger]
  have hcopy : g.copyValue (g.copyBound + 1) [] (.node place) = .ok j.own := h.copyValue hpath hbound
  obtain ⟨_, fields, -, -, rfl, -⟩ := unfoldsIn_node.mp h
  rw [copyValue_root] at hcopy
  obtain ⟨own, hown, hobj⟩ := ok_map.mp hcopy
  rw [Json.own] at hobj
  exact ⟨fields, rfl, by rw [hown, Json.obj.inj hobj]⟩

/-- Everything stands where it stood. -/
structure Grows (g g' : Graph) : Prop where
  size : g.contents.size ≤ g'.contents.size
  kept : ∀ (place : Nat) (content : Content),
    g.contents[place]? = some content → g'.contents[place]? = some content

theorem Grows.refl (g : Graph) : g.Grows g := ⟨Nat.le_refl _, fun _ _ h => h⟩

theorem Grows.trans {g' g'' : Graph} (h : g.Grows g') (h' : g'.Grows g'') : g.Grows g'' :=
  ⟨Nat.le_trans h.size h'.size, fun place content hc => h'.kept place content (h.kept place content hc)⟩

theorem grows_push (content : Content) : g.Grows (g.push content).1 where
  size := by
    rw [push, Array.size_push]
    exact Nat.le_succ _
  kept place found hfound := by
    have hlt := (Array.getElem?_eq_some_iff.mp hfound).1
    rw [push, Array.getElem?_push, if_neg (Nat.ne_of_lt hlt), hfound]

theorem UnfoldsIn.grow {g' : Graph} (h : g.UnfoldsIn depth v j) (hgrows : g.Grows g') :
    g'.UnfoldsIn depth v j := by
  induction depth generalizing v j with
  | zero =>
    cases v with
    | list place => cases h
    | node place => cases h
    | _ => exact h
  | succ depth ih =>
    cases v with
    | list place =>
      obtain ⟨values, items, hplace, rfl, hitems⟩ := h
      exact ⟨values, items, hgrows.kept _ _ hplace, rfl, hitems.imp fun _ _ h => ih h⟩
    | node place =>
      obtain ⟨values, fields, hplace, rfl, hfields⟩ := h
      exact ⟨values, fields, hgrows.kept _ _ hplace, rfl, hfields.imp fun _ _ h => ⟨h.1, ih h.2⟩⟩
    | _ => exact h

/-- A graph into which a tree of some depth has been put. -/
structure Takes (g g' : Graph) (depth : Nat) (v : Value) (j : Json) : Prop where
  grows : g.Grows g'
  room : g.contents.size + j.depth ≤ g'.contents.size
  unfolds : g'.UnfoldsIn depth v j

theorem takes_addItems {items : List Json}
    (hadd : ∀ j ∈ items, ∀ g : Graph, g.Takes (g.add j).1 depth (g.add j).2 j) (g : Graph) :
    g.Grows (g.addItems items).1 ∧
      g.contents.size + Json.depthOfItems items ≤ (g.addItems items).1.contents.size ∧
      List.Forall₂ ((g.addItems items).1.UnfoldsIn depth) (g.addItems items).2 items := by
  induction items generalizing g with
  | nil => exact ⟨.refl g, Nat.le_refl _, .nil⟩
  | cons item rest ih =>
    obtain ⟨hgrows, hroom, hitem⟩ := hadd item List.mem_cons_self g
    obtain ⟨hgrows', hroom', hrest⟩ := ih (fun j hj => hadd j (List.mem_cons_of_mem _ hj)) (g.add item).1
    refine ⟨hgrows.trans hgrows', ?_, .cons (hitem.grow hgrows') hrest⟩
    rw [Json.depthOfItems]
    have hsize := hgrows'.size
    have hsize' := hgrows.size
    change _ ≤ ((g.add item).1.addItems rest).1.contents.size
    omega

theorem takes_addFields {fields : List (String × Json)}
    (hadd : ∀ p ∈ fields, ∀ g : Graph, g.Takes (g.add p.2).1 depth (g.add p.2).2 p.2) (g : Graph) :
    g.Grows (g.addFields fields).1 ∧
      g.contents.size + Json.depthOfFields fields ≤ (g.addFields fields).1.contents.size ∧
      Fields.Match ((g.addFields fields).1.UnfoldsIn depth) (g.addFields fields).2 fields := by
  induction fields generalizing g with
  | nil => exact ⟨.refl g, Nat.le_refl _, .nil⟩
  | cons field rest ih =>
    obtain ⟨key, value⟩ := field
    obtain ⟨hgrows, hroom, hvalue⟩ := hadd (key, value) List.mem_cons_self g
    obtain ⟨hgrows', hroom', hrest⟩ := ih (fun p hp => hadd p (List.mem_cons_of_mem _ hp)) (g.add value).1
    refine ⟨hgrows.trans hgrows', ?_, .cons ⟨rfl, hvalue.grow hgrows'⟩ hrest⟩
    rw [Json.depthOfFields]
    have hsize := hgrows'.size
    have hsize' := hgrows.size
    change _ ≤ ((g.add value).1.addFields rest).1.contents.size
    simp only at hroom
    omega

/-- A solid tree can be put into any graph. -/
theorem takes_add (h : j.Solid) (hdepth : j.depth ≤ depth) (base : Graph) :
    base.Takes (base.add j).1 depth (base.add j).2 j := by
  induction h generalizing depth base with
  | arr _ ih =>
    next items _ =>
    obtain ⟨below, rfl⟩ : ∃ below, depth = below + 1 := ⟨depth - 1, by rw [Json.depth] at hdepth; omega⟩
    rw [Json.depth_arr_le] at hdepth
    have hadd : ∀ j ∈ items, ∀ g : Graph, g.Takes (g.add j).1 below (g.add j).2 j :=
      fun j hj g => ih j hj (hdepth j hj) g
    obtain ⟨hgrows, hroom, hadded⟩ := takes_addItems hadd base
    have hpush := grows_push (g := (base.addItems items).1) (.list (base.addItems items).2)
    refine ⟨hgrows.trans hpush, ?_, ?_⟩
    · have hsize : (base.add (.arr items)).1.contents.size = (base.addItems items).1.contents.size + 1 :=
        Array.size_push _
      rw [hsize, Json.depth]
      omega
    · exact ⟨_, items, Array.getElem?_push_size, rfl, hadded.imp fun _ _ h => h.grow hpush⟩
  | obj _ ih =>
    next fields _ =>
    obtain ⟨below, rfl⟩ : ∃ below, depth = below + 1 := ⟨depth - 1, by rw [Json.depth] at hdepth; omega⟩
    rw [Json.depth_obj_le] at hdepth
    have hadd : ∀ p ∈ fields, ∀ g : Graph, g.Takes (g.add p.2).1 below (g.add p.2).2 p.2 :=
      fun p hp g => ih p hp (hdepth p hp) g
    obtain ⟨hgrows, hroom, hadded⟩ := takes_addFields hadd base
    have hpush := grows_push (g := (base.addFields fields).1) (.object (base.addFields fields).2)
    refine ⟨hgrows.trans hpush, ?_, ?_⟩
    · have hsize : (base.add (.obj fields)).1.contents.size =
          (base.addFields fields).1.contents.size + 1 := Array.size_push _
      rw [hsize, Json.depth]
      omega
    · exact ⟨_, fields, Array.getElem?_push_size, rfl, hadded.imp fun _ _ h => ⟨h.1, h.2.grow hpush⟩⟩
  | _ => exact ⟨.refl base, Nat.le_refl _, (unfoldsIn_plain rfl).mpr rfl⟩

/-- Nothing is cut off in the tree that a value holds. -/
theorem UnfoldsIn.solid (h : g.UnfoldsIn depth v j) : j.Solid := by
  have hplain {v : Value} (hv : v.isPlain = true) : v.plain.Solid := by
    cases v with
    | list place => cases hv
    | node place => cases hv
    | _ => constructor
  induction depth generalizing v j with
  | zero =>
    cases v with
    | list place => cases h
    | node place => cases h
    | _ =>
      obtain rfl := h
      exact hplain rfl
  | succ depth ih =>
    cases v with
    | list place =>
      obtain ⟨values, items, -, rfl, hitems⟩ := h
      refine .arr fun j hj => ?_
      obtain ⟨v, -, hv⟩ := exists_of_forall₂ hitems j hj
      exact ih hv
    | node place =>
      obtain ⟨values, fields, -, rfl, hfields⟩ := h
      refine .obj fun p hp => ?_
      obtain ⟨q, -, hq⟩ := exists_of_forall₂ hfields p hp
      exact ih hq.2
    | _ =>
      obtain rfl := h
      exact hplain rfl

end Graph

end Bpmn
