import Bpmn.Json.Reader
import Bpmn.Proofs.Checked
import Bpmn.Proofs.Fields
import Bpmn.Proofs.Number.Digits

namespace Bpmn

/-- An integer that is not too long, or a float that is neither infinite nor no number. -/
def Number.Sound : Number → Prop
  | .int i => digitCount i.natAbs ≤ digitLimit
  | .float x => (Number.float x).isFinite = true

/-- An integer that is not too long, or any float. -/
def Number.Readable : Number → Prop
  | .int i => digitCount i.natAbs ≤ digitLimit
  | .float _ => True

/-- An integer of any length, or a float that is neither infinite nor no number. -/
def Number.Finite (n : Number) : Prop := n.isFinite = true

theorem Number.Sound.finite {n : Number} (h : n.Sound) : n.Finite := by
  cases n with
  | int i => rfl
  | float x => exact h

theorem Number.Readable.sound {n : Number} (h : n.Readable) (hfinite : n.Finite) : n.Sound := by
  cases n with
  | int i => exact h
  | float x => exact hfinite

namespace Json

/-- A value with an end in which no key is given twice and every number has a property. -/
inductive Orderly (P : Number → Prop) : Json → Prop where
  | null : Orderly P .null
  | bool (b : Bool) : Orderly P (.bool b)
  | num {n : Number} (holds : P n) : Orderly P (.num n)
  | str (s : String) : Orderly P (.str s)
  | arr {items : List Json} (each : ∀ j ∈ items, Orderly P j) : Orderly P (.arr items)
  | obj {fields : List (String × Json)} (distinct : Fields.Distinct fields)
      (each : ∀ p ∈ fields, Orderly P p.2) : Orderly P (.obj fields)

/-- A value that a text may denote. -/
inductive Sound : Json → Prop where
  | null : Sound .null
  | bool (b : Bool) : Sound (.bool b)
  | num {n : Number} (sound : n.Sound) : Sound (.num n)
  | str (s : String) : Sound (.str s)
  | arr {items : List Json} (each : ∀ j ∈ items, Sound j) : Sound (.arr items)
  | obj {fields : List (String × Json)} (distinct : Fields.Distinct fields)
      (each : ∀ p ∈ fields, Sound p.2) : Sound (.obj fields)

/-- A value without numbers that are infinite or no number. -/
inductive Finite : Json → Prop where
  | null : Finite .null
  | bool (b : Bool) : Finite (.bool b)
  | num {n : Number} (finite : n.isFinite = true) : Finite (.num n)
  | str (s : String) : Finite (.str s)
  | arr {items : List Json} (each : ∀ j ∈ items, Finite j) : Finite (.arr items)
  | obj {fields : List (String × Json)} (each : ∀ p ∈ fields, Finite p.2) : Finite (.obj fields)
  | endless : Finite .endless
  | operation : Finite .operation

@[simp] theorem sound_str (s : String) : (Json.str s).Sound := .str s

@[simp] theorem sound_arr {items : List Json} : (Json.arr items).Sound ↔ ∀ j ∈ items, j.Sound := by
  constructor
  · intro h
    cases h with
    | arr each => exact each
  · exact .arr

@[simp] theorem sound_obj {fields : List (String × Json)} :
    (Json.obj fields).Sound ↔ Fields.Distinct fields ∧ ∀ p ∈ fields, p.2.Sound := by
  constructor
  · intro h
    cases h with
    | obj distinct each => exact ⟨distinct, each⟩
  · rintro ⟨distinct, each⟩
    exact .obj distinct each

section Orderly

variable {P : Number → Prop}

@[simp] theorem orderly_str (s : String) : (Json.str s).Orderly P := .str s

@[simp] theorem orderly_arr {items : List Json} :
    (Json.arr items).Orderly P ↔ ∀ j ∈ items, j.Orderly P := by
  constructor
  · intro h
    cases h with
    | arr each => exact each
  · exact .arr

@[simp] theorem orderly_obj {fields : List (String × Json)} :
    (Json.obj fields).Orderly P ↔ Fields.Distinct fields ∧ ∀ p ∈ fields, p.2.Orderly P := by
  constructor
  · intro h
    cases h with
    | obj distinct each => exact ⟨distinct, each⟩
  · rintro ⟨distinct, each⟩
    exact .obj distinct each

theorem Orderly.mono {Q : Number → Prop} (hPQ : ∀ n, P n → Q n) {j : Json} (h : j.Orderly P) : j.Orderly Q := by
  induction h with
  | null => exact .null
  | bool b => exact .bool b
  | num holds => exact .num (hPQ _ holds)
  | str s => exact .str s
  | arr _ ih => exact .arr ih
  | obj distinct _ ih => exact .obj distinct ih

theorem orderly_ofText (text : Option String) : (Json.ofText text).Orderly P := by
  cases text with
  | none => exact .null
  | some s => exact .str s

theorem orderly_ofOption {α : Type} {f : α → Json} {a : Option α}
    (h : ∀ x, a = some x → (f x).Orderly P) : (Json.ofOption f a).Orderly P := by
  cases a with
  | none => exact .null
  | some x => exact h x rfl

end Orderly

theorem sound_iff {j : Json} : j.Sound ↔ j.Orderly Number.Sound := by
  constructor
  · intro h
    induction h with
    | null => exact .null
    | bool b => exact .bool b
    | num sound => exact .num sound
    | str s => exact .str s
    | arr _ ih => exact .arr ih
    | obj distinct _ ih => exact .obj distinct ih
  · intro h
    induction h with
    | null => exact .null
    | bool b => exact .bool b
    | num sound => exact .num sound
    | str s => exact .str s
    | arr _ ih => exact .arr ih
    | obj distinct _ ih => exact .obj distinct ih

theorem Orderly.finite {j : Json} (h : j.Orderly Number.Finite) : j.Finite := by
  induction h with
  | null => exact .null
  | bool b => exact .bool b
  | num finite => exact .num finite
  | str s => exact .str s
  | arr _ ih => exact .arr ih
  | obj _ _ ih => exact .obj ih

theorem areShort_iff {items : List Json} : areShort items = true ↔ ∀ j ∈ items, j.isShort = true := by
  induction items with
  | nil => simp [areShort]
  | cons item rest ih => rw [areShort, Bool.and_eq_true, ih, List.forall_mem_cons]

theorem fieldsAreShort_iff {fields : List (String × Json)} :
    fieldsAreShort fields = true ↔ ∀ p ∈ fields, p.2.isShort = true := by
  induction fields with
  | nil => simp [fieldsAreShort]
  | cons field rest ih =>
    obtain ⟨key, value⟩ := field
    rw [fieldsAreShort, Bool.and_eq_true, ih, List.forall_mem_cons]

/-- No integer of a sound value is too long. -/
theorem Sound.isShort {j : Json} (h : j.Sound) : j.isShort = true := by
  induction h with
  | @num n sound =>
    cases n with
    | int i => exact decide_eq_true sound
    | float x => rfl
  | arr _ ih => exact areShort_iff.mpr ih
  | obj _ _ ih => exact fieldsAreShort_iff.mpr ih
  | _ => rfl

/-- An orderly value without infinite numbers is sound if no integer of it is too long. -/
theorem Orderly.sound_of_isShort {j : Json} (h : j.Orderly Number.Finite) (hshort : j.isShort = true) :
    j.Sound := by
  induction h with
  | null => exact .null
  | bool b => exact .bool b
  | @num n finite =>
    cases n with
    | int i =>
      have hdigits : digitCount i.natAbs ≤ digitLimit := of_decide_eq_true hshort
      exact .num hdigits
    | float x => exact .num finite
  | str s => exact .str s
  | arr _ ih =>
    have hitems := areShort_iff.mp hshort
    exact .arr fun j hj => ih j hj (hitems j hj)
  | obj distinct _ ih =>
    have hfields := fieldsAreShort_iff.mp hshort
    exact .obj distinct fun p hp => ih p hp (hfields p hp)

theorem Orderly.sound {j : Json} (h : j.Orderly Number.Readable) (hfinite : j.Finite) : j.Sound := by
  induction h with
  | null => exact .null
  | bool b => exact .bool b
  | num readable =>
    cases hfinite with
    | num finite => exact .num (readable.sound finite)
  | str s => exact .str s
  | arr _ ih =>
    cases hfinite with
    | arr each => exact .arr fun j hj => ih j hj (each j hj)
  | obj distinct _ ih =>
    cases hfinite with
    | obj each => exact .obj distinct fun p hp => ih p hp (each p hp)

theorem depth_le_of_mem {items : List Json} {j : Json} (h : j ∈ items) : j.depth ≤ depthOfItems items := by
  induction items with
  | nil => cases h
  | cons item rest ih =>
    rw [depthOfItems]
    rcases List.mem_cons.mp h with rfl | h
    · exact Nat.le_max_left _ _
    · exact Nat.le_trans (ih h) (Nat.le_max_right _ _)

theorem depth_le_of_mem_fields {fields : List (String × Json)} {p : String × Json} (h : p ∈ fields) :
    p.2.depth ≤ depthOfFields fields := by
  induction fields with
  | nil => cases h
  | cons field rest ih =>
    obtain ⟨key, value⟩ := field
    rw [depthOfFields]
    rcases List.mem_cons.mp h with rfl | h
    · exact Nat.le_max_left _ _
    · exact Nat.le_trans (ih h) (Nat.le_max_right _ _)

theorem depth_arr_le {items : List Json} {n : Nat} :
    (Json.arr items).depth ≤ n + 1 ↔ ∀ j ∈ items, j.depth ≤ n := by
  rw [depth, Nat.add_le_add_iff_right]
  induction items with
  | nil => simp [depthOfItems]
  | cons item rest ih => rw [depthOfItems, Nat.max_le, ih, List.forall_mem_cons]

theorem depth_obj_le {fields : List (String × Json)} {n : Nat} :
    (Json.obj fields).depth ≤ n + 1 ↔ ∀ p ∈ fields, p.2.depth ≤ n := by
  rw [depth, Nat.add_le_add_iff_right]
  induction fields with
  | nil => simp [depthOfFields]
  | cons field rest ih => rw [depthOfFields, Nat.max_le, ih, List.forall_mem_cons]

/-- A step of reading gives something orderly, if it gives anything. -/
def ReadsOrderly (value : List Char → Reading (Json × List Char)) : Prop :=
  ∀ s j rest, value s = .ok (j, rest) → j.Orderly Number.Readable

variable {dialect : Dialect}

theorem isDigit_takeDigits {s digits rest : List Char} (h : takeDigits s = (digits, rest)) :
    ∀ c ∈ digits, c.isDigit = true := by
  obtain ⟨rfl, rfl⟩ := Prod.mk.inj h
  intro c hc
  exact List.all_eq_true.mp List.all_takeWhile c hc

theorem isDigit_wholeDigits? {s digits rest : List Char} (h : wholeDigits? s = some (digits, rest)) :
    (∀ c ∈ digits, c.isDigit = true) ∧ digits ≠ [] := by
  cases s with
  | nil => cases h
  | cons c s =>
    by_cases hzero : c = '0'
    · subst hzero
      obtain ⟨rfl, rfl⟩ := Prod.mk.inj (Option.some.inj h)
      exact ⟨List.forall_mem_singleton.mpr rfl, by decide⟩
    · rw [wholeDigits?] at h
      · split at h
        · next hc =>
          have htake := Option.some.inj h
          refine ⟨isDigit_takeDigits htake, ?_⟩
          rintro rfl
          simp [takeDigits, hc] at htake
        · cases h
      · exact hzero

/-- A number without its sign is a float or an integer of the digits of its whole part. -/
theorem int_of_unsignedNumber? {negative : Bool} {s rest : List Char} {i : Int}
    (h : unsignedNumber? negative s = some (.int i, rest)) :
    ∃ whole after, wholeDigits? s = some (whole, after) ∧
      i.natAbs = Nat.ofDigitChars 10 whole 0 := by
  rw [unsignedNumber?] at h
  cases hwhole : wholeDigits? s with
  | none =>
    rw [hwhole] at h
    cases h
  | some parts =>
    obtain ⟨whole, after⟩ := parts
    rw [hwhole] at h
    simp only [Option.bind_eq_bind, Option.bind_some] at h
    refine ⟨whole, after, rfl, ?_⟩
    split at h
    · cases h
    · split at h
      · obtain ⟨hi, -⟩ := Prod.mk.inj (Option.some.inj h)
        cases negative <;> simp at hi <;> omega
      · cases h

theorem orderly_number {s rest : List Char} {j : Json} (h : number dialect s = .ok (j, rest)) :
    j.Orderly Number.Readable := by
  obtain ⟨negative, unsigned, hsign⟩ : ∃ negative unsigned, takeSign s = (negative, unsigned) :=
    ⟨_, _, rfl⟩
  rw [number, hsign] at h
  dsimp only at h
  split at h
  · cases h
  · next n after hn =>
    split at h
    · cases h
    · next hshort =>
      obtain ⟨rfl, -⟩ := Prod.mk.inj (Except.ok.inj h)
      cases n with
      | float x => exact .num trivial
      | int i =>
        obtain ⟨whole, after, hwhole, hvalue⟩ := int_of_unsignedNumber? hn
        obtain ⟨hdigits, hne⟩ := isDigit_wholeDigits? hwhole
        have hlength : whole.length ≤ digitLimit := by
          rw [hwhole] at hshort
          cases dialect <;> simpa [Dialect.isTooLong] using hshort
        refine .num (Nat.le_trans ?_ hlength)
        rw [hvalue]
        exact Digits.digitCount_ofDigitChars_le hdigits hne

theorem readsOrderly_bareScalar : ReadsOrderly (bareScalar dialect) := by
  intro s j rest h
  rw [bareScalar] at h
  split at h
  · next parsed hfound =>
    obtain ⟨word, hword, hparsed⟩ := List.exists_of_findSome?_eq_some hfound
    obtain ⟨after, -, rfl⟩ := Option.map_eq_some_iff.mp hparsed
    obtain ⟨rfl, -⟩ := Prod.mk.inj (Except.ok.inj h)
    simp only [scalarWords, List.mem_cons, List.not_mem_nil, or_false] at hword
    rcases hword with rfl | rfl | rfl | rfl | rfl | rfl
    · exact .null
    · exact .bool true
    · exact .bool false
    all_goals exact .num trivial
  · exact orderly_number h

theorem orderly_arrayItems {value : List Char → Reading (Json × List Char)} (hvalue : ReadsOrderly value)
    {count : Nat} {s rest : List Char} {items : List Json}
    (h : arrayItems value count s = .ok (items, rest)) : ∀ j ∈ items, j.Orderly Number.Readable := by
  induction count generalizing s items rest with
  | zero => cases h
  | succ count ih =>
    rw [arrayItems, ok_bind] at h
    obtain ⟨⟨item, after⟩, hitem, h⟩ := h
    dsimp only at h
    split at h
    · obtain ⟨rfl, -⟩ := Prod.mk.inj (ok_pure.mp h)
      intro j hj
      obtain rfl := List.mem_singleton.mp hj
      exact hvalue _ _ _ hitem
    · obtain ⟨⟨more, end'⟩, hmore, h⟩ := ok_bind.mp h
      obtain ⟨rfl, -⟩ := Prod.mk.inj (ok_pure.mp h)
      intro j hj
      rcases List.mem_cons.mp hj with rfl | hj
      · exact hvalue _ _ _ hitem
      · exact ih hmore j hj
    · cases h

theorem orderly_objectFields {value : List Char → Reading (Json × List Char)}
    (hvalue : ReadsOrderly value) {count : Nat} {s rest : List Char} {pairs : List (String × Json)}
    (h : objectFields dialect value count s = .ok (pairs, rest)) :
    ∀ p ∈ pairs, p.2.Orderly Number.Readable := by
  induction count generalizing s pairs rest with
  | zero => cases h
  | succ count ih =>
    unfold objectFields at h
    split at h
    · obtain ⟨⟨key, after⟩, -, h⟩ := ok_bind.mp h
      dsimp only at h
      split at h
      · obtain ⟨⟨item, after⟩, hitem, h⟩ := ok_bind.mp h
        dsimp only at h
        split at h
        · obtain ⟨rfl, -⟩ := Prod.mk.inj (ok_pure.mp h)
          intro p hp
          obtain rfl := List.mem_singleton.mp hp
          exact hvalue _ _ _ hitem
        · obtain ⟨⟨more, end'⟩, hmore, h⟩ := ok_bind.mp h
          obtain ⟨rfl, -⟩ := Prod.mk.inj (ok_pure.mp h)
          intro p hp
          rcases List.mem_cons.mp hp with rfl | hp
          · exact hvalue _ _ _ hitem
          · exact ih hmore p hp
        · cases h
      · cases h
    · cases h

theorem readsOrderly_value (size depth : Nat) : ReadsOrderly (value dialect size depth) := by
  have text {s rest : List Char} {j : Json}
      (h : (do let read ← stringText dialect.half s; return (.str read.1, read.2) :
        Reading (Json × List Char)) = .ok (j, rest)) : j.Orderly Number.Readable := by
    obtain ⟨⟨text, after⟩, -, h⟩ := ok_bind.mp h
    obtain ⟨rfl, -⟩ := Prod.mk.inj (ok_pure.mp h)
    exact .str text
  induction depth with
  | zero =>
    intro s j rest h
    unfold value at h
    split at h
    · exact text h
    · split at h
      · obtain ⟨rfl, -⟩ := Prod.mk.inj (Except.ok.inj h)
        exact .arr (by simp)
      · cases h
    · split at h
      · obtain ⟨rfl, -⟩ := Prod.mk.inj (Except.ok.inj h)
        exact .obj Fields.distinct_nil (by simp)
      · cases h
    · next hdepth => cases hdepth
    · next hdepth => cases hdepth
    · exact readsOrderly_bareScalar _ _ _ h
  | succ depth ih =>
    intro s j rest h
    unfold value at h
    split at h
    · exact text h
    · next hdepth => cases hdepth
    · next hdepth => cases hdepth
    · next hdepth =>
      obtain rfl := Nat.succ.inj hdepth
      split at h
      · obtain ⟨rfl, -⟩ := Prod.mk.inj (Except.ok.inj h)
        exact .arr (by simp)
      · obtain ⟨⟨items, after⟩, hitems, h⟩ := ok_bind.mp h
        obtain ⟨rfl, -⟩ := Prod.mk.inj (ok_pure.mp h)
        exact .arr (orderly_arrayItems ih hitems)
    · next hdepth =>
      obtain rfl := Nat.succ.inj hdepth
      split at h
      · obtain ⟨rfl, -⟩ := Prod.mk.inj (Except.ok.inj h)
        exact .obj Fields.distinct_nil (by simp)
      · obtain ⟨⟨pairs, after⟩, hpairs, h⟩ := ok_bind.mp h
        obtain ⟨rfl, -⟩ := Prod.mk.inj (ok_pure.mp h)
        refine .obj (Fields.distinct_ofPairs pairs) ?_
        intro p hp
        exact orderly_objectFields ih hpairs p (Fields.mem_ofPairs hp)
    · exact readsOrderly_bareScalar _ _ _ h

/-- Whatever a text denotes is orderly. -/
theorem orderly_read {depth : Nat} {s : List Char} {j : Json} (h : read dialect depth s = .ok j) :
    j.Orderly Number.Readable := by
  unfold read at h
  split at h
  · cases h
  · obtain ⟨⟨j', rest⟩, hvalue, h⟩ := ok_bind.mp h
    dsimp only at h
    split at h
    · obtain rfl := ok_pure.mp h
      exact readsOrderly_value _ _ _ _ _ hvalue
    · cases h

theorem orderly_parse {text : String} {j : Json} (h : parse text = .ok j) :
    j.Orderly Number.Readable := by
  rw [parse] at h
  split at h
  · cases h
  · cases h
  · next hread =>
    obtain rfl := Except.ok.inj h
    exact orderly_read hread

theorem sound_read? {text : String} {j : Json} (h : read? text = some j) (hfinite : j.Finite) :
    j.Sound := by
  rw [read?] at h
  cases hread : read .snapshot snapshotDepth text.toList with
  | error refusal =>
    rw [hread] at h
    cases h
  | ok j' =>
    rw [hread] at h
    obtain rfl := Option.some.inj h
    exact (orderly_read hread).sound hfinite

end Json

end Bpmn
