namespace Bpmn

/-- Fields in the order in which they were first given.  Giving a field again replaces its value and keeps its
place. -/
abbrev Fields (α : Type) := List (String × α)

namespace Fields

variable {α β : Type}

def get? (fields : Fields α) (key : String) : Option α := fields.lookup key

def has (fields : Fields α) (key : String) : Bool := fields.any (·.1 == key)

def keys (fields : Fields α) : List String := fields.map (·.1)

/-- Replaces the value of a field, or adds the field at the end. -/
def put : Fields α → String → α → Fields α
  | [], key, value => [(key, value)]
  | (k, v) :: rest, key, value =>
    if k = key then (k, value) :: rest else (k, v) :: put rest key value

/-- Puts every field of `other`, in order. -/
def update (fields other : Fields α) : Fields α :=
  other.foldl (fun acc (key, value) => acc.put key value) fields

/-- The fields of a list of pairs in which the last value of a key counts. -/
def ofPairs (pairs : List (String × α)) : Fields α := update [] pairs

def without (fields : Fields α) (keys : List String) : Fields α :=
  fields.filter fun (key, _) => !keys.contains key

@[simp] theorem get?_nil (key : String) : get? ([] : Fields α) key = none := rfl

theorem get?_cons (k : String) (v : α) (rest : Fields α) (key : String) :
    get? ((k, v) :: rest) key = if key = k then some v else get? rest key := by
  rw [get?, List.lookup_cons]
  by_cases h : key = k
  · rw [beq_iff_eq.2 h, if_pos h]
  · rw [beq_eq_false_iff_ne.2 h, if_neg h]
    rfl

/-- A field holds what was put last and no other field is touched. -/
theorem get?_put (fields : Fields α) (key : String) (value : α) (other : String) :
    (fields.put key value).get? other = if other = key then some value else fields.get? other := by
  induction fields with
  | nil => simp [put, get?_cons]
  | cons field rest ih =>
    obtain ⟨k, v⟩ := field
    by_cases hk : k = key
    · subst hk
      by_cases ho : other = k <;> simp [put, get?_cons, ho]
    · by_cases ho : other = k
      · subst ho; simp [put, get?_cons, hk]
      · simp [put, get?_cons, hk, ho, ih]

/-- A value found under a key is one of the values. -/
theorem mem_of_get? {fields : Fields α} {key : String} {value : α}
    (h : fields.get? key = some value) : (key, value) ∈ fields := by
  induction fields with
  | nil => simp at h
  | cons field rest ih =>
    obtain ⟨k, v⟩ := field
    rw [get?_cons] at h
    split at h
    · next hk => subst hk; simp_all
    · exact List.mem_cons_of_mem _ (ih h)

end Fields

end Bpmn
