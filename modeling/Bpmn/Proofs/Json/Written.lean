import Bpmn.Model.Dump
import Bpmn.Proofs.Json.Sound

namespace Bpmn.Json

mutual

/-- The value with null in place of every number that is not finite. -/
def written : Json → Json
  | .num n => if n.isFinite then .num n else .null
  | .arr items => .arr (writtenItems items)
  | .obj fields => .obj (writtenFields fields)
  | j => j

def writtenItems : List Json → List Json
  | [] => []
  | item :: rest => item.written :: writtenItems rest

def writtenFields : List (String × Json) → List (String × Json)
  | [] => []
  | (key, value) :: rest => (key, value.written) :: writtenFields rest

end

variable {P : Number → Prop}

theorem writtenItems_eq (items : List Json) : writtenItems items = items.map written := by
  induction items with
  | nil => rfl
  | cons item rest ih => rw [writtenItems, ih, List.map_cons]

theorem writtenFields_eq (fields : List (String × Json)) :
    writtenFields fields = fields.map fun p => (p.1, p.2.written) := by
  induction fields with
  | nil => rfl
  | cons field rest ih => rw [writtenFields, ih, List.map_cons]

@[simp] theorem writtenFields_nil : writtenFields [] = [] := rfl

@[simp] theorem writtenFields_cons (key : String) (value : Json) (rest : List (String × Json)) :
    writtenFields ((key, value) :: rest) = (key, value.written) :: writtenFields rest := rfl

@[simp] theorem writtenFields_append (fields more : List (String × Json)) :
    writtenFields (fields ++ more) = writtenFields fields ++ writtenFields more := by
  simp only [writtenFields_eq, List.map_append]

@[simp] theorem keys_writtenFields (fields : List (String × Json)) :
    Fields.keys (writtenFields fields) = Fields.keys fields := by
  rw [writtenFields_eq]
  exact Fields.keys_map fun p : String × Json => p.2.written

theorem get?_writtenFields (fields : List (String × Json)) (key : String) :
    Fields.get? (writtenFields fields) key = (Fields.get? fields key).map written := by
  induction fields with
  | nil => rfl
  | cons field rest ih =>
    obtain ⟨name, value⟩ := field
    rw [writtenFields_cons, Fields.get?_cons, Fields.get?_cons, ih]
    split <;> rfl

@[simp] theorem written_arr (items : List Json) : (Json.arr items).written = .arr (items.map written) := by
  rw [written, writtenItems_eq]

@[simp] theorem written_obj (fields : List (String × Json)) :
    (Json.obj fields).written = .obj (writtenFields fields) := rfl

@[simp] theorem written_str (s : String) : (Json.str s).written = .str s := rfl

@[simp] theorem written_ofText (text : Option String) : (Json.ofText text).written = .ofText text := by
  cases text <;> rfl

theorem written_ofOption {α : Type} {f g : α → Json} {o : Option α} (h : ∀ a ∈ o, (f a).written = g a) :
    (Json.ofOption f o).written = .ofOption g o := by
  cases o with
  | none => rfl
  | some a => exact h a rfl

theorem dumpItems_eq {items : List Json} (h : ∀ j ∈ items, j.dump = .ok j.written) :
    dumpItems items = .ok (items.map written) := by
  induction items with
  | nil => rfl
  | cons item rest ih =>
    rw [dumpItems, h item List.mem_cons_self, ih fun j hj => h j (List.mem_cons_of_mem _ hj)]
    rfl

theorem dumpFields_eq {fields : List (String × Json)} (h : ∀ p ∈ fields, p.2.dump = .ok p.2.written) :
    dumpFields fields = .ok (writtenFields fields) := by
  induction fields with
  | nil => rfl
  | cons field rest ih =>
    obtain ⟨key, value⟩ := field
    rw [dumpFields, h (key, value) List.mem_cons_self, ih fun p hp => h p (List.mem_cons_of_mem _ hp)]
    rfl

/-- An orderly value has a dump. -/
theorem Orderly.dump_eq_written {j : Json} (h : j.Orderly P) : j.dump = .ok j.written := by
  induction h with
  | null => rfl
  | bool b => rfl
  | num holds => rw [dump, written]
  | str s => rfl
  | arr _ ih =>
    rw [dump, dumpItems_eq ih, written_arr]
    rfl
  | obj _ _ ih =>
    rw [dump, dumpFields_eq ih, written_obj]
    rfl

/-- What is written of a readable value is sound. -/
theorem Orderly.sound_written {j : Json} (h : j.Orderly Number.Readable) :
    j.written.Orderly Number.Sound := by
  induction h with
  | null => exact .null
  | bool b => exact .bool b
  | @num n readable =>
    rw [written]
    split
    · next hfinite => exact .num (readable.sound hfinite)
    · exact .null
  | str s => exact .str s
  | arr _ ih =>
    rw [written_arr, orderly_arr]
    intro j hj
    obtain ⟨item, hitem, rfl⟩ := List.mem_map.mp hj
    exact ih item hitem
  | obj distinct _ ih =>
    rw [written_obj, orderly_obj, Fields.Distinct, keys_writtenFields, writtenFields_eq]
    refine ⟨distinct, ?_⟩
    intro p hp
    obtain ⟨field, hfield, rfl⟩ := List.mem_map.mp hp
    exact ih field hfield

/-- An orderly value without infinite numbers is written as it is. -/
theorem Orderly.written_eq {j : Json} (h : j.Orderly Number.Finite) : j.written = j := by
  induction h with
  | null => rfl
  | bool b => rfl
  | num finite =>
    rw [written]
    exact if_pos finite
  | str s => rfl
  | arr _ ih => rw [written_arr, List.map_congr_left ih, List.map_id']
  | @obj fields _ _ ih =>
    have hfields : fields.map (fun p => (p.1, p.2.written)) = fields.map id := by
      apply List.map_congr_left
      intro p hp
      rw [ih p hp, id]
    rw [written_obj, writtenFields_eq, hfields, List.map_id]

/-- Whether a value is a number that cannot be written. -/
def isLost : Json → Bool
  | .num n => !n.isFinite
  | _ => false

/-- Only a number that is lost counts for something else once it has been written. -/
theorem truthy_written (j : Json) : j.written.truthy = (j.truthy && !j.isLost) := by
  cases j with
  | num n =>
    rw [written, isLost]
    cases hfinite : n.isFinite <;> simp [truthy]
  | arr items => simp [truthy, isLost]
  | obj fields => simp [truthy, isLost, writtenFields_eq]
  | _ => simp [written, isLost]

end Bpmn.Json
