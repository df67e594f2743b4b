import Bpmn.Model.Check
import Bpmn.Proofs.Checked

namespace Bpmn.Check

variable {α : Type} {fields : List (String × Json)} {key : String} {j : Json} {a : α}
  {check : Json → Checked α}

theorem model_eq_valid {m : Model} {check : List (String × Json) → Checked α} :
    model m check j = .valid a ↔ ∃ fields, j = .obj fields ∧ check fields = .valid a := by
  cases j <;> simp [model, Checked.wrong_ne_valid]

theorem list_eq_valid {as : List α} :
    list check j = .valid as ↔ ∃ items, j = .arr items ∧ items.map check = as.map .valid := by
  cases j <;> simp [list, Checked.wrong_ne_valid, Checked.items_eq_valid]

theorem object_eq_valid {inner : List (String × Json)} :
    object j = .valid inner ↔ j = .obj inner := by
  cases j <;> simp [object, Checked.wrong_ne_valid]

theorem text_eq_valid {s : String} : text j = .valid s ↔ j = .str s := by
  cases j <;> simp [text, Checked.wrong_ne_valid]

theorem optional_eq_valid {o : Option α} :
    optional check j = .valid o ↔
      (j = .null ∧ o = none) ∨ (j ≠ .null ∧ ∃ a, check j = .valid a ∧ o = some a) := by
  cases j with
  | null => simp [optional, eq_comm]
  | _ => simp [optional, Checked.map_eq_valid, eq_comm (a := o)]

theorem required_eq_valid :
    required fields key check = .valid a ↔ ∃ j, Fields.get? fields key = some j ∧ check j = .valid a := by
  rw [required, Checked.under_eq_valid]
  cases Fields.get? fields key <;> simp [Checked.wrong_ne_valid]

theorem defaulted_eq_valid {default : α} :
    defaulted fields key default check = .valid a ↔
      (Fields.get? fields key = none ∧ a = default) ∨
        ∃ j, Fields.get? fields key = some j ∧ check j = .valid a := by
  rw [defaulted, Checked.under_eq_valid]
  cases Fields.get? fields key <;> simp [eq_comm]

/-- A part that may be absent is the check of some field, when it is there. -/
theorem maybe_eq_some (h : maybe fields key check = .valid (some a)) :
    ∃ j, Fields.get? fields key = some j ∧ check j = .valid a := by
  rw [maybe, defaulted_eq_valid] at h
  rcases h with ⟨-, h⟩ | ⟨j, hj, h⟩
  · cases h
  · rcases optional_eq_valid.mp h with ⟨-, h⟩ | ⟨-, b, hb, h⟩
    · cases h
    · cases h
      exact ⟨j, hj, hb⟩

theorem smaller?_none (h : Fields.get? fields key = none) : smaller? fields key = none := by
  unfold smaller?
  split
  · rfl
  · next j hj =>
    rw [h] at hj
    cases hj

theorem sizeOf_get? (h : Fields.get? fields key = some j) : sizeOf j < sizeOf fields := by
  have hmem := List.sizeOf_lt_of_mem (Fields.mem_of_get? h)
  simp only [Prod.mk.sizeOf_spec] at hmem
  omega

theorem smaller?_some (h : Fields.get? fields key = some j) :
    ∃ hsize, smaller? fields key = some ⟨j, hsize⟩ := by
  unfold smaller?
  split
  · next hj =>
    rw [h] at hj
    cases hj
  · next j' hj =>
    obtain rfl : j = j' := Option.some.inj (h.symm.trans hj)
    exact ⟨sizeOf_get? h, rfl⟩

variable (mode : Mode)

theorem behaviourDefinition_eq (j : Json) :
    behaviourDefinition mode j = model .behaviourDefinition (fun fields =>
      BehaviourDefinition.mk (anything fields "binding") <$> maybeText fields "type"
        <*> defaulted fields "behaviour" .empty (behaviour mode)) j := by
  cases j with
  | obj fields =>
    rw [behaviourDefinition, model]
    congr 1
    rw [defaulted]
    cases hget : Fields.get? fields "behaviour" with
    | none =>
      rw [smaller?_none hget]
      rfl
    | some inner =>
      obtain ⟨hsize, hsmaller⟩ := smaller?_some hget
      rw [hsmaller]
      cases inner <;> rfl
  | _ => simp [behaviourDefinition, model]

/-- A definition that may be absent or null, found under a key. -/
def definitionOf (key : String) : Option {j : Json // sizeOf j < sizeOf fields} →
    Checked (Option BehaviourDefinition)
  | none => .valid none
  | some ⟨.null, _⟩ => .valid none
  | some ⟨j, _⟩ => (some <$> behaviourDefinition mode j).under (.field key)

theorem definitionOf_smaller? (m : Member) :
    definitionOf mode (m.keyIn fields) (smaller? fields (m.keyIn fields)) =
      member fields m (behaviourDefinition mode) := by
  rw [member, maybe, defaulted]
  cases hget : Fields.get? fields (m.keyIn fields) with
  | none =>
    rw [smaller?_none hget]
    rfl
  | some j =>
    obtain ⟨hsize, hsmaller⟩ := smaller?_some hget
    rw [hsmaller]
    cases j <;> rfl

theorem behaviourFields_eq (fields : List (String × Json)) :
    behaviourFields mode fields = Behaviour.mk
      <$> member fields .eventDefinitions (list (behaviourDefinition mode))
      <*> member fields .loopCharacteristics (behaviourDefinition mode)
      <*> member fields .ioSpecification (behaviourDefinition mode)
      <*> (Attachments.mk
        <$> member fields .resources (list resource)
        <*> member fields .attachedTo elementRef
        <*> member fields .dataInputs (list dataParameter)
        <*> member fields .dataOutputs (list dataParameter))
      <*> .valid (extras mode fields) := by
  rw [behaviourFields]
  congr 4
  · congr 1
    rw [member, maybe, defaulted]
    cases hget : Fields.get? fields (Member.eventDefinitions.keyIn fields) with
    | none =>
      rw [smaller?_none hget]
      rfl
    | some j =>
      obtain ⟨hsize, hsmaller⟩ := smaller?_some hget
      rw [hsmaller]
      cases j with
      | arr items => simp [optional, list]
      | _ => rfl
  · exact funext fun _ => definitionOf_smaller? mode .loopCharacteristics
  · exact funext fun _ => definitionOf_smaller? mode .ioSpecification

end Bpmn.Check
