import Bpmn.Proofs.Model.Checks
import Bpmn.Proofs.Model.Unbound

namespace Bpmn

namespace Json

/-- The items of the list under a key, if there is one. -/
def itemsUnder (j : Json) (key : String) : List Json :=
  match j with
  | .obj fields =>
    match Fields.get? fields key with
    | some (.arr items) => items
    | _ => []
  | _ => []

/-- A field of an object; null when absent. -/
def fieldOrNull (j : Json) (key : String) : Json :=
  match j with
  | .obj fields => Check.anything fields key
  | _ => .null

end Json

namespace Check

variable {α β : Type} {fields : List (String × Json)} {key : String} {j : Json}
  {check : Json → Checked α} {as : List α} {mode : Mode}

theorem itemsUnder_of_defaulted (h : defaulted fields key [] (list check) = .valid as) :
    ((Json.obj fields).itemsUnder key).map check = as.map .valid := by
  rw [Json.itemsUnder]
  rcases defaulted_eq_valid.mp h with ⟨hnone, rfl⟩ | ⟨j, hj, hlist⟩
  · rw [hnone]
    rfl
  · obtain ⟨items, rfl, hitems⟩ := list_eq_valid.mp hlist
    rw [hj]
    exact hitems

theorem exists_itemsUnder (h : defaulted fields key [] (list check) = .valid as) :
    ∀ a ∈ as, ∃ item ∈ (Json.obj fields).itemsUnder key, check item = .valid a := by
  intro a ha
  have hmem : Checked.valid a ∈ ((Json.obj fields).itemsUnder key).map check := by
    rw [itemsUnder_of_defaulted h]
    exact List.mem_map_of_mem ha
  exact List.mem_map.mp hmem

/-- What is read of each item shows what the item shows. -/
theorem map_of_checked {f : Json → β} {g : α → β} (hshow : ∀ j a, check j = .valid a → g a = f j)
    {items : List Json} (h : items.map check = as.map .valid) : as.map g = items.map f := by
  induction items generalizing as with
  | nil =>
    cases as with
    | nil => rfl
    | cons a as => cases h
  | cons item items ih =>
    cases as with
    | nil => cases h
    | cons a as =>
      obtain ⟨hitem, hrest⟩ := List.cons_eq_cons.mp h
      rw [List.map_cons, List.map_cons, hshow item a hitem, ih hrest]

theorem parts_of_entityFields {e : Entity} (h : entityFields mode fields = .valid e) :
    (∃ text, e.type = .ofText text) ∧
      defaulted fields "behaviour" .empty (behaviour mode) = .valid e.behaviour := by
  obtain ⟨_, inner, h₁, hinner, rfl⟩ := Checked.seq_eq_valid.mp h
  obtain ⟨_, _, h₂, -, rfl⟩ := Checked.seq_eq_valid.mp h₁
  obtain ⟨_, _, h₃, -, rfl⟩ := Checked.seq_eq_valid.mp h₂
  obtain ⟨_, type, h₄, htype, rfl⟩ := Checked.seq_eq_valid.mp h₃
  obtain ⟨_, -, rfl⟩ := Checked.map_eq_valid.mp h₄
  obtain ⟨text, -, rfl⟩ := Checked.map_eq_valid.mp htype
  exact ⟨⟨text, rfl⟩, hinner⟩

theorem entity_of_process {p : Process} (h : process mode j = .valid p) :
    ∃ fields, j = .obj fields ∧ entityFields mode fields = .valid p.toEntity := by
  obtain ⟨fields, rfl, h⟩ := model_eq_valid.mp h
  obtain ⟨e, he, rfl⟩ := Checked.map_eq_valid.mp h
  exact ⟨fields, rfl, he⟩

theorem entity_of_activity {a : Activity} (h : activity mode j = .valid a) :
    ∃ fields, j = .obj fields ∧ entityFields mode fields = .valid a.toEntity := by
  obtain ⟨fields, rfl, h⟩ := model_eq_valid.mp h
  obtain ⟨e, he, rfl⟩ := Checked.map_eq_valid.mp h
  exact ⟨fields, rfl, he⟩

theorem serviceBinding_of_activity {a : Activity} (h : activity mode j = .valid a) :
    a.serviceBinding = j.fieldOrNull "service_binding" := by
  obtain ⟨fields, rfl, h⟩ := model_eq_valid.mp h
  obtain ⟨e, -, rfl⟩ := Checked.map_eq_valid.mp h
  rfl

theorem entity_of_sequenceFlow {f : SequenceFlow} (h : sequenceFlow mode j = .valid f) :
    ∃ fields, j = .obj fields ∧ entityFields mode fields = .valid f.toEntity := by
  obtain ⟨fields, rfl, h⟩ := model_eq_valid.mp h
  obtain ⟨_, mark, h₁, -, rfl⟩ := Checked.seq_eq_valid.mp h
  obtain ⟨_, target, h₂, -, rfl⟩ := Checked.seq_eq_valid.mp h₁
  obtain ⟨_, source, h₃, -, rfl⟩ := Checked.seq_eq_valid.mp h₂
  obtain ⟨e, he, rfl⟩ := Checked.map_eq_valid.mp h₃
  exact ⟨fields, rfl, he⟩

theorem entity_of_messageFlow {f : MessageFlow} (h : messageFlow mode j = .valid f) :
    ∃ fields, j = .obj fields ∧ entityFields mode fields = .valid f.toEntity := by
  obtain ⟨fields, rfl, h⟩ := model_eq_valid.mp h
  obtain ⟨_, target, h₁, -, rfl⟩ := Checked.seq_eq_valid.mp h
  obtain ⟨_, source, h₂, -, rfl⟩ := Checked.seq_eq_valid.mp h₁
  obtain ⟨e, he, rfl⟩ := Checked.map_eq_valid.mp h₂
  exact ⟨fields, rfl, he⟩

theorem entity_of_dataObject {d : DataObject} (h : dataObject mode j = .valid d) :
    ∃ fields, j = .obj fields ∧ entityFields mode fields = .valid d.toEntity ∧
      defaulted fields "references" [] (list dataObjectReference) = .valid d.references := by
  obtain ⟨fields, rfl, h⟩ := model_eq_valid.mp h
  obtain ⟨_, references, h₁, hreferences, rfl⟩ := Checked.seq_eq_valid.mp h
  obtain ⟨e, he, rfl⟩ := Checked.map_eq_valid.mp h₁
  exact ⟨fields, rfl, he, hreferences⟩

/-- The lists of a context are read of the fields of an object. -/
structure Reads (mode : Mode) (fields : List (String × Json)) (m : MappedContext) : Prop where
  activities : defaulted fields "activities" [] (list (activity mode)) = .valid m.activities
  dataObjects : defaulted fields "data_objects" [] (list (dataObject mode)) = .valid m.dataObjects
  messageFlows : defaulted fields "message_flows" [] (list (messageFlow mode)) = .valid m.messageFlows
  processes : defaulted fields "processes" [] (list (process mode)) = .valid m.processes
  sequenceFlows : defaulted fields "sequence_flows" [] (list (sequenceFlow mode)) = .valid m.sequenceFlows
  scripts : defaulted fields "scripts" [] (list script) = .valid m.scripts

theorem reads_of_mappedContext {m : MappedContext} (h : mappedContext mode j = .valid m) :
    ∃ fields, j = .obj fields ∧ Reads mode fields m := by
  obtain ⟨fields, rfl, h⟩ := model_eq_valid.mp h
  obtain ⟨_, scripts, h₁, hscripts, rfl⟩ := Checked.seq_eq_valid.mp h
  obtain ⟨_, sequences, h₂, hsequences, rfl⟩ := Checked.seq_eq_valid.mp h₁
  obtain ⟨_, processes, h₃, hprocesses, rfl⟩ := Checked.seq_eq_valid.mp h₂
  obtain ⟨_, messages, h₄, hmessages, rfl⟩ := Checked.seq_eq_valid.mp h₃
  obtain ⟨_, objects, h₅, hobjects, rfl⟩ := Checked.seq_eq_valid.mp h₄
  obtain ⟨_, activities, h₆, hactivities, rfl⟩ := Checked.seq_eq_valid.mp h₅
  obtain ⟨_, definition, h₇, -, rfl⟩ := Checked.seq_eq_valid.mp h₆
  obtain ⟨_, name, h₈, -, rfl⟩ := Checked.seq_eq_valid.mp h₇
  obtain ⟨_, type, h₉, -, rfl⟩ := Checked.seq_eq_valid.mp h₈
  obtain ⟨id, -, rfl⟩ := Checked.map_eq_valid.mp h₉
  exact ⟨fields, rfl, hactivities, hobjects, hmessages, hprocesses, hsequences, hscripts⟩

theorem Reads.entities {m : MappedContext} (h : Reads mode fields m) :
    ∀ e ∈ m.entities, ∃ key inner,
      .obj inner ∈ (Json.obj fields).itemsUnder key ∧ entityFields mode inner = .valid e := by
  have listed {key : String} {item : Json} {e : Entity}
      (hitem : item ∈ (Json.obj fields).itemsUnder key)
      (he : ∃ inner, item = .obj inner ∧ entityFields mode inner = .valid e) :
      ∃ key inner, .obj inner ∈ (Json.obj fields).itemsUnder key ∧ entityFields mode inner = .valid e := by
    obtain ⟨inner, rfl, he⟩ := he
    exact ⟨key, inner, hitem, he⟩
  intro e he
  simp only [MappedContext.entities, List.mem_append, List.mem_map] at he
  rcases he with (((⟨p, hp, rfl⟩ | ⟨a, ha, rfl⟩) | ⟨d, hd, rfl⟩) | ⟨f, hf, rfl⟩) | ⟨f, hf, rfl⟩
  · obtain ⟨item, hitem, hcheck⟩ := exists_itemsUnder h.processes p hp
    exact listed hitem (entity_of_process hcheck)
  · obtain ⟨item, hitem, hcheck⟩ := exists_itemsUnder h.activities a ha
    exact listed hitem (entity_of_activity hcheck)
  · obtain ⟨item, hitem, hcheck⟩ := exists_itemsUnder h.dataObjects d hd
    obtain ⟨inner, rfl, he, -⟩ := entity_of_dataObject hcheck
    exact ⟨_, inner, hitem, he⟩
  · obtain ⟨item, hitem, hcheck⟩ := exists_itemsUnder h.messageFlows f hf
    exact listed hitem (entity_of_messageFlow hcheck)
  · obtain ⟨item, hitem, hcheck⟩ := exists_itemsUnder h.sequenceFlows f hf
    exact listed hitem (entity_of_sequenceFlow hcheck)

theorem services_of_mappedContext {m : MappedContext} (h : mappedContext mode j = .valid m) :
    m.activities.map (·.serviceBinding) =
      (j.itemsUnder "activities").map (·.fieldOrNull "service_binding") := by
  obtain ⟨fields, rfl, hreads⟩ := reads_of_mappedContext h
  exact map_of_checked (fun _ _ => serviceBinding_of_activity) (itemsUnder_of_defaulted hreads.activities)

end Check

end Bpmn
