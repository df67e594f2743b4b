import Bpmn.Model.Dump
import Bpmn.Proofs.Model.Bundles

namespace Bpmn

mutual

/-- Clearing a bundle comes to what a resolution comes to that binds every definition to null. -/
theorem Behaviour.unbound_eq : (b : Behaviour) → b.unbound = b.relabel fun _ => .null
  | .mk events loop io attachments extras => by
    rw [Behaviour.unbound, unboundOptionalList_eq events, unboundOptional_eq loop, unboundOptional_eq io,
      Behaviour.relabel_eq]
    rfl

theorem BehaviourDefinition.unbound_eq :
    (d : BehaviourDefinition) → d.unbound = d.relabel fun _ => .null
  | .mk binding type behaviour => by
    rw [BehaviourDefinition.unbound, Behaviour.unbound_eq behaviour, BehaviourDefinition.relabel_eq]
    rfl

theorem unboundOptional_eq : (o : Option BehaviourDefinition) →
    unboundOptional o = o.map (BehaviourDefinition.relabel fun _ => .null)
  | none => rfl
  | some d => by rw [unboundOptional, BehaviourDefinition.unbound_eq d, Option.map_some]

theorem unboundOptionalList_eq : (o : Option (List BehaviourDefinition)) →
    unboundOptionalList o = o.map (·.map (BehaviourDefinition.relabel fun _ => .null))
  | none => rfl
  | some ds => by rw [unboundOptionalList, unboundEach_eq ds, Option.map_some]

theorem unboundEach_eq : (ds : List BehaviourDefinition) →
    unboundEach ds = ds.map (BehaviourDefinition.relabel fun _ => .null)
  | [] => rfl
  | d :: rest => by
    rw [unboundEach, BehaviourDefinition.unbound_eq d, unboundEach_eq rest, List.map_cons]

end

namespace Behaviour

@[simp] theorem unbound_unbound (b : Behaviour) : b.unbound.unbound = b.unbound := by
  simp only [unbound_eq]
  exact relabel_relabel (fun _ => .null) (fun _ => .null) (fun _ => rfl) b

theorem binding_of_unbound {b : Behaviour} {d : BehaviourDefinition}
    (h : d ∈ b.unbound.definitions) : d.binding = .null := by
  rw [unbound_eq, relabel_definitions] at h
  obtain ⟨d, -, rfl⟩ := List.mem_map.mp h
  rw [BehaviourDefinition.relabel_binding]

end Behaviour

namespace Entity

@[simp] theorem unbound_unbound (e : Entity) : e.unbound.unbound = e.unbound := by
  rw [unbound, unbound, Behaviour.unbound_unbound]

@[simp] theorem toFields_unbound (e : Entity) : e.unbound.toFields = e.toFields := by
  simp only [toFields, unbound, Behaviour.unbound_eq, Behaviour.toJson_relabel]

end Entity

def Process.unbound (p : Process) : Process := ⟨p.toEntity.unbound⟩

def Activity.unbound (a : Activity) : Activity := ⟨a.toEntity.unbound, .null⟩

def DataObject.unbound (d : DataObject) : DataObject := { d with toEntity := d.toEntity.unbound }

def MessageFlow.unbound (f : MessageFlow) : MessageFlow := { f with toEntity := f.toEntity.unbound }

def SequenceFlow.unbound (f : SequenceFlow) : SequenceFlow :=
  { f with toEntity := f.toEntity.unbound }

namespace MappedContext

variable (m : MappedContext)

theorem unbound_eq : m.unbound =
    { m with
      definition := { m.definition with binding := .null }
      activities := m.activities.map Activity.unbound
      dataObjects := m.dataObjects.map DataObject.unbound
      messageFlows := m.messageFlows.map MessageFlow.unbound
      processes := m.processes.map Process.unbound
      sequenceFlows := m.sequenceFlows.map SequenceFlow.unbound } := rfl

@[simp] theorem unbound_unbound : m.unbound.unbound = m.unbound := by
  simp [unbound_eq, Function.comp_def, Process.unbound, Activity.unbound, DataObject.unbound,
    MessageFlow.unbound, SequenceFlow.unbound]

/-- The entities of a context apart from its definition, in the order in which they are resolved. -/
def entities : List Entity :=
  m.processes.map (·.toEntity) ++ m.activities.map (·.toEntity) ++
    m.dataObjects.map (·.toEntity) ++ m.messageFlows.map (·.toEntity) ++
    m.sequenceFlows.map (·.toEntity)

/-- The bundles of all entities, at every depth. -/
def bundles : List Behaviour := m.entities.flatMap fun e => e.behaviour.bundles

theorem entities_unbound : m.unbound.entities = m.entities.map Entity.unbound := by
  simp [entities, unbound_eq, Function.comp_def, Process.unbound, Activity.unbound,
    DataObject.unbound, MessageFlow.unbound, SequenceFlow.unbound]

/-- Nothing is bound: neither the definition, nor an entity, nor a definition nested in one at any
depth, nor the service of an activity. -/
structure IsUnbound : Prop where
  definition : m.definition.binding = .null
  entities : ∀ e ∈ m.entities, e.binding = .null
  nested : ∀ e ∈ m.entities, ∀ d ∈ e.behaviour.definitions, d.binding = .null
  services : ∀ a ∈ m.activities, a.serviceBinding = .null

theorem isUnbound_unbound : m.unbound.IsUnbound where
  definition := rfl
  entities := by
    intro e he
    rw [entities_unbound] at he
    obtain ⟨e, -, rfl⟩ := List.mem_map.mp he
    rfl
  nested := by
    intro e he d hd
    rw [entities_unbound] at he
    obtain ⟨e, -, rfl⟩ := List.mem_map.mp he
    exact Behaviour.binding_of_unbound hd
  services := by
    intro a ha
    obtain ⟨a, -, rfl⟩ := List.mem_map.mp ha
    rfl

/-- Bindings are part of no dump. -/
@[simp] theorem toJson_unbound : m.unbound.toJson = m.toJson := by
  have dataObject (d : DataObject) : d.unbound.toJson = d.toJson := by
    simp [DataObject.toJson, DataObject.unbound]
  have messageFlow (f : MessageFlow) : f.unbound.toJson = f.toJson := by
    simp [MessageFlow.toJson, MessageFlow.unbound]
  have sequenceFlow (f : SequenceFlow) : f.unbound.toJson = f.toJson := by
    simp [SequenceFlow.toJson, SequenceFlow.unbound]
  simp [toJson, unbound_eq, Definition.toJson, Entity.toJson, Function.comp_def, dataObject,
    messageFlow, sequenceFlow, Process.unbound, Activity.unbound]

theorem snapshot_unbound (release : Release) : m.unbound.snapshot release = m.snapshot release := by
  rw [snapshot, toJson_unbound, snapshot]

/-- Contexts that agree apart from their bindings have one dump. -/
theorem toJson_eq_of_unbound {m n : MappedContext} (h : m.unbound = n.unbound) :
    m.toJson = n.toJson := by
  rw [← toJson_unbound, h, toJson_unbound]

end MappedContext

end Bpmn
