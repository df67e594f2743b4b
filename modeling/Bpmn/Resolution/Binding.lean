import Bpmn.Model.Entity
import Bpmn.Resolution.Resolver

namespace Bpmn

/-- A pass over entities that remembers its first fault. -/
abbrev Pass := StateM (Option Fault)

namespace Pass

/-- Takes a step unless the pass has met a fault. -/
def unlessFailed {α : Type} (unchanged : α) (step : Pass α) : Pass α := do
  if (← get).isSome then return unchanged else step

end Pass

/-- The types of activities that may be implemented by a service. -/
def serviceTypes : List String := ["bpmn:SendTask", "bpmn:ServiceTask"]

/-- Whether an element calls for a service. -/
def callsService (type : Json) (behaviour : Behaviour) : Bool :=
  serviceTypes.any type.isText && behaviour.hasImplementation

namespace Resolver

variable (r : Resolver)

/-- The binding of a type in place of a former one. -/
def bindType (type former : Json) : Pass Json :=
  Pass.unlessFailed former do
    match r.lookup type with
    | .ok behaviour => return behaviour
    | .error fault =>
      set (some fault)
      return former

/-- Fails when an object of a model that has no service calls for one. -/
def refuseService (model : Model) (type : Json) (behaviour : Behaviour) : Pass Unit :=
  Pass.unlessFailed () do
    if callsService type behaviour then set (some (Fault.noField model "service_binding"))

/-- The binding of a nested definition. -/
def bindNested (d : BehaviourDefinition) : Pass Json := do
  let type := Json.ofText d.type
  let binding ← r.bindType type d.binding
  refuseService .behaviourDefinition type d.behaviour
  return binding

def bindBehaviour (behaviour : Behaviour) : Pass Behaviour := behaviour.mapBindings r.bindNested

def bindDefinition (d : Definition) : Pass Definition := do
  return { d with binding := ← r.bindType (.ofText d.type) d.binding }

/-- Binds an entity of a model without a service. -/
def bindEntity (model : Model) (e : Entity) : Pass Entity := do
  let binding ← r.bindType e.type e.binding
  refuseService model e.type e.behaviour
  return { e with binding, behaviour := ← r.bindBehaviour e.behaviour }

def bindProcess (p : Process) : Pass Process := do
  return { p with toEntity := ← r.bindEntity .process p.toEntity }

/-- Binds an activity, and its service when it calls for one. -/
def bindActivity (a : Activity) : Pass Activity := do
  let binding ← r.bindType a.type a.binding
  let serviceBinding ← Pass.unlessFailed a.serviceBinding do
    return if callsService a.type a.behaviour then r.service else a.serviceBinding
  return { a with binding, serviceBinding, behaviour := ← r.bindBehaviour a.behaviour }

def bindDataObject (d : DataObject) : Pass DataObject := do
  return { d with toEntity := ← r.bindEntity .dataObject d.toEntity }

def bindMessageFlow (f : MessageFlow) : Pass MessageFlow := do
  return { f with toEntity := ← r.bindEntity .messageFlow f.toEntity }

def bindSequenceFlow (f : SequenceFlow) : Pass SequenceFlow := do
  return { f with toEntity := ← r.bindEntity .sequenceFlow f.toEntity }

/-- Binds everything in a context. -/
def bindContext (m : MappedContext) : Pass MappedContext := do
  let definition ← r.bindDefinition m.definition
  let processes ← m.processes.mapM r.bindProcess
  let activities ← m.activities.mapM r.bindActivity
  let dataObjects ← m.dataObjects.mapM r.bindDataObject
  let messageFlows ← m.messageFlows.mapM r.bindMessageFlow
  let sequenceFlows ← m.sequenceFlows.mapM r.bindSequenceFlow
  return { m with definition, processes, activities, dataObjects, messageFlows, sequenceFlows }

end Resolver

mutual

/-- A bundle with nothing bound in it: no event definition, no loop and no I/O specification. -/
def Behaviour.unbound : Behaviour → Behaviour
  | .mk events loop io attachments extras =>
    .mk (unboundOptionalList events) (unboundOptional loop) (unboundOptional io) attachments extras

/-- A definition that is not bound, and nothing below it. -/
def BehaviourDefinition.unbound : BehaviourDefinition → BehaviourDefinition
  | .mk _ type behaviour => .mk .null type behaviour.unbound

def unboundOptional : Option BehaviourDefinition → Option BehaviourDefinition
  | none => none
  | some definition => some definition.unbound

def unboundOptionalList : Option (List BehaviourDefinition) → Option (List BehaviourDefinition)
  | none => none
  | some definitions => some (unboundEach definitions)

def unboundEach : List BehaviourDefinition → List BehaviourDefinition
  | [] => []
  | definition :: rest => definition.unbound :: unboundEach rest

end

def Entity.unbound (e : Entity) : Entity :=
  { e with binding := .null, behaviour := e.behaviour.unbound }

/-- A context with nothing bound in it. -/
def MappedContext.unbound (m : MappedContext) : MappedContext where
  id := m.id
  type := m.type
  name := m.name
  definition := { m.definition with binding := .null }
  activities := m.activities.map fun a =>
    { a with toEntity := a.toEntity.unbound, serviceBinding := .null }
  dataObjects := m.dataObjects.map fun d => { d with toEntity := d.toEntity.unbound }
  messageFlows := m.messageFlows.map fun f => { f with toEntity := f.toEntity.unbound }
  processes := m.processes.map fun p => { p with toEntity := p.toEntity.unbound }
  sequenceFlows := m.sequenceFlows.map fun f => { f with toEntity := f.toEntity.unbound }
  scripts := m.scripts

end Bpmn
