import Bpmn.Model.Behaviour

namespace Bpmn

/-- The root of a document. -/
structure Definition where
  binding : Json
  id : Option String
  type : Option String
  name : Option String
  targetNamespace : Option String
  exporter : Option String
  exporterVersion : Option String

/-- A flattened element and its immediate scope.  Its type is a text or null unless it is given another
by hand. -/
structure Entity where
  binding : Json
  id : Option String
  type : Json
  name : Option String
  parent : ScopeRef
  behaviour : Behaviour

/-- A top-level process. -/
structure Process extends Entity

/-- A task, event, gateway, sub-process or other element that is no flow. -/
structure Activity extends Entity where
  serviceBinding : Json

structure SequenceFlow extends Entity where
  sourceId : Option String
  targetId : Option String
  isDefault : Option Bool

/-- The element a message flow starts or ends at, and the top-level process that holds it. -/
structure MessageFlowEndpoint where
  processId : Option String
  id : Option String
  deriving DecidableEq

structure MessageFlow extends Entity where
  source : MessageFlowEndpoint
  target : MessageFlowEndpoint

/-- A reference to a data object somewhere in the tree. -/
structure DataObjectReference where
  id : Option String
  type : Option String
  behaviour : List (String × Json)

structure DataObject extends Entity where
  references : List DataObjectReference

/-- A script found on an element, or registered for it. -/
structure Script where
  name : String
  parent : ScopeRef
  script : List (String × Json)

/-- The flattened form of one document. -/
structure MappedContext where
  id : Option String
  type : Option String
  name : Option String
  definition : Definition
  activities : List Activity
  dataObjects : List DataObject
  messageFlows : List MessageFlow
  processes : List Process
  sequenceFlows : List SequenceFlow
  scripts : List Script

def Definition.toJson (d : Definition) : Json :=
  .obj [("id", .ofText d.id), ("type", .ofText d.type), ("name", .ofText d.name),
    ("target_namespace", .ofText d.targetNamespace), ("exporter", .ofText d.exporter),
    ("exporter_version", .ofText d.exporterVersion)]

namespace Entity

def toFields (e : Entity) : List (String × Json) :=
  [("id", .ofText e.id), ("type", e.type), ("name", .ofText e.name),
    ("parent", e.parent.toJson), ("behaviour", e.behaviour.toJson)]

def toJson (e : Entity) : Json := .obj e.toFields

end Entity

def SequenceFlow.toJson (f : SequenceFlow) : Json :=
  .obj (f.toFields ++ [("source_id", .ofText f.sourceId), ("target_id", .ofText f.targetId),
    ("is_default", .ofOption .bool f.isDefault)])

def MessageFlowEndpoint.toJson (e : MessageFlowEndpoint) : Json :=
  .obj [("process_id", .ofText e.processId), ("id", .ofText e.id)]

def MessageFlow.toJson (f : MessageFlow) : Json :=
  .obj (f.toFields ++ [("source", f.source.toJson), ("target", f.target.toJson)])

def DataObjectReference.toJson (r : DataObjectReference) : Json :=
  .obj [("id", .ofText r.id), ("type", .ofText r.type), ("behaviour", .obj r.behaviour)]

def DataObject.toJson (d : DataObject) : Json :=
  .obj (d.toFields ++ [("references", .arr (d.references.map DataObjectReference.toJson))])

def Script.toJson (s : Script) : Json :=
  .obj [("name", .str s.name), ("parent", s.parent.toJson), ("script", .obj s.script)]

def MappedContext.toJson (m : MappedContext) : Json :=
  .obj [("id", .ofText m.id), ("type", .ofText m.type), ("name", .ofText m.name),
    ("definition", m.definition.toJson),
    ("activities", .arr (m.activities.map (·.toJson))),
    ("data_objects", .arr (m.dataObjects.map DataObject.toJson)),
    ("message_flows", .arr (m.messageFlows.map MessageFlow.toJson)),
    ("processes", .arr (m.processes.map (·.toJson))),
    ("sequence_flows", .arr (m.sequenceFlows.map SequenceFlow.toJson)),
    ("scripts", .arr (m.scripts.map Script.toJson))]

end Bpmn
