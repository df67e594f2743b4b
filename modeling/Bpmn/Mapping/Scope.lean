import Bpmn.Mapping.Bundle

namespace Bpmn

/-- The entities of one scope. -/
structure Flattened where
  processes : List Process
  activities : List Activity
  dataObjects : List DataObject
  sequenceFlows : List SequenceFlow
  messageFlows : List MessageFlow
  scripts : List Script

namespace Flattened

def empty : Flattened := ⟨[], [], [], [], [], []⟩

def append (a b : Flattened) : Flattened where
  processes := a.processes ++ b.processes
  activities := a.activities ++ b.activities
  dataObjects := a.dataObjects ++ b.dataObjects
  sequenceFlows := a.sequenceFlows ++ b.sequenceFlows
  messageFlows := a.messageFlows ++ b.messageFlows
  scripts := a.scripts ++ b.scripts

instance : Append Flattened := ⟨append⟩

def join (parts : List Flattened) : Flattened := parts.foldr append empty

/-- What an enclosing scope takes over: processes and message flows stay at their own level. -/
def carried (f : Flattened) : Flattened := { f with processes := [], messageFlows := [] }

/-- What an enclosing collaboration takes over: message flows alone. -/
def messages (f : Flattened) : Flattened := { empty with messageFlows := f.messageFlows }

end Flattened

/-- A script that an extension wants registered for the element it visits. -/
structure ScriptRequest where
  name : Value
  script : Value

/-- Says which scripts to register for an element, given the elements visited before it.  A request may
turn out to be none.  What an extension is handed serves for one element: one that keeps it and registers
scripts through it later, for other elements, is not modelled. -/
abbrev Extension := List Nat → Nat → List (Except Fault ScriptRequest)

/-- What an extension has seen and registered so far. -/
structure Diary where
  visited : List Nat
  registered : List Script

/-- A run that keeps a diary. -/
abbrev Walk := StateT Diary Traced

namespace Kind

def process : String := "bpmn:Process"

def subProcess : String := "bpmn:SubProcess"

def collaboration : String := "bpmn:Collaboration"

def messageFlow : String := "bpmn:MessageFlow"

def sequenceFlow : String := "bpmn:SequenceFlow"

def dataObject : String := "bpmn:DataObject"

def boundaryEvent : String := "bpmn:BoundaryEvent"

def scriptTask : String := "bpmn:ScriptTask"

/-- Kinds that only refer to others and are left out. -/
def skipped : List String := ["bpmn:DataObjectReference", "bpmn:Message"]

/-- Kinds of expressions that may be written in a language. -/
def expressions : List String := ["bpmn:FormalExpression", "bpmn:tFormalExpression"]

end Kind

/-- What a walk over the elements of a document looks things up in. -/
structure Survey where
  graph : Graph
  links : Links
  /-- The top-level elements, among which the process of a message flow's end is found. -/
  roots : Value
  extension : Option Extension

namespace Survey

variable (s : Survey)

/-- An element as a scope and as the owner of scripts. -/
def owner (place : Nat) : Except Fault ScopeRef :=
  (ScopeRef.mk <$> s.graph.idText place <*> s.graph.typeText place).as .scopeRef

/-- A script of an element; its null parts are left out. -/
def script (owner : ScopeRef) (name : Value) (parts : List (String × Value)) :
    Except Fault Script :=
  let written := parts.filter fun (_, v) => !v.isNull
  let name := match name with
    | .str name => Checked.valid name
    | _ => (Checked.wrong .notText).under (.field "name")
  (Script.mk <$> name <*> .valid owner
    <*> .valid (written.map fun (key, v) => (key, s.graph.unfold v))).as .script

/-- The script of an element under the identifier of the element. -/
def ownScript (place : Nat) (parts : List (String × Value)) : Except Fault Script := do
  s.script (← s.owner place) (s.graph.field place "id") parts

/-- The common fields of an entity. -/
def entity (parent : ScopeRef) (place : Nat) (behaviour : Behaviour) : Checked Entity :=
  (Entity.mk .null · · · parent behaviour) <$> s.graph.idText place
    <*> (Json.ofText <$> s.graph.typeText place) <*> s.graph.nameText place

def process (parent : ScopeRef) (place : Nat) : Except Fault Process := do
  let behaviour ← Bundle.ofElement s.graph s.links [] place
  (Process.mk <$> s.entity parent place behaviour).as .process

/-- An element as an activity, with computed fields behind its own. -/
def activity (parent : ScopeRef) (extra : List (String × Json)) (place : Nat) :
    Except Fault Activity := do
  let behaviour ← Bundle.ofElement s.graph s.links extra place
  ((Activity.mk · .null) <$> s.entity parent place behaviour).as .activity

/-- A boundary event, with the activity it is attached to. -/
def boundaryEvent (parent : ScopeRef) (place : Nat) : Except Fault Activity := do
  let attachedTo ← s.graph.spread (s.graph.field place "attachedToRef")
  s.activity parent [("attachedTo", attachedTo)] place

/-- The script of a script task. -/
def taskScript (place : Nat) : Except Fault Script :=
  s.ownScript place
    [("type", s.graph.field place "$type"), ("scriptFormat", s.graph.field place "scriptFormat"),
      ("body", s.graph.field place "script"), ("resource", s.graph.field place "resource")]

/-- The condition of a sequence flow when it is written in a language. -/
def condition (place : Nat) : Except Fault (Option Nat) := do
  match s.graph.field place "conditionExpression" with
  | .node condition =>
    let formal ← (s.graph.field condition "$type").isOneOf Kind.expressions
    return if formal && s.graph.truthy (s.graph.field condition "language") then some condition
      else none
  | _ => return none

/-- The script of a sequence flow, if its condition is one. -/
def flowScripts (place : Nat) : Except Fault (List Script) := do
  match ← s.condition place with
  | none => return []
  | some condition =>
    return [← s.ownScript place
      [("type", s.graph.field condition "$type"),
        ("scriptFormat", s.graph.field condition "language"),
        ("body", s.graph.field condition "body"),
        ("resource", s.graph.field condition "resource")]]

/-- A sequence flow whose ends and default mark come from its edge. -/
def sequenceFlow (parent : ScopeRef) (edge : FlowEdge) (place : Nat) : Except Fault SequenceFlow := do
  let behaviour ← Bundle.ofFlow s.graph place
  ((SequenceFlow.mk · · · edge.mark) <$> s.entity parent place behaviour
    <*> edge.source.text "source_id" <*> edge.target.text "target_id").as .sequenceFlow

/-- Whether an element stands directly in a process. -/
def declares (process : Nat) (id : Value) : Except Fault Bool := do
  let children ← s.graph.itemsOrNone (s.graph.field process "flowElements")
  anyOf children
where
  anyOf : List Value → Except Fault Bool
    | [] => return false
    | child :: rest => do
      if ← s.graph.same (← s.graph.get child "id") id then return true
      anyOf rest

/-- The identifier of the first process in a list that an element stands in directly. -/
def declaringProcess (id : Value) : List Value → Except Fault Value
  | [] => return .null
  | root :: rest => do
    let type ← s.graph.typeOf root
    if type.isText Kind.process then
      let process ← Graph.placeOf root
      if ← s.declares process id then return s.graph.field process "id"
    declaringProcess id rest

/-- The identifier of the top-level process that an element stands in directly. -/
def processIdOf (id : Value) : Except Fault Value := do
  if id.isNull then return .null
  s.declaringProcess id (← s.graph.itemsOrNone s.roots)

def endpoint (id : Value) : Except Fault MessageFlowEndpoint := do
  let process ← s.processIdOf id
  (MessageFlowEndpoint.mk <$> process.text "process_id" <*> id.text "id").as .messageFlowEndpoint

def messageFlow (parent : ScopeRef) (place : Nat) : Except Fault MessageFlow := do
  let edge ← s.links.edge (s.graph.field place "id")
  let source ← s.endpoint edge.source
  let target ← s.endpoint edge.target
  let behaviour ← Bundle.raw s.graph (.node place)
  ((MessageFlow.mk · source target) <$> s.entity parent place behaviour).as .messageFlow

/-- A place that refers to a data object. -/
def dataObjectReference (link : Link) : Except Fault DataObjectReference := do
  let own ← s.graph.ownFieldsAt link.place
  ((DataObjectReference.mk · · own) <$> s.graph.idText link.place
    <*> s.graph.typeText link.place).as .dataObjectReference

def dataObject (parent : ScopeRef) (place : Nat) : Except Fault DataObject := do
  let id := s.graph.field place "id"
  let references ← s.links.dataObjects.filterMapM fun link => do
    if ← s.graph.same link.id id then some <$> s.dataObjectReference link else return none
  let behaviour ← Bundle.raw s.graph (.node place)
  ((DataObject.mk · references) <$> s.entity parent place behaviour).as .dataObject

/-- A requested script. -/
def requested (owner : ScopeRef) (request : ScriptRequest) : Except Fault Script := do
  let place ← Graph.placeOf request.script
  s.script owner request.name (s.graph.fields place)

/-- Lets the extension see an element and registers the scripts it asks for. -/
def visit (place : Nat) : Walk (List Script) := do
  match s.extension with
  | none => return []
  | some extension =>
    let owner ← s.owner place
    let diary ← get
    let scripts ← (extension diary.visited place).mapM fun request =>
      request.bind (s.requested owner)
    set { visited := diary.visited ++ [place], registered := diary.registered ++ scripts : Diary }
    return scripts

/-- The entity of an element that is entered no further. -/
def leaf (parent : ScopeRef) (type : Value) (place : Nat) : Except Fault Flattened := do
  if type.isText Kind.messageFlow then
    return { Flattened.empty with messageFlows := [← s.messageFlow parent place] }
  else if type.isText Kind.dataObject then
    return { Flattened.empty with dataObjects := [← s.dataObject parent place] }
  else if type.isText Kind.sequenceFlow then
    let edge ← s.links.edge (s.graph.field place "id")
    let scripts ← s.flowScripts place
    return { Flattened.empty with sequenceFlows := [← s.sequenceFlow parent edge place], scripts }
  else if type.isText Kind.boundaryEvent then
    return { Flattened.empty with activities := [← s.boundaryEvent parent place] }
  else
    let activity ← s.activity parent [] place
    let scripts ← if type.isText Kind.scriptTask then pure [← s.taskScript place] else pure []
    return { Flattened.empty with activities := [activity], scripts }

/-- The entity of a process or sub-process, and the scope it is. -/
def container (parent : ScopeRef) (type : Value) (place : Nat) :
    Except Fault (Flattened × ScopeRef) := do
  if type.isText Kind.process then
    let p ← s.process parent place
    return ({ Flattened.empty with processes := [p] }, ← s.owner place)
  else
    let a ← s.activity parent [] place
    return ({ Flattened.empty with activities := [a] }, ← s.owner place)

def scopeText (scope : ScopeRef) (nested : Flattened) : String :=
  s!"Flattened scope {shown scope.id}: {nested.activities.length} activities, " ++
    s!"{nested.sequenceFlows.length} sequence flows, {nested.dataObjects.length} data objects"

/-- The entities of one element and all below it.  `depth` bounds the nesting of containers. -/
def element : Nat → ScopeRef → Value → Walk Flattened
  | 0, _, _ => liftM (Except.error .endlessNesting : Except Fault Flattened)
  | depth + 1, parent, v => do
    let place ← (Graph.placeOf v : Except Fault Nat)
    let type := s.graph.field place "$type"
    let elements (parent : ScopeRef) (key : String) : Walk Flattened := do
      let items ← (s.graph.itemsOrNone (s.graph.field place key) : Except Fault (List Value))
      return .join (← items.mapM (element depth parent))
    if ← (type.isOneOf Kind.skipped : Except Fault Bool) then
      return .empty
    else if type.isText Kind.collaboration then
      return (← elements parent "messageFlows").messages
    else if type.isText Kind.process || type.isText Kind.subProcess then
      let (own, scope) ← s.container parent type place
      let scripts ← s.visit place
      let nested ← elements scope "flowElements"
      Traced.debug (scopeText scope nested)
      return own ++ { Flattened.empty with scripts } ++ nested.carried
    else
      let own ← s.leaf parent type place
      let scripts ← s.visit place
      return own ++ { Flattened.empty with scripts }

/-- The entities below a scope. -/
def flatten (parent : ScopeRef) (elements : Value) : Walk Flattened := do
  let items ← (s.graph.itemsOrNone elements : Except Fault (List Value))
  return .join (← items.mapM (s.element s.graph.depthBound parent))

end Survey

end Bpmn
