import Bpmn.Model.Entity

namespace Bpmn

namespace MappedContext

variable (m : MappedContext)

/-- Whether a filter is to be applied; a missing or empty one is not. -/
def wanted (filter : Option String) : Option String := filter.filter fun text => !text.isEmpty

/-- The items whose key is wanted, or all. -/
def chosen {α : Type} (key : α → Option String) (filter : Option String) (items : List α) : List α :=
  match wanted filter with
  | none => items
  | some text => items.filter fun item => key item == some text

def process? (id : Option String) : Option Process := m.processes.find? (·.id == id)

/-- The processes that say they are executable. -/
def executableProcesses : List Process :=
  m.processes.filter fun p => (p.behaviour.get "isExecutable" .null).truthy

/-- The activities that stand directly in a scope. -/
def activitiesIn (scope : Option String) : List Activity := chosen (·.parent.id) scope m.activities

def activity? (id : Option String) : Option Activity := m.activities.find? (·.id == id)

/-- The errors that the document declares. -/
def errors : List Activity := m.activities.filter (·.type.isText "bpmn:Error")

/-- An error is looked for among all activities. -/
def error? (id : Option String) : Option Activity := m.activity? id

/-- The sequence flows that stand directly in a scope. -/
def sequenceFlowsIn (scope : Option String) : List SequenceFlow :=
  chosen (·.parent.id) scope m.sequenceFlows

def sequenceFlow? (id : Option String) : Option SequenceFlow := m.sequenceFlows.find? (·.id == id)

def inboundFlows (activity : Option String) : List SequenceFlow :=
  m.sequenceFlows.filter (·.targetId == activity)

def outboundFlows (activity : Option String) : List SequenceFlow :=
  m.sequenceFlows.filter (·.sourceId == activity)

/-- The message flows that start in a process. -/
def messageFlowsFrom (process : Option String) : List MessageFlow :=
  chosen (·.source.processId) process m.messageFlows

def dataObject? (id : Option String) : Option DataObject := m.dataObjects.find? (·.id == id)

/-- The scripts of elements of a type. -/
def scriptsOfType (type : Option String) : List Script := chosen (·.parent.type) type m.scripts

/-- The scripts of an element. -/
def scriptsOf (element : Option String) : List Script := m.scripts.filter (·.parent.id == element)

end MappedContext

end Bpmn
