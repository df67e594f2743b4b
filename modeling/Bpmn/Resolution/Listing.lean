import Bpmn.Model.Entity
import Bpmn.Text.Shown

namespace Bpmn

/-- What stands at the end of a way.  Only activities have a service. -/
structure Listed where
  way : String
  type : Json
  binding : Json
  service : Option Json

namespace Listed

def toJson (l : Listed) : Json := .arr ([.str l.way, l.type, l.binding] ++ l.service.toList)

mutual

/-- The definitions nested in a bundle. -/
def ofBehaviour (way : String) : Behaviour → List Listed
  | .mk events loop io _ _ =>
    ofOptional (way ++ "/loop") loop ++ ofEvents way events ++ ofOptional (way ++ "/io") io

/-- A definition and those below it. -/
def ofDefinition (way : String) : BehaviourDefinition → List Listed
  | .mk binding type behaviour => ⟨way, .ofText type, binding, none⟩ :: ofBehaviour way behaviour

def ofOptional (way : String) : Option BehaviourDefinition → List Listed
  | none => []
  | some d => ofDefinition way d

def ofEvents (way : String) : Option (List BehaviourDefinition) → List Listed
  | none => []
  | some events => ofEach way 0 events

/-- Event definitions, of which the first has an index. -/
def ofEach (way : String) (index : Nat) : List BehaviourDefinition → List Listed
  | [] => []
  | d :: rest => ofDefinition s!"{way}/event{index}" d ++ ofEach way (index + 1) rest

end

/-- The root of a document. -/
def ofRoot (way : String) (d : Definition) : List Listed := [⟨way, .ofText d.type, d.binding, none⟩]

def ofEntity (way : String) (e : Entity) : List Listed :=
  ⟨way, e.type, e.binding, none⟩ :: ofBehaviour way e.behaviour

def ofActivity (way : String) (a : Activity) : List Listed :=
  ⟨way, a.type, a.binding, some a.serviceBinding⟩ :: ofBehaviour way a.behaviour

/-- The way to an entity in a context. -/
def label (kind : String) (id : Option String) : String := kind ++ ":" ++ shown id

/-- Everything that can be bound in a context. -/
def ofContext (m : MappedContext) : List Listed :=
  ofRoot (label "Definition" m.definition.id) m.definition ++
  m.processes.flatMap (fun p => ofEntity (label "Process" p.id) p.toEntity) ++
  m.activities.flatMap (fun a => ofActivity (label "Activity" a.id) a) ++
  m.dataObjects.flatMap (fun d => ofEntity (label "DataObject" d.id) d.toEntity) ++
  m.messageFlows.flatMap (fun f => ofEntity (label "MessageFlow" f.id) f.toEntity) ++
  m.sequenceFlows.flatMap (fun f => ofEntity (label "SequenceFlow" f.id) f.toEntity)

end Listed

end Bpmn
