import Bpmn.Model.Reference

namespace Bpmn

/-- The members of a bundle that hold no bundle themselves. -/
structure Attachments where
  resources : Option (List Resource)
  attachedTo : Option ElementRef
  dataInputs : Option (List DataParameter)
  dataOutputs : Option (List DataParameter)

def Attachments.none : Attachments := ⟨.none, .none, .none, .none⟩

mutual

/-- The typed members of an element and its other fields. -/
inductive Behaviour where
  | mk (eventDefinitions : Option (List BehaviourDefinition))
      (loopCharacteristics : Option BehaviourDefinition)
      (ioSpecification : Option BehaviourDefinition)
      (attachments : Attachments)
      (extras : List (String × Json))

/-- A nested behavioural object.  `binding` is null until its type is resolved. -/
inductive BehaviourDefinition where
  | mk (binding : Json) (type : Option String) (behaviour : Behaviour)

end

namespace BehaviourDefinition

def binding : BehaviourDefinition → Json
  | mk binding _ _ => binding

def type : BehaviourDefinition → Option String
  | mk _ type _ => type

def behaviour : BehaviourDefinition → Behaviour
  | mk _ _ behaviour => behaviour

end BehaviourDefinition

namespace Behaviour

def eventDefinitions : Behaviour → Option (List BehaviourDefinition)
  | mk events _ _ _ _ => events

def loopCharacteristics : Behaviour → Option BehaviourDefinition
  | mk _ loop _ _ _ => loop

def ioSpecification : Behaviour → Option BehaviourDefinition
  | mk _ _ io _ _ => io

def attachments : Behaviour → Attachments
  | mk _ _ _ attachments _ => attachments

def extras : Behaviour → List (String × Json)
  | mk _ _ _ _ extras => extras

def empty : Behaviour := mk none none none .none []

end Behaviour

/-- The typed members of a bundle. -/
inductive Member where
  | eventDefinitions
  | loopCharacteristics
  | ioSpecification
  | resources
  | attachedTo
  | dataInputs
  | dataOutputs
  deriving DecidableEq

namespace Member

def all : List Member :=
  [eventDefinitions, loopCharacteristics, ioSpecification, resources, attachedTo, dataInputs,
    dataOutputs]

/-- The key a member is written under. -/
def key : Member → String
  | eventDefinitions => "eventDefinitions"
  | loopCharacteristics => "loopCharacteristics"
  | ioSpecification => "ioSpecification"
  | resources => "resources"
  | attachedTo => "attachedTo"
  | dataInputs => "dataInputs"
  | dataOutputs => "dataOutputs"

/-- A second key a member may be read under. -/
def secondKey : Member → String
  | eventDefinitions => "event_definitions"
  | loopCharacteristics => "loop_characteristics"
  | ioSpecification => "io_specification"
  | resources => "resources"
  | attachedTo => "attached_to"
  | dataInputs => "data_inputs"
  | dataOutputs => "data_outputs"

/-- The member a text names by either key. -/
def ofKey? (key : String) : Option Member :=
  all.find? fun m => m.key == key || m.secondKey == key

/-- The key under which the fields of a bundle hold a member; the first key wins. -/
def keyIn {α : Type} (m : Member) (fields : Fields α) : String :=
  if fields.has m.key then m.key else m.secondKey

end Member

mutual

def Behaviour.toJson : Behaviour → Json
  | .mk events loop io attachments extras =>
    .obj ([(Member.eventDefinitions.key, optionalList events),
      (Member.loopCharacteristics.key, optional loop),
      (Member.ioSpecification.key, optional io),
      (Member.resources.key, .ofOption (.arr <| ·.map Resource.toJson) attachments.resources),
      (Member.attachedTo.key, .ofOption ElementRef.toJson attachments.attachedTo),
      (Member.dataInputs.key,
        .ofOption (.arr <| ·.map DataParameter.toJson) attachments.dataInputs),
      (Member.dataOutputs.key,
        .ofOption (.arr <| ·.map DataParameter.toJson) attachments.dataOutputs)] ++ extras)

def BehaviourDefinition.toJson : BehaviourDefinition → Json
  | .mk _ type behaviour => .obj [("type", .ofText type), ("behaviour", behaviour.toJson)]

def optional : Option BehaviourDefinition → Json
  | none => .null
  | some definition => definition.toJson

def optionalList : Option (List BehaviourDefinition) → Json
  | none => .null
  | some definitions => .arr (each definitions)

def each : List BehaviourDefinition → List Json
  | [] => []
  | definition :: rest => definition.toJson :: each rest

end

namespace Behaviour

/-- A typed member as a value, null when unset. -/
def member (b : Behaviour) : Member → Json
  | .eventDefinitions => optionalList b.eventDefinitions
  | .loopCharacteristics => optional b.loopCharacteristics
  | .ioSpecification => optional b.ioSpecification
  | .resources => .ofOption (.arr <| ·.map Resource.toJson) b.attachments.resources
  | .attachedTo => .ofOption ElementRef.toJson b.attachments.attachedTo
  | .dataInputs => .ofOption (.arr <| ·.map DataParameter.toJson) b.attachments.dataInputs
  | .dataOutputs => .ofOption (.arr <| ·.map DataParameter.toJson) b.attachments.dataOutputs

/-- A raw field or a typed member by its name; the default for an unset member. -/
def get (b : Behaviour) (key : String) (default : Json) : Json :=
  match Fields.get? b.extras key with
  | some value => value
  | none =>
    match Member.ofKey? key with
    | some m => ((b.member m).nonNull?).getD default
    | none => default

/-- Whether the element says what implements it. -/
def hasImplementation (b : Behaviour) : Bool := (b.get "implementation" .null).truthy

end Behaviour

section Bindings

variable {m : Type → Type} [Monad m]

mutual

/-- Replaces the binding of every nested definition; `f` is given the definition as it was. -/
def Behaviour.mapBindings (f : BehaviourDefinition → m Json) : Behaviour → m Behaviour
  | .mk events loop io attachments extras => do
    let loop ← mapOptional f loop
    let events ← mapOptionalList f events
    let io ← mapOptional f io
    return .mk events loop io attachments extras

/-- Replaces the binding of a definition and then those below it. -/
def BehaviourDefinition.mapBindings (f : BehaviourDefinition → m Json) :
    BehaviourDefinition → m BehaviourDefinition
  | .mk binding type behaviour => do
    let binding ← f (.mk binding type behaviour)
    let behaviour ← behaviour.mapBindings f
    return .mk binding type behaviour

def mapOptional (f : BehaviourDefinition → m Json) :
    Option BehaviourDefinition → m (Option BehaviourDefinition)
  | none => return none
  | some definition => return some (← definition.mapBindings f)

def mapOptionalList (f : BehaviourDefinition → m Json) :
    Option (List BehaviourDefinition) → m (Option (List BehaviourDefinition))
  | none => return none
  | some definitions => return some (← mapEach f definitions)

def mapEach (f : BehaviourDefinition → m Json) :
    List BehaviourDefinition → m (List BehaviourDefinition)
  | [] => return []
  | definition :: rest => return (← definition.mapBindings f) :: (← mapEach f rest)

end

end Bindings

mutual

/-- The definitions nested in a bundle, in the order in which they are resolved. -/
def Behaviour.definitions : Behaviour → List BehaviourDefinition
  | .mk events loop io _ _ => ofOptional loop ++ ofOptionalList events ++ ofOptional io

/-- A definition and those below it. -/
def BehaviourDefinition.definitions : BehaviourDefinition → List BehaviourDefinition
  | .mk binding type behaviour => .mk binding type behaviour :: behaviour.definitions

def ofOptional : Option BehaviourDefinition → List BehaviourDefinition
  | none => []
  | some definition => definition.definitions

def ofOptionalList : Option (List BehaviourDefinition) → List BehaviourDefinition
  | none => []
  | some definitions => ofEach definitions

def ofEach : List BehaviourDefinition → List BehaviourDefinition
  | [] => []
  | definition :: rest => definition.definitions ++ ofEach rest

end

end Bpmn
