namespace Bpmn

/-- The kinds of objects a context is made of. -/
inductive Model where
  | scopeRef
  | elementRef
  | bindable
  | referenceLink
  | associationEnd
  | association
  | dataParameterBehaviour
  | dataParameter
  | resource
  | behaviour
  | behaviourDefinition
  | definition
  | entity
  | process
  | activity
  | sequenceFlow
  | messageFlowEndpoint
  | messageFlow
  | dataObjectReference
  | dataObject
  | script
  | mappedContext
  deriving DecidableEq

namespace Model

def name : Model → String
  | scopeRef => "ScopeRef"
  | elementRef => "ElementRef"
  | bindable => "Bindable"
  | referenceLink => "ReferenceLink"
  | associationEnd => "AssociationEnd"
  | association => "Association"
  | dataParameterBehaviour => "DataParameterBehaviour"
  | dataParameter => "DataParameter"
  | resource => "Resource"
  | behaviour => "Behaviour"
  | behaviourDefinition => "BehaviourDefinition"
  | definition => "Definition"
  | entity => "Entity"
  | process => "Process"
  | activity => "Activity"
  | sequenceFlow => "SequenceFlow"
  | messageFlowEndpoint => "MessageFlowEndpoint"
  | messageFlow => "MessageFlow"
  | dataObjectReference => "DataObjectReference"
  | dataObject => "DataObject"
  | script => "Script"
  | mappedContext => "MappedContext"

def all : List Model :=
  [scopeRef, elementRef, bindable, referenceLink, associationEnd, association,
    dataParameterBehaviour, dataParameter, resource, behaviour, behaviourDefinition, definition,
    entity, process, activity, sequenceFlow, messageFlowEndpoint, messageFlow,
    dataObjectReference, dataObject, script, mappedContext]

def ofName? (name : String) : Option Model := all.find? (·.name == name)

end Model

/-- A step into a value. -/
inductive Step where
  | field (name : String)
  | item (index : Nat)
  /-- A field whose key is a number. -/
  | key (n : Int)
  deriving DecidableEq

/-- How a value misses the form asked for. -/
inductive Mismatch where
  | missing
  | notText
  | notTextKey
  /-- An object within itself. -/
  | endless
  | notModel (model : Model)
  | notObject
  | notList
  | notFlag
  | unclearFlag
  | badText
  /-- What is to be read is no text. -/
  | unread
  deriving DecidableEq

/-- Where a value does not have the form of a model, and how.  The wording depends on what was checked, a value or
a text. -/
structure Issue where
  path : List Step
  mismatch : Mismatch
  deriving DecidableEq

/-- What was checked: a value, or a JSON text. -/
inductive Origin where
  | value
  | text
  deriving DecidableEq

namespace Mismatch

def code : Mismatch → String
  | missing => "missing"
  | notText => "string_type"
  | notTextKey => "invalid_key"
  | endless => "recursion_loop"
  | notModel _ => "model_type"
  | notObject => "dict_type"
  | notList => "list_type"
  | notFlag => "bool_type"
  | unclearFlag => "bool_parsing"
  | badText => "json_invalid"
  | unread => "json_type"

/-- The wording; a text that is no JSON has none. -/
def message? : Mismatch → Origin → Option String
  | missing, _ => some "Field required"
  | notText, _ => some "Input should be a valid string"
  | notTextKey, _ => some "Keys should be strings"
  | endless, _ => some "Recursion error - cyclic reference detected"
  | notModel model, .value =>
    some s!"Input should be a valid dictionary or instance of {model.name}"
  | notModel _, .text => some "Input should be an object"
  | notObject, .value => some "Input should be a valid dictionary"
  | notObject, .text => some "Input should be an object"
  | notList, .value => some "Input should be a valid list"
  | notList, .text => some "Input should be a valid array"
  | notFlag, _ => some "Input should be a valid boolean"
  | unclearFlag, _ => some "Input should be a valid boolean, unable to interpret input"
  | badText, _ => none
  | unread, _ => some "JSON input should be string, bytes or bytearray"

end Mismatch

end Bpmn
