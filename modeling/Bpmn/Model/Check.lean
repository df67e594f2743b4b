import Bpmn.Checked
import Bpmn.Model.Entity
import Bpmn.Model.Release

namespace Bpmn

namespace Check

variable {α : Type}

def text : Json → Checked String
  | .str s => .valid s
  | _ => .wrong .notText

/-- Null stands for none. -/
def optional (check : Json → Checked α) : Json → Checked (Option α)
  | .null => .valid none
  | j => some <$> check j

def list (check : Json → Checked α) : Json → Checked (List α)
  | .arr items => .items 0 (items.map check)
  | _ => .wrong .notList

/-- Any object, as its fields. -/
def object : Json → Checked (List (String × Json))
  | .obj fields => .valid fields
  | _ => .wrong .notObject

/-- An object of a model. -/
def model (m : Model) (check : List (String × Json) → Checked α) : Json → Checked α
  | .obj fields => check fields
  | .endless => .wrong .endless
  | _ => .wrong (.notModel m)

/-- A field that has to be there. -/
def required (fields : List (String × Json)) (key : String) (check : Json → Checked α) :
    Checked α :=
  ((Fields.get? fields key).elim (.wrong .missing) check).under (.field key)

/-- A field that may be absent. -/
def defaulted (fields : List (String × Json)) (key : String) (default : α)
    (check : Json → Checked α) : Checked α :=
  ((Fields.get? fields key).elim (.valid default) check).under (.field key)

/-- A field that may be absent or null. -/
def maybe (fields : List (String × Json)) (key : String) (check : Json → Checked α) :
    Checked (Option α) :=
  defaulted fields key none (optional check)

def maybeText (fields : List (String × Json)) (key : String) : Checked (Option String) :=
  maybe fields key text

/-- A field of any value; null when absent. -/
def anything (fields : List (String × Json)) (key : String) : Json :=
  (Fields.get? fields key).getD .null

def yesWords : List String := ["1", "on", "t", "true", "y", "yes"]

def noWords : List String := ["0", "off", "f", "false", "n", "no"]

/-- Zero is false and one is true. -/
def flagOfInt (i : Int) : Checked Bool :=
  if i = 0 then .valid false else if i = 1 then .valid true else .wrong .unclearFlag

/-- A truth value, a number that is zero or one, or a word for one.  A small number could have been meant
as a flag, a larger one could not. -/
def flag (mode : Mode) : Json → Checked Bool
  | .bool b => .valid b
  | .num (.int i) => if mode.isSmall i then flagOfInt i else .wrong .notFlag
  | .num (.float x) =>
    match x.toInt? with
    | some i => if -wordBound < i ∧ i < wordBound then flagOfInt i else .wrong .notFlag
    | none => .wrong .notFlag
  | .str s =>
    if yesWords.contains s.toLower then .valid true
    else if noWords.contains s.toLower then .valid false
    else .wrong .unclearFlag
  | _ => .wrong .notFlag

def scopeRef : Json → Checked ScopeRef :=
  model .scopeRef fun fields => ScopeRef.mk <$> maybeText fields "id" <*> maybeText fields "type"

def elementRef : Json → Checked ElementRef :=
  model .elementRef fun fields =>
    ElementRef.mk <$> maybeText fields "id" <*> maybeText fields "type" <*> maybeText fields "name"

def referenceLinkFields (fields : List (String × Json)) : Checked ReferenceLink :=
  ReferenceLink.mk <$> maybeText fields "id" <*> required fields "property" text
    <*> maybe fields "element" elementRef

def referenceLink : Json → Checked ReferenceLink := model .referenceLink referenceLinkFields

def associationEnd : Json → Checked AssociationEnd :=
  model .associationEnd fun fields =>
    AssociationEnd.mk <$> referenceLinkFields fields <*> maybe fields "data_object" referenceLink

def association : Json → Checked Association :=
  model .association fun fields =>
    Association.mk <$> maybe fields "source" associationEnd <*> maybe fields "target" associationEnd

/-- The association that the behaviour of a data parameter holds. -/
def parameterBehaviour : Json → Checked Association :=
  model .dataParameterBehaviour fun fields =>
    defaulted fields "association" .unbound association

/-- The fields a data parameter is made of; the others are its extras. -/
def parameterKeys : List String := ["id", "type", "name", "behaviour"]

/-- A data parameter with a given association. -/
def dataParameterWith (association : Checked Association) (fields : List (String × Json)) :
    Checked DataParameter :=
  DataParameter.mk <$> maybeText fields "id" <*> maybeText fields "type"
    <*> maybeText fields "name" <*> association <*> .valid (Fields.without fields parameterKeys)

def dataParameter : Json → Checked DataParameter :=
  model .dataParameter fun fields =>
    dataParameterWith (defaulted fields "behaviour" .unbound parameterBehaviour) fields

def resource : Json → Checked Resource :=
  model .resource fun fields =>
    Resource.mk <$> maybeText fields "type" <*> maybeText fields "expression"
      <*> defaulted fields "behaviour" [] object

/-- A member under the key that holds it. -/
def member (fields : List (String × Json)) (m : Member) (check : Json → Checked α) :
    Checked (Option α) :=
  maybe fields (m.keyIn fields) check

/-- The value of a field, which is smaller than all fields together. -/
def smaller? (fields : List (String × Json)) (key : String) :
    Option { j : Json // sizeOf j < sizeOf fields } :=
  match h : Fields.get? fields key with
  | none => none
  | some j => some ⟨j, by
      have hm := List.sizeOf_lt_of_mem (Fields.mem_of_get? h)
      simp only [Prod.mk.sizeOf_spec] at hm
      omega⟩

/-- The keys whose fields are dropped though no member has been read under them. -/
def dropped (mode : Mode) : List String :=
  if mode.keepsSecond then [] else Member.all.map (·.secondKey)

section Modes

variable (mode : Mode)

/-- The raw fields of a bundle: no member has been read from them. -/
def extras (fields : List (String × Json)) : List (String × Json) :=
  Fields.without fields (Member.all.map (·.keyIn fields) ++ dropped mode)

mutual

def behaviourFields (fields : List (String × Json)) : Checked Behaviour :=
  let events : Checked (Option (List BehaviourDefinition)) :=
    match smaller? fields (Member.eventDefinitions.keyIn fields) with
    | none => .valid none
    | some ⟨.null, _⟩ => .valid none
    | some ⟨.arr items, _hs⟩ =>
      some <$> .items 0 (items.attach.map fun ⟨item, _hi⟩ => behaviourDefinition item)
    | some _ => .wrong .notList
  let single (m : Member) : Checked (Option BehaviourDefinition) :=
    match smaller? fields (m.keyIn fields) with
    | none => .valid none
    | some ⟨.null, _⟩ => .valid none
    | some ⟨j, _hs⟩ => (some <$> behaviourDefinition j).under (.field (m.keyIn fields))
  Behaviour.mk
    <$> events.under (.field (Member.eventDefinitions.keyIn fields))
    <*> single .loopCharacteristics
    <*> single .ioSpecification
    <*> (Attachments.mk
      <$> member fields .resources (list resource)
      <*> member fields .attachedTo elementRef
      <*> member fields .dataInputs (list dataParameter)
      <*> member fields .dataOutputs (list dataParameter))
    <*> .valid (extras mode fields)
termination_by sizeOf fields
decreasing_by
  · have hm := List.sizeOf_lt_of_mem _hi
    simp only [Json.arr.sizeOf_spec] at _hs
    omega
  · exact _hs

def behaviourDefinition (j : Json) : Checked BehaviourDefinition :=
  match j with
  | .obj fields =>
    BehaviourDefinition.mk (anything fields "binding") <$> maybeText fields "type"
      <*> (match smaller? fields "behaviour" with
        | none => .valid .empty
        | some ⟨.obj inner, _hs⟩ => (behaviourFields inner).under (.field "behaviour")
        | some ⟨.endless, _⟩ => (Checked.wrong .endless).under (.field "behaviour")
        | some _ => (Checked.wrong (.notModel .behaviour)).under (.field "behaviour"))
  | .endless => .wrong .endless
  | _ => .wrong (.notModel .behaviourDefinition)
termination_by sizeOf j
decreasing_by
  simp only [Json.obj.sizeOf_spec] at _hs ⊢
  omega

end

def behaviour : Json → Checked Behaviour := model .behaviour (behaviourFields mode)

end Modes

/-- The members of a bundle that are given when it is made for an element. -/
def givenMembers : List Member := [.eventDefinitions, .loopCharacteristics, .ioSpecification, .resources]

/-- The members of a bundle that are read even then. -/
def readMembers : List Member := [.attachedTo, .dataInputs, .dataOutputs]

/-- A bundle whose nested objects and resources are given; only the other members are read. -/
def behaviourWith (events : Option (List BehaviourDefinition))
    (loop io : Option BehaviourDefinition) (resources : Option (List Resource))
    (fields : List (String × Json)) : Checked Behaviour :=
  Behaviour.mk events loop io
    <$> (Attachments.mk resources
      <$> member fields .attachedTo elementRef
      <*> member fields .dataInputs (list dataParameter)
      <*> member fields .dataOutputs (list dataParameter))
    <*> .valid (Fields.without fields (givenMembers.map (·.key) ++ readMembers.map (·.keyIn fields)))

def definition : Json → Checked Definition :=
  model .definition fun fields =>
    Definition.mk (anything fields "binding") <$> maybeText fields "id" <*> maybeText fields "type"
      <*> maybeText fields "name" <*> maybeText fields "target_namespace"
      <*> maybeText fields "exporter" <*> maybeText fields "exporter_version"

section Modes

variable (mode : Mode)

def entityFields (fields : List (String × Json)) : Checked Entity :=
  Entity.mk (anything fields "binding") <$> maybeText fields "id"
    <*> (Json.ofText <$> maybeText fields "type")
    <*> maybeText fields "name" <*> defaulted fields "parent" .unknown scopeRef
    <*> defaulted fields "behaviour" .empty (behaviour mode)

def process : Json → Checked Process :=
  model .process fun fields => Process.mk <$> entityFields mode fields

def activity : Json → Checked Activity :=
  model .activity fun fields =>
    (Activity.mk · (anything fields "service_binding")) <$> entityFields mode fields

def sequenceFlow : Json → Checked SequenceFlow :=
  model .sequenceFlow fun fields =>
    SequenceFlow.mk <$> entityFields mode fields <*> maybeText fields "source_id"
      <*> maybeText fields "target_id" <*> maybe fields "is_default" (flag mode)

def messageFlowEndpoint : Json → Checked MessageFlowEndpoint :=
  model .messageFlowEndpoint fun fields =>
    MessageFlowEndpoint.mk <$> maybeText fields "process_id" <*> maybeText fields "id"

def messageFlow : Json → Checked MessageFlow :=
  model .messageFlow fun fields =>
    MessageFlow.mk <$> entityFields mode fields
      <*> defaulted fields "source" ⟨none, none⟩ messageFlowEndpoint
      <*> defaulted fields "target" ⟨none, none⟩ messageFlowEndpoint

def dataObjectReference : Json → Checked DataObjectReference :=
  model .dataObjectReference fun fields =>
    DataObjectReference.mk <$> maybeText fields "id" <*> maybeText fields "type"
      <*> defaulted fields "behaviour" [] object

def dataObject : Json → Checked DataObject :=
  model .dataObject fun fields =>
    DataObject.mk <$> entityFields mode fields
      <*> defaulted fields "references" [] (list dataObjectReference)

def script : Json → Checked Script :=
  model .script fun fields =>
    Script.mk <$> required fields "name" text <*> required fields "parent" scopeRef
      <*> defaulted fields "script" [] object

def mappedContext : Json → Checked MappedContext :=
  model .mappedContext fun fields =>
    MappedContext.mk <$> maybeText fields "id" <*> maybeText fields "type"
      <*> maybeText fields "name" <*> required fields "definition" definition
      <*> defaulted fields "activities" [] (list (activity mode))
      <*> defaulted fields "data_objects" [] (list (dataObject mode))
      <*> defaulted fields "message_flows" [] (list (messageFlow mode))
      <*> defaulted fields "processes" [] (list (process mode))
      <*> defaulted fields "sequence_flows" [] (list (sequenceFlow mode))
      <*> defaulted fields "scripts" [] (list script)

end Modes

end Check

/-- Reads an object of a model and gives its dump. -/
def Model.normalize (mode : Mode) : Model → Json → Checked Json
  | scopeRef, j => ScopeRef.toJson <$> Check.scopeRef j
  | elementRef, j => ElementRef.toJson <$> Check.elementRef j
  | bindable, j => Check.model .bindable (fun _ => .valid (.obj [])) j
  | referenceLink, j => ReferenceLink.toJson <$> Check.referenceLink j
  | associationEnd, j => AssociationEnd.toJson <$> Check.associationEnd j
  | association, j => Association.toJson <$> Check.association j
  | dataParameterBehaviour, j =>
    (fun a : Association => .obj [("association", a.toJson)]) <$> Check.parameterBehaviour j
  | dataParameter, j => DataParameter.toJson <$> Check.dataParameter j
  | resource, j => Resource.toJson <$> Check.resource j
  | behaviour, j => Behaviour.toJson <$> Check.behaviour mode j
  | behaviourDefinition, j => BehaviourDefinition.toJson <$> Check.behaviourDefinition mode j
  | definition, j => Definition.toJson <$> Check.definition j
  | entity, j => Entity.toJson <$> Check.model .entity (Check.entityFields mode) j
  | process, j => (fun p : Process => p.toJson) <$> Check.process mode j
  | activity, j => (fun a : Activity => a.toJson) <$> Check.activity mode j
  | sequenceFlow, j => SequenceFlow.toJson <$> Check.sequenceFlow mode j
  | messageFlowEndpoint, j => MessageFlowEndpoint.toJson <$> Check.messageFlowEndpoint j
  | messageFlow, j => MessageFlow.toJson <$> Check.messageFlow mode j
  | dataObjectReference, j => DataObjectReference.toJson <$> Check.dataObjectReference j
  | dataObject, j => DataObject.toJson <$> Check.dataObject mode j
  | script, j => Script.toJson <$> Check.script j
  | mappedContext, j => MappedContext.toJson <$> Check.mappedContext mode j

end Bpmn
