import Bpmn.Mapping.Association
import Bpmn.Model.Unfold

namespace Bpmn

namespace Graph

variable (g : Graph)

/-- The literal body of an expression; values that wrap nothing have none. -/
def bodyOf : Value → Value
  | .node place => g.field place "body"
  | _ => .null

/-- The body of the expression in a field, null when missing. -/
def bodyAt (place : Nat) (key : String) : Json := g.unfold (g.bodyOf (g.field place key))

/-- The description of a referenced element as a plain value. -/
def spread (v : Value) : Except Fault Json := do
  return .ofOption ElementRef.toJson (← g.elementRef v)

/-- Own fields, followed by the described elements that the single references of an object name. -/
def spreadFields (place : Nat) : Except Fault (List (String × Json)) := do
  let own ← g.ownFieldsAt place
  let references := (g.fields place).filter fun (key, _) => Key.isRef key
  let spread ← references.mapM fun (key, v) => return (key, ← g.spread v)
  return Fields.update own spread

end Graph

namespace Bundle

variable (g : Graph) (links : Links)

/-- The fields of a definition that are computed from wrapped expressions, by its type. -/
def computed (type : Value) : List (String × String) :=
  if type.isText "bpmn:ConditionalEventDefinition" then [("expression", "condition")]
  else if type.isText "bpmn:MultiInstanceLoopCharacteristics" then
    [("loopCardinality", "loopCardinality"), ("completionCondition", "completionCondition")]
  else if type.isText "bpmn:TimerEventDefinition" then
    [("timeDuration", "timeDuration"), ("timeCycle", "timeCycle"), ("timeDate", "timeDate")]
  else []

/-- The bundle of a nested definition. -/
def ofDefinition (place : Nat) : Except Fault Behaviour := do
  let type := g.field place "$type"
  if type.isText "bpmn:InputOutputSpecification" then
    let (inputs, outputs) ← links.ioParameters g place
    return .mk none none none { Attachments.none with dataInputs := inputs, dataOutputs := outputs } []
  else
    let fields ← g.spreadFields place
    let bodies := (computed type).map fun (key, wrapper) => (key, g.bodyAt place wrapper)
    (Check.behaviourFields .value (Fields.update fields bodies)).as .behaviour

/-- A nested definition in typed form; an empty one counts as missing. -/
def definition (v : Value) : Except Fault (Option BehaviourDefinition) := do
  match g.orAbsent v with
  | none => return none
  | some v =>
    let place ← Graph.placeOf v
    let behaviour ← ofDefinition g links place
    let type ← (g.typeText place).as .behaviourDefinition
    return some (.mk .null type behaviour)

/-- A resource in typed form; an empty one counts as missing. -/
def resource (v : Value) : Except Fault (Option Resource) := do
  match g.orAbsent v with
  | none => return none
  | some v =>
    let place ← Graph.placeOf v
    let expression ← match g.orAbsent (g.field place "resourceAssignmentExpression") with
      | none => pure .null
      | some assignment => g.get assignment "expression"
    let own ← g.ownFieldsAt place
    let resource ← (Resource.mk <$> g.typeText place <*> (g.bodyOf expression).text "expression"
      <*> .valid own).as .resource
    return some resource

/-- The typed items of a list without the missing ones, none when there is no list. -/
def each {α : Type} (v : Value) (read : Value → Except Fault (Option α)) :
    Except Fault (Option (List α)) := do
  match v.nonNull? with
  | none => return none
  | some v =>
    let items ← (← g.items v).mapM read
    return some (items.filterMap id)

/-- The check of the bundle of an activity or a process, some of whose fields are given. -/
def checkElement (fields : List (String × Json)) (place : Nat) :
    Except Fault (Checked Behaviour) := do
  let events ← each g (g.field place "eventDefinitions") (definition g links)
  let loop ← definition g links (g.field place "loopCharacteristics")
  let io ← definition g links (g.field place "ioSpecification")
  let resources ← each g (g.field place "resources") (resource g)
  return Check.behaviourWith events loop io resources fields

/-- The bundle of an activity or a process.  Its own fields win over the extra ones. -/
def ofElement (extra : List (String × Json)) (place : Nat) : Except Fault Behaviour := do
  let own ← g.ownFieldsAt place
  (← checkElement g links (Fields.update extra own) place).as .behaviour

/-- An extra field, as the member whose key it has among all keys or as it is. -/
def unfoldExtra (keys : Fields Unit) (key : String) (v : Value) : Json :=
  match Check.readMembers.find? fun m => m.keyIn keys == key with
  | some m => g.unfoldMember m v
  | none => g.unfold v

/-- The bundle of an activity or a process with the extra fields of an index. -/
def ofElementWith (extra : Index) (place : Nat) : Except Fault Behaviour := do
  let own ← g.ownFieldsAt place
  let named : Fields Value := extra.filterMap fun (key, v) => key.text?.map (·, v)
  let keys := (named.keys ++ Fields.keys own).map (·, ())
  let extraFields := named.map fun (key, v) => (key, unfoldExtra g keys key v)
  let behaviour ← checkElement g links (Fields.update extraFields own) place
  (behaviour <* extra.checkKeys).as .behaviour

/-- The body of the condition of a flow; a condition without a type is no expression. -/
def conditionBody (place : Nat) : Option Value :=
  match g.field place "conditionExpression" with
  | .node condition =>
    if g.truthy (g.field condition "$type") then (g.field condition "body").nonNull? else none
  | _ => none

/-- The bundle of a sequence flow, with the body of its condition. -/
def ofFlow (place : Nat) : Except Fault Behaviour := do
  let own ← g.ownFieldsAt place
  let fields := match conditionBody g place with
    | none => own
    | some body => Fields.put own "expression" (g.unfold body)
  (Check.behaviourFields .value fields).as .behaviour

/-- The bundle of own fields alone. -/
def raw (v : Value) : Except Fault Behaviour := do
  (Check.behaviourFields .value (← g.ownFields v)).as .behaviour

end Bundle

end Bpmn
