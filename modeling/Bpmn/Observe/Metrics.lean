import Bpmn.Observe.Attribute
import Bpmn.Observe.Event
import Bpmn.Order

namespace Bpmn

/-- Totals by their attributes, in the order of first mention. -/
abbrev Totals := List (Attributes × Number)

namespace Totals

/-- Adds an amount to the total of some attributes. -/
def add (attributes : Attributes) (amount : Number) : Totals → Totals
  | [] => [(attributes, (Number.int 0).add amount)]
  | (known, total) :: rest =>
    if known.toJson.alike attributes.toJson then (known, total.add amount) :: rest
    else (known, total) :: add attributes amount rest

/-- Each total behind its attributes. -/
def rows (totals : Totals) : List Json :=
  totals.map fun (attributes, total) => .arr [attributes.toJson, .num total]

/-- The rows in order, if they can be put in order. -/
def sortedRows (totals : Totals) : Except Fault (List Json) :=
  let areOrdered := totals.rows.all fun a => totals.rows.all fun b => (a.precedes? b).isSome
  if areOrdered then .ok (Order.sort (fun a b => a.precedes? b == some true) totals.rows)
  else .error .unordered

end Totals

/-- What becomes of an amount that is to be added to a total. -/
inductive Amount where
  | counted (amount : Number)
  | ignored (warning : String)
  | refused (fault : Fault)

/-- Totals of entities and numbers of stages. -/
structure Metrics where
  counts : Totals
  stages : Totals

namespace Metrics

def none : Metrics := ⟨[], []⟩

def entityTotal : String := "context_entities_total"

def stageTotal : String := "context_stage_duration_ms"

/-- What the size of an entity list is attributed to; a definition that counts as false is unknown. -/
def countAttributes (list definition : Json) : Attributes :=
  ((Attribute.given? definition).map fun id => ("definition.id", id)).toList ++
    [("entity_list", list)]

def stageAttributes (name : Json) : Attributes := [("stage", name)]

/-- Judges what is to be added to the total of entities: only numbers that are not negative add up. -/
def judge (size : Json) : Amount :=
  match size.number? with
  | .none => .refused .notANumber
  | some amount =>
    if !amount.isFinite then
      .ignored (s!"Add amount {amount.shown} is not finite on Counter {entityTotal}, " ++
        "ignoring measurement.")
    else if !amount.toFloat.isFinite then .refused .tooLarge
    else if amount.below (.int 0) then
      .ignored s!"Add amount must be non-negative on Counter {entityTotal}."
    else .counted amount

/-- The attributes that an event brings along. -/
def attributesOf : Event → Attributes
  | .count list size definition _ =>
    match judge size with
    | .counted _ => countAttributes list definition
    | _ => []
  | .stage name => stageAttributes name
  | _ => []

/-- Why an event cannot be taken in. -/
def refusal? (event : Event) : Option Fault :=
  let attributes := Attributes.refusal? (attributesOf event)
  match event with
  | .count _ size _ _ =>
    match judge size with
    | .refused fault => some fault
    | _ => attributes
  | _ => attributes

/-- What is warned of when an event is taken in. -/
def warnings (event : Event) : List String :=
  let attributes := Attributes.warnings (attributesOf event)
  match event with
  | .count _ size _ _ =>
    match judge size with
    | .ignored warning => [warning]
    | _ => attributes
  | _ => attributes

/-- Takes in an event. -/
def add (m : Metrics) (event : Event) : Metrics :=
  let attributes := Attributes.kept (attributesOf event)
  match event with
  | .count _ size _ _ =>
    match judge size with
    | .counted amount => { m with counts := m.counts.add attributes amount }
    | _ => m
  | .stage _ => { m with stages := m.stages.add attributes (.int 1) }
  | _ => m

/-- The metrics by name; one without totals is not there. -/
def toJson (m : Metrics) : Except Fault Json := do
  let named (name : String) (totals : Totals) : Except Fault (List (String × Json)) := do
    let rows ← totals.sortedRows
    return if rows.isEmpty then [] else [(name, .arr rows)]
  return .obj ((← named entityTotal m.counts) ++ (← named stageTotal m.stages))

end Metrics

end Bpmn
