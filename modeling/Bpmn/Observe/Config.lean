import Bpmn.Observe.Attribute
import Bpmn.Observe.Event
import Bpmn.Observe.Level
import Bpmn.Observe.Sink

namespace Bpmn

/-- What is observed and how.  A flag may be any value and is on when the value counts as true. -/
structure ObserverConfig where
  serviceName : Json
  level : LevelChoice
  jsonLogs : Json
  traceStages : Json
  printSpans : Json
  collectMetrics : Json

namespace ObserverConfig

/-- What is observed unless something else is asked for. -/
def standard : ObserverConfig :=
  ⟨.str "bpmn-context", .member "INFO", .bool false, .bool false, .bool false, .bool true⟩

/-- The fields that a configuration is made of, and the one that names a member of the levels. -/
def fieldNames : List String :=
  ["level_enum", "service_name", "log_level", "json_logs", "trace_stages", "print_spans",
    "collect_metrics"]

/-- The member of the levels that a value names. -/
def memberOf (v : Json) : Except Fault LevelChoice :=
  match v with
  | .str name => if LevelChoice.members.contains name then .ok (.member name) else .error .lacksKey
  | v => .error (if v.isKey then .lacksKey else .notAKey)

/-- The configuration that some fields spell.  A member of the levels is looked up first, unknown fields
are refused next. -/
def ofFields (fields : Fields Json) : Except Fault ObserverConfig := do
  let member ← (fields.get? "level_enum").mapM memberOf
  if !fields.keys.all fieldNames.contains then throw .notIterable
  let level ← match member, fields.get? "log_level" with
    | some level, _ => pure level
    | none, none => pure standard.level
    | none, some (.str name) => pure (.text name)
    | none, some _ => throw .notAnObject
  let get (key : String) (default : Json) : Json := (fields.get? key).getD default
  return {
    level
    serviceName := get "service_name" standard.serviceName
    jsonLogs := get "json_logs" standard.jsonLogs
    traceStages := get "trace_stages" standard.traceStages
    printSpans := get "print_spans" standard.printSpans
    collectMetrics := get "collect_metrics" standard.collectMetrics }

/-- The configuration that a value spells; one that counts as false leaves it at the standard. -/
def ofValue : Json → Except Fault ObserverConfig
  | .obj fields => ofFields fields
  | j => if j.truthy then .error .notIterable else .ok standard

variable (c : ObserverConfig)

def sinkForm : SinkForm := if c.jsonLogs.truthy then .records else .lines

def traces : Bool := c.traceStages.truthy

def counts : Bool := c.collectMetrics.truthy

def readyText : String :=
  s!"Observability ready: service={c.serviceName.shown}, level={c.level.shown}, " ++
    s!"tracing={c.traceStages.shown}, metrics={c.collectMetrics.shown}"

/-- How many parts of an observatory carry the service for an attribute. -/
def instruments : Nat := (if c.traces then 1 else 0) + (if c.counts then 1 else 0)

/-- Why nothing can be observed for the service. -/
def refusal? : Option Fault :=
  if c.instruments = 0 then none else Attribute.refusal? c.serviceName

/-- What is told on a manager that is set up: the warnings on the service once for each instrument. -/
def greeting : List Event :=
  let warnings := (Attribute.warnings c.serviceName).map (Event.message .warning)
  (List.replicate c.instruments warnings).flatten ++ [.message .info c.readyText]

end ObserverConfig

end Bpmn
