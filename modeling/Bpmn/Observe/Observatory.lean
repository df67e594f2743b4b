import Bpmn.Observe.Config
import Bpmn.Observe.Metrics
import Bpmn.Observe.Traced

namespace Bpmn

structure Manager where
  config : ObserverConfig
  metrics : Metrics

/-- A printed span. -/
structure SpanRecord where
  name : Json
  definition : Json
  failed : Bool
  service : Json

/-- What takes in the events of runs: a sink passes on messages from a threshold on, a manager counts entities and
stages and prints spans.  Forgetting the manager leaves the sink in place. -/
structure Observatory where
  manager : Option Manager
  sink : Option Sink
  lines : List Line
  spans : List SpanRecord

namespace Observatory

/-- Nothing is observed.  Before the first manager there is a sink for messages that are logged directly;
pipelines log none of theirs to it, so it is left out. -/
def dark : Observatory := ⟨none, none, [], []⟩

/-- The attributes of a span. -/
def spanAttributes (definition : Json) : Attributes :=
  ((Attribute.given? definition).map fun id => ("definition.id", id)).toList

/-- Why a manager cannot take in an event. -/
def refusalOf? (config : ObserverConfig) : Event → Option Fault
  | .span _ definition _ =>
    if config.traces then (spanAttributes definition).refusal? else none
  | event => if config.counts then Metrics.refusal? event else none

/-- What a manager warns of on an event. -/
def warningsOf (config : ObserverConfig) : Event → List String
  | .span _ definition _ => if config.traces then (spanAttributes definition).warnings else []
  | event => if config.counts then Metrics.warnings event else []

/-- The message that an event is told by. -/
def lineOf? : Event → Option Line
  | .message severity text => some ⟨severity, text, none⟩
  | .failure text cause => some ⟨.error, text, some cause⟩
  | .stage name => some ⟨.debug, s!"Stage {name.shown} took", none⟩
  | .count _ _ _ text => some ⟨.debug, text, none⟩
  | .span .. => none

/-- The span that a manager prints for an event. -/
def spanOf? (config : ObserverConfig) : Event → Option SpanRecord
  | .span name definition failed =>
    if config.traces && config.printSpans.truthy then
      let definition := (Attribute.given? definition).getD (.str "")
      some ⟨name, Attribute.kept definition, failed, Attribute.kept config.serviceName⟩
    else none
  | _ => none

/-- All that is told on an event, warnings first. -/
def told (o : Observatory) (event : Event) : List Line :=
  let warnings := (o.manager.map fun m => warningsOf m.config event).getD []
  warnings.map (⟨.warning, ·, none⟩) ++ (lineOf? event).toList

/-- Takes in one event. -/
def absorb (o : Observatory) (event : Event) : Observatory where
  manager := o.manager.map fun m =>
    if m.config.counts then { m with metrics := m.metrics.add event } else m
  sink := o.sink
  lines := o.lines ++ (o.told event).filter (Sink.passes o.sink)
  spans := o.spans ++ (o.manager.bind fun m => spanOf? m.config event).toList

def absorbAll (o : Observatory) (events : List Event) : Observatory := events.foldl absorb o

/-- Why an event cannot be taken in. -/
def refusal? (o : Observatory) (event : Event) : Option Fault :=
  o.manager.bind fun m => refusalOf? m.config event

/-- Takes in an event if it can be. -/
def offer (o : Observatory) (event : Event) : Observatory × Except Fault Unit :=
  match o.refusal? event with
  | some fault => (o, .error fault)
  | none => (o.absorb event, .ok ())

/-- Watches a run. -/
def watch {α : Type} (o : Observatory) (run : Traced α) : Observatory × Except Fault α :=
  (o.absorbAll run.events, run.result)

/-- Watches a run over a definition under a name.  One that cannot be kept fails the span before the run
starts. -/
def watchSpan {α : Type} (o : Observatory) (name definition : Json) (run : Traced α) :
    Observatory × Except Fault α :=
  match o.refusal? (.span name definition true) with
  | some fault => (o.absorb (.span name definition true), .error fault)
  | none => o.watch (run.ending (.span name definition run.failed))

/-- Sets up a manager unless there is one.  The former sink is gone before the level of the new one
is looked up, and the new one stays if the manager fails.  From then on the messages of all loggers go to the
sink; here they are those of pipelines, so there is no handler to set up beside it. -/
def start (o : Observatory) (config : ObserverConfig) : Observatory × Except Fault Unit :=
  match o.manager with
  | some _ => (o, .ok ())
  | none =>
    match Severity.ofName? config.level.name with
    | none => ({ o with sink := none }, .error (.unknownLevel config.level.name))
    | some threshold =>
      let o := { o with sink := some ⟨threshold, config.sinkForm⟩ }
      match config.refusal? with
      | some fault => (o, .error fault)
      | none => ({ o with manager := some ⟨config, .none⟩ }.absorbAll config.greeting, .ok ())

/-- Forgets the manager; the sink stays. -/
def reset (o : Observatory) : Observatory := { o with manager := none }

/-- How the sink writes. -/
def form (o : Observatory) : SinkForm := (o.sink.map (·.form)).getD .lines

/-- What the sink has passed on, which is then forgotten. -/
def takeLines (o : Observatory) : List Line × Observatory := (o.lines, { o with lines := [] })

/-- What a reader of the log finds in it, which is then forgotten. -/
def takeEntries (o : Observatory) : Except Fault (List LogEntry × Observatory) := do
  let (lines, o) := o.takeLines
  return ((← lines.mapM o.form.read).flatten, o)

/-- The spans printed so far, which are then forgotten. -/
def takeSpans (o : Observatory) : List SpanRecord × Observatory := (o.spans, { o with spans := [] })

/-- Whether runs are traced. -/
def traces (o : Observatory) : Bool := o.manager.any (·.config.traces)

/-- The metrics that are kept, if any are. -/
def metrics? (o : Observatory) : Option Metrics :=
  (o.manager.filter (·.config.counts)).map (·.metrics)

end Observatory

end Bpmn
