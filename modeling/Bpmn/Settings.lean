import Bpmn.Fields
import Bpmn.Observe.Observatory
import Bpmn.Text.Case
import Bpmn.Text.Integer

namespace Bpmn

/-- What the environment says about logs, observation and the indent of what is written.  A value that spells
nothing is as good as none. -/
structure Settings where
  logLevel : String
  jsonLogs : Bool
  tracing : Bool
  metrics : Bool
  indent : Option Int

namespace Settings

def variableName (name : String) : String := "BPMN_CONTEXT_" ++ name

def standard : Settings := ⟨"INFO", false, false, true, none⟩

/-- The words that switch a flag on; every other text switches it off. -/
def onWords : List (List Char) := ["1".toList, "true".toList, "yes".toList, "on".toList]

def flagOf (text : String) : Bool := onWords.contains (Text.lower (Text.trim Text.isBlank text.toList))

/-- The level that a text names in any case. -/
def levelOf (text : String) : Option String :=
  let upper := String.ofList (Text.upper text.toList)
  if LevelChoice.members.contains upper then some upper else none

/-- The settings of an environment. -/
def ofEnvironment (environment : Fields String) : Settings :=
  let value? (name : String) : Option String := environment.get? (variableName name)
  let flag (name : String) (default : Bool) : Bool := ((value? name).map flagOf).getD default
  { logLevel := ((value? "LOG_LEVEL").bind levelOf).getD standard.logLevel
    jsonLogs := flag "JSON_LOGS" standard.jsonLogs
    tracing := flag "TRACING" standard.tracing
    metrics := flag "METRICS" standard.metrics
    indent := (value? "INDENT").bind Text.integer? }

/-- What to observe under these settings. -/
def observerConfig (s : Settings) (serviceName : String) : ObserverConfig where
  serviceName := .str serviceName
  level := .text s.logLevel
  jsonLogs := .bool s.jsonLogs
  traceStages := .bool s.tracing
  printSpans := .bool false
  collectMetrics := .bool s.metrics

end Settings

end Bpmn
