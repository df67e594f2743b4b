import Bpmn.Command.Arguments
import Bpmn.Command.Types
import Bpmn.Model.Dump
import Bpmn.Settings

namespace Bpmn.Command

/-- To map the dump of a parsed document and write the snapshot of the context. -/
structure FlattenRequest where
  file : String
  output : Option String
  types : Option String
  indent : Option Int
  verbose : Bool
  jsonLogs : Bool

namespace FlattenRequest

def form : Form where
  options := [
    ⟨"--output", .output, .value (some 'o')⟩,
    ⟨"--types", .types, .value none⟩,
    ⟨"--indent", .indent, .value none⟩,
    ⟨"--verbose", .verbose, .nothing true⟩,
    ⟨"--quiet", .verbose, .nothing false⟩,
    ⟨"--json-logs", .jsonLogs, .nothing true⟩,
    ⟨"--help", .help, .nothing true⟩]
  operand := some "MODDLE_FILE"
  mixed := true

def ofGiven (given : Given) (file : String) : FlattenRequest where
  file
  output := (given.text? .output).filter fun text => !text.isEmpty
  types := given.text? .types
  indent := (given.text? .indent).bind Text.integer?
  verbose := given.flag .verbose
  jsonLogs := given.flag .jsonLogs

variable (r : FlattenRequest)

/-- The settings of the environment, which the request may override. -/
def settings (w : World) : Settings :=
  let s := Settings.ofEnvironment w.environment
  { s with
    logLevel := if r.verbose then "DEBUG" else s.logLevel
    jsonLogs := r.jsonLogs || s.jsonLogs }

/-- The context of the file. -/
def context (w : World) : Run MappedContext := do
  match Json.parse (w.textOf r.file) with
  | .error misfit =>
    throw (if misfit.complaint = .loneHalf then .crash .loneHalf else .refused misfit.message)
  | .ok j =>
    let (g, document) := Graph.ofJson j
    let (m, _) ← Run.observed (MappedContext.ofDocument g document none)
    resolveWith w r.types m

/-- Writes a text to a file. -/
def writeTo (w : World) (path text : String) : Outcome :=
  match w.target path with
  | .error fault => .ofStop (.crash (.unwritable fault))
  | .ok place =>
    { Outcome.silent with
      errors := [s!"Serialized context written to: {path}"]
      written := some (place.toString, text) }

/-- Writes the snapshot of a context. -/
def deliver (w : World) (indent : Option Int) (m : MappedContext) : Outcome :=
  match m.serialize w.release indent with
  | .error fault => .ofStop (.crash (.fault fault))
  | .ok text =>
    match r.output with
    | none => { Outcome.silent with output := text ++ "\n" }
    | some path => writeTo w path text

/-- The outcome of a run under given settings, the log aside. -/
def outcome (w : World) (settings : Settings) : Except Stop MappedContext → Outcome
  | .ok m => r.deliver w (r.indent.or settings.indent) m
  | .error stop => .ofStop stop

/-- A refusal is told to the log too. -/
def farewell : Except Stop MappedContext → List Event
  | .error (.refused message) => [.failure "Flattening failed" message]
  | _ => []

def run (w : World) : Outcome :=
  let settings := r.settings w
  let config := settings.observerConfig "bpmn-context-cli"
  let (o, _) := Observatory.dark.start config
  let (result, o) := ((r.context w).run).run o
  { r.outcome w settings result with
    lines := (o.absorbAll (farewell result)).lines
    form := config.sinkForm }

end FlattenRequest

end Bpmn.Command
