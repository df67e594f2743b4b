import Bpmn.Command.Arguments
import Bpmn.Command.Types
import Bpmn.Json.Printer
import Bpmn.Query

namespace Bpmn.Command

/-- To tell what a snapshot holds, in lines or as JSON. -/
structure SummaryRequest where
  file : String
  asJson : Bool
  types : Option String

/-- What a summary tells of a context. -/
structure Summary where
  id : Option String
  name : Option String
  processes : Nat
  executable : List (Option String)
  activities : Nat
  sequenceFlows : Nat
  messageFlows : Nat
  dataObjects : Nat
  scripts : Nat
  deriving DecidableEq

namespace Summary

def ofContext (m : MappedContext) : Summary where
  id := m.definition.id
  name := m.definition.name
  processes := m.processes.length
  executable := m.executableProcesses.map (·.id)
  activities := m.activities.length
  sequenceFlows := m.sequenceFlows.length
  messageFlows := m.messageFlows.length
  dataObjects := m.dataObjects.length
  scripts := m.scripts.length

variable (s : Summary)

def toJson : Json :=
  .obj [("id", .ofText s.id), ("name", .ofText s.name), ("processes", .ofNat s.processes),
    ("executable_processes", .arr (s.executable.map .ofText)), ("activities", .ofNat s.activities),
    ("sequence_flows", .ofNat s.sequenceFlows), ("message_flows", .ofNat s.messageFlows),
    ("data_objects", .ofNat s.dataObjects), ("scripts", .ofNat s.scripts)]

/-- The name, or a word for an empty or missing one. -/
def nameText : String := (s.name.filter fun name => !name.isEmpty).getD "unnamed"

/-- The identifiers of the executable processes; none of them may be missing. -/
def executableText : Option String := do
  let ids ← s.executable.mapM fun name => name
  let text := String.intercalate ", " ids
  return if text.isEmpty then "-" else text

def head : List String :=
  [s!"Definition: {shown s.id} ({s.nameText})", s!"Processes: {s.processes}"]

def rest : List String :=
  [s!"Activities: {s.activities}", s!"Sequence flows: {s.sequenceFlows}",
    s!"Message flows: {s.messageFlows}", s!"Data objects: {s.dataObjects}",
    s!"Scripts: {s.scripts}"]

def unlines (lines : List String) : String := String.join (lines.map (· ++ "\n"))

/-- The summary in lines, as far as they can be written. -/
def outcome : Outcome :=
  match s.executableText with
  | some text =>
    { Outcome.silent with output := unlines (s.head ++ s!"Executable: {text}" :: s.rest) }
  | none => { Outcome.ofStop (.crash (.fault .nullText)) with output := unlines s.head }

end Summary

namespace SummaryRequest

def form : Form where
  options := [
    ⟨"--format", .format, .value none⟩,
    ⟨"--types", .types, .value none⟩,
    ⟨"--help", .help, .nothing true⟩]
  operand := some "CONTEXT_FILE"
  mixed := true

def ofGiven (given : Given) (file : String) : SummaryRequest where
  file
  asJson := given.text? .format == some "json"
  types := given.text? .types

variable (r : SummaryRequest)

/-- The context that a text holds. -/
def read (release : Release) (text : String) : Except Fault MappedContext :=
  ((MappedContext.Snapshot.text text).check release).orFault (.invalid .mappedContext .text)

def context (w : World) : Run MappedContext :=
  match read w.release (w.textOf r.file) with
  | .error fault => throw (.ofFault fault)
  | .ok m => resolveWith w r.types m

def run (w : World) : Outcome :=
  match ((r.context w).run).run .dark with
  | (.error stop, _) => .ofStop stop
  | (.ok m, _) =>
    let s := Summary.ofContext m
    if r.asJson then { Outcome.silent with output := s.toJson.render (some 2) ++ "\n" }
    else s.outcome

end SummaryRequest

end Bpmn.Command
