import Bpmn.Command.Run
import Bpmn.Json.Reader

namespace Bpmn.Tool

open Command

/-- Texts in an argument that may name a file. -/
def candidates (arg : String) : List String :=
  let attached := (splitValue arg.toList).2.toList
  let short := if arg.startsWith "-o" then [String.ofList (arg.toList.drop 2)] else []
  arg :: (attached ++ short)

/-- What stands at a path. -/
def entryOf (path : String) : IO (Option Entry) := do
  try return some (.file (← IO.FS.readFile path))
  catch
    | .inappropriateType .. => return some .folder
    | _ => return none

def settingNames : List String := ["LOG_LEVEL", "JSON_LOGS", "TRACING", "METRICS", "INDENT"]

/-- The members of the module that an argument may refer to. -/
def moduleOf (arg : String) : IO (Option (String × BehaviourModule)) := do
  let name := (splitReference arg).1
  match ← entryOf (name ++ ".json") with
  | some (.file text) =>
    match Json.parse text with
    | .ok (.obj members) => return some (name, ⟨members, .none, true, true⟩)
    | _ => return none
  | _ => return none

def surroundings (args : List String) : IO World := do
  let texts := args.flatMap candidates
  let paths := ((texts.flatMap Path.visited).filter fun p => !p.isBase).map Path.toString
  let entries ← paths.filterMapM fun path => return (← entryOf path).map (path, ·)
  let environment ← settingNames.filterMapM fun name => do
    let name := Settings.variableName name
    return (← IO.getEnv name).map (name, ·)
  let modules ← texts.filterMapM moduleOf
  return { entries, environment, modules, attributes := fun _ => [], release := .keeping }

def lineText (form : SinkForm) (line : Line) : String :=
  match form with
  | .records =>
    (Json.obj [("level", .str line.severity.label), ("message", .str line.text)]).render none
  | .lines => s!"{line.severity.label} | {line.text}"

/-- Writes what an outcome says. -/
def carryOut (done : Outcome) : IO UInt32 := do
  let stdout ← IO.getStdout
  let stderr ← IO.getStderr
  let done := if ← stdout.isTty then done else done.unstyled
  done.lines.forM fun line => stderr.putStrLn (lineText done.form line)
  done.written.forM fun (path, text) => IO.FS.writeFile path text
  stdout.putStr done.output
  done.errors.forM stderr.putStrLn
  done.crash.forM fun crash => stderr.putStrLn crash.name
  return done.status.toUInt32

end Bpmn.Tool

def main (args : List String) : IO UInt32 := do
  let world ← Bpmn.Tool.surroundings args
  Bpmn.Tool.carryOut (Bpmn.Command.run world args)
