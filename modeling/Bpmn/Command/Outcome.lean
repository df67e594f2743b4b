import Bpmn.Command.Stop
import Bpmn.Observe.Observatory
import Bpmn.Text.Unstyled

namespace Bpmn.Command

/-- What a command leaves behind: its exit status, what it wrote where and what was logged. -/
structure Outcome where
  status : Nat
  output : String
  /-- What is told on the error channel besides the log. -/
  errors : List String
  written : Option (String × String)
  lines : List Line
  /-- How the log is written. -/
  form : SinkForm
  crash : Option Crash

namespace Outcome

/-- Nothing happened. -/
def silent : Outcome := ⟨0, "", [], none, [], .lines, none⟩

def ofMessage (status : Nat) (message : String) : Outcome :=
  { silent with status, errors := ["Error: " ++ message] }

def ofStop : Stop → Outcome
  | .refused message => ofMessage 1 message
  | .misuse m => ofMessage 2 m.message
  | .crash c => { silent with status := 1, crash := some c }

/-- The outcome for a reader that is no terminal: what is told bears no styling. -/
def unstyled (done : Outcome) : Outcome :=
  { done with output := Text.unstyled done.output, errors := done.errors.map Text.unstyled }

/-- What a reader of the error channel takes for entries of the log. -/
def entries (done : Outcome) : Except Fault (List LogEntry) := do
  let told ← done.lines.mapM done.form.read
  return told.flatten ++ (← LogEntry.ofLines (done.errors.flatMap Text.lines))

/-- The lines of the error channel on which no message of the log starts. -/
def remarks (done : Outcome) : List String :=
  done.lines.flatMap done.form.remarks ++ done.errors.flatMap Text.lines

end Outcome

/-- A run under observation that may stop early. -/
abbrev Run := ExceptT Stop (StateM Observatory)

namespace Run

/-- Runs something traced. -/
def observed {α : Type} (run : Traced α) : Run α := do
  let (o, result) := (← get).watch run
  set o
  match result with
  | .ok a => return a
  | .error fault => throw (.ofFault fault)

end Run

end Bpmn.Command
