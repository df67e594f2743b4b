import Bpmn.Observe.Event

namespace Bpmn

namespace Severity

/-- The names a threshold can be chosen by. -/
def named : List (String × Severity) :=
  [("TRACE", 5), ("DEBUG", debug), ("INFO", info), ("SUCCESS", 25), ("WARNING", warning),
    ("ERROR", error), ("CRITICAL", critical)]

def ofName? (name : String) : Option Severity := named.lookup name

/-- The severities that messages are sent with by name. -/
def usual : List Severity := [debug, info, warning, error, critical]

/-- How a severity is shown; an unusual one has no name. -/
def label (s : Severity) : String :=
  match named.find? fun (_, other) => other = s && usual.contains other with
  | some (name, _) => name
  | none => s!"Level {s}"

end Severity

/-- The choice of a threshold: a member of the fixed set of levels, or any text. -/
inductive LevelChoice where
  | member (name : String)
  | text (name : String)
  deriving DecidableEq

namespace LevelChoice

def name : LevelChoice → String
  | member name => name
  | text name => name

/-- A member of the set is shown with the name of the set. -/
def shown : LevelChoice → String
  | member name => "LogLevel." ++ name
  | text name => name

/-- The names in the fixed set of levels. -/
def members : List String := ["DEBUG", "INFO", "WARNING", "ERROR", "CRITICAL"]

end LevelChoice

end Bpmn
