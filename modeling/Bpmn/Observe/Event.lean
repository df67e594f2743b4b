import Bpmn.Json.Basic

namespace Bpmn

/-- How much a message matters; a sink passes on what reaches its threshold. -/
abbrev Severity := Int

namespace Severity

def debug : Severity := 10

def info : Severity := 20

def warning : Severity := 30

def error : Severity := 40

def critical : Severity := 50

end Severity

/-- What a run reports while it works.  It never asks whether anyone listens. -/
inductive Event where
  | message (severity : Severity) (text : String)
  /-- A failure, told with its cause. -/
  | failure (text cause : String)
  /-- A stage has ended, in success or failure. -/
  | stage (name : Json)
  /-- The size of an entity list of a definition, told by a text. -/
  | count (list size definition : Json) (text : String)
  /-- A run over a definition has ended. -/
  | span (name definition : Json) (failed : Bool)

/-- The size of an entity list. -/
def Event.ofSize (list : String) (size : Nat) (definition : Option String) : Event :=
  .count (.str list) (.ofNat size) (.ofText definition) s!"{list}: {size}"

end Bpmn
