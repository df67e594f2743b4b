import Bpmn.Json.Basic

namespace Bpmn.Command

/-- Where a module looks for the modules in it: it holds none, it has a list of places, or what it has
is no such list. -/
inductive Places where
  | none
  | listed
  | unreadable
  deriving DecidableEq

/-- A module provides behaviours by its attributes: the given ones and those that every module has. -/
structure BehaviourModule where
  members : Fields Json
  places : Places
  /-- Whether its attributes can be listed. -/
  isListable : Bool
  /-- Whether it can be asked for an attribute that it lacks. -/
  admitsLack : Bool

end Bpmn.Command
