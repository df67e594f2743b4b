import Bpmn.Command.Path
import Bpmn.Command.Usage
import Bpmn.Fault

namespace Bpmn.Command

/-- A failure that no message was prepared for. -/
inductive Crash where
  | fault (f : Fault)
  /-- A module is named relative to nothing. -/
  | relativeModule
  /-- A module has no list of places to look in. -/
  | unreadablePlaces
  /-- The attributes of a module cannot be listed. -/
  | unlistedAttributes
  /-- A module cannot be asked for an attribute that it lacks. -/
  | unansweredLack
  /-- A path with a character that no name may have. -/
  | unfitName
  /-- A file cannot be written. -/
  | unwritable (f : PathFault)
  /-- A document has half of a pair of units.  What becomes of it is not told. -/
  | loneHalf

/-- The class of a failure. -/
def Crash.name : Crash → String
  | fault f => f.name
  | relativeModule | unreadablePlaces | unlistedAttributes | unansweredLack => "TypeError"
  | unfitName => "ValueError"
  | unwritable f => f.name
  | loneHalf => "UnicodeError"

/-- Why a command stops early: something was refused, the command line is misused, or something failed that no
message was prepared for. -/
inductive Stop where
  | refused (message : String)
  | misuse (m : Misuse)
  | crash (c : Crash)

namespace Stop

/-- A fault with a wording is reported, any other is a crash. -/
def ofFault (f : Fault) : Stop :=
  match f.message? with
  | some message => refused message
  | none => crash (.fault f)

/-- A value that is refused where a hint names. -/
def badValue (hint : String) (reason : BadValue) : Stop := misuse (.badValue hint reason)

end Stop

end Bpmn.Command
