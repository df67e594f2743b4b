import Bpmn.Text.Quoted

namespace Bpmn.Command

/-- Texts behind each other with commas between them. -/
def listed (texts : List String) : String := String.intercalate ", " texts

/-- Why a value is refused. -/
inductive BadValue where
  | notInteger (text : String)
  | notOneOf (text : String) (choices : List String)
  | noFile (path : String)
  | folder (path : String)
  | noModule (name reason : String)
  | noMember (moduleName member : String)

namespace BadValue

def message : BadValue → String
  | notInteger text => s!"{Text.quoted text} is not a valid integer."
  | notOneOf text choices =>
    s!"{Text.quoted text} is not one of {listed (choices.map Text.quoted)}."
  | noFile path => s!"File {Text.quoted path} does not exist."
  | folder path => s!"File {Text.quoted path} is a directory."
  | noModule name reason => s!"Cannot import {name}: {reason}"
  | noMember moduleName member => s!"{moduleName} has no attribute {member}"

end BadValue

/-- How arguments can be wrong. -/
inductive Misuse where
  | missingCommand
  | noCommand (name : String) (similar : List String)
  | noOption (name : String) (similar : List String)
  | noValue (option : String)
  | extraValue (option : String)
  | missingArgument (name : String)
  | extraArguments (arguments : List String)
  | badValue (hint : String) (reason : BadValue)

namespace Misuse

/-- Names that may have been meant. -/
def suggestion : List String → String
  | [] => ""
  | [one] => s!" Did you mean {Text.quoted one}?"
  | several =>
    let sorted := several.mergeSort fun a b => decide (a ≤ b)
    s!" (Did you mean one of: {listed (sorted.map Text.quoted)}?)"

def message : Misuse → String
  | missingCommand => "Missing command."
  | noCommand name similar => s!"No such command {Text.quoted name}." ++ suggestion similar
  | noOption name similar => s!"No such option {Text.quoted name}." ++ suggestion similar
  | noValue option => s!"Option {Text.quoted option} requires an argument."
  | extraValue option => s!"Option {Text.quoted option} does not take a value."
  | missingArgument name => s!"Missing argument '{name}'."
  | extraArguments arguments =>
    let word := if arguments.length = 1 then "argument" else "arguments"
    let shown := String.intercalate " " arguments
    s!"Got unexpected extra {word} ({shown})"
  | badValue hint reason => s!"Invalid value for {hint}: {reason.message}"

end Misuse

end Bpmn.Command
