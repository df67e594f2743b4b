import Bpmn.Issue
import Bpmn.Json.Shown

namespace Bpmn

def Step.toJson : Step → Json
  | field name => .str name
  | item index => .ofNat index
  | key n => .ofInt n

/-- An issue as it is reported. -/
def Issue.toJson (origin : Origin) (issue : Issue) : Json :=
  .obj ([("loc", .arr (issue.path.map Step.toJson)), ("type", .str issue.mismatch.code)] ++
    (issue.mismatch.message? origin).toList.map fun message => ("msg", .str message))

/-- Why a document, a snapshot or a resolution is refused.  A fault that comes from the shape of a value has no
wording of its own. -/
inductive Fault where
  /-- A field was asked of a value that has no fields. -/
  | notAnObject
  /-- Items were asked of a value that has none. -/
  | notIterable
  /-- A list or an object was used as a key. -/
  | notAKey
  /-- A table lacks what it was asked for. -/
  | lacksKey
  /-- A list or a text has no item of an index. -/
  | outside
  /-- Values of different kinds were put in order. -/
  | unordered
  /-- An amount that is no number. -/
  | notANumber
  /-- A whole number beyond all floats. -/
  | tooLarge
  /-- Nothing was given to resolve types with. -/
  | noResolver
  /-- A null stood among texts to be joined. -/
  | nullText
  /-- Containment leads back into itself. -/
  | endlessNesting
  /-- A value without an end was written. -/
  | circular
  /-- A value that is nested too deep was written. -/
  | tooDeep
  /-- An integer of too many digits was written in a text. -/
  | tooLong
  /-- What a value can do was written. -/
  | unwritable
  /-- An indent beyond what can be counted. -/
  | unfitIndent
  /-- An indent beyond what can be held. -/
  | noMemory
  /-- A line of a log that looks like a record and is none. -/
  | badRecord
  /-- An entry of a list of pairs that is no pair. -/
  | notAPair (index length : Nat)
  /-- So many items stood for a pair. -/
  | tooFewItems (count : Nat)
  | tooManyItems
  /-- An object does not have the form of its model. -/
  | invalid (model : Model) (origin : Origin) (issues : List Issue)
  /-- A snapshot that is no context. -/
  | unreadable (origin : Origin) (issues : List Issue)
  /-- No behaviour is known for a type. -/
  | unknownType (type : Json)
  | noRoot
  /-- Objects of a model have no field of a name. -/
  | noField (model : Model) (field : String)
  | unknownLevel (name : String)
  /-- Stopped from outside, with a message. -/
  | stopped (message : String)

namespace Fault

/-- The wording of a fault, where there is one; of a list of issues its heading. -/
def message? : Fault → Option String
  | noRoot => some "Moddle context has no root element"
  | unknownType type => some ("Unknown activity type " ++ type.shown)
  | noField model field => some s!"\"{model.name}\" object has no field \"{field}\""
  | unknownLevel name => some s!"Level '{name}' does not exist"
  | circular => some "Circular reference detected (id repeated)"
  | tooDeep => some "Circular reference detected (depth exceeded)"
  | tooLong =>
    some (s!"Exceeds the limit ({digitLimit} digits) for integer string conversion; " ++
      "use sys.set_int_max_str_digits() to increase the limit")
  | notAPair index length =>
    some s!"dictionary update sequence element #{index} has length {length}; 2 is required"
  | tooFewItems count => some s!"not enough values to unpack (expected 2, got {count})"
  | tooManyItems => some "too many values to unpack (expected 2)"
  | stopped message => some message
  | invalid model _ issues =>
    let errors := if issues.length = 1 then "error" else "errors"
    some s!"{issues.length} validation {errors} for {model.name}"
  | _ => none

/-- The class of a fault. -/
def name : Fault → String
  | notAnObject => "AttributeError"
  | notIterable | notAKey | noResolver | nullText | unordered | notANumber | unwritable => "TypeError"
  | lacksKey => "KeyError"
  | outside => "IndexError"
  | tooLarge | unfitIndent => "OverflowError"
  | noMemory => "MemoryError"
  | badRecord => "JSONDecodeError"
  | endlessNesting => "RecursionError"
  | invalid .. => "ValidationError"
  | unreadable .. => "DeserializationError"
  | unknownType _ => "UnknownTypeError"
  | _ => "ValueError"

end Fault

end Bpmn
