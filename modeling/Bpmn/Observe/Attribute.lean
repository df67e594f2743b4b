import Bpmn.Fault
import Bpmn.Json.Equality

namespace Bpmn

namespace Attribute

/-- A value in place of an attribute that may be left out. -/
def given? (j : Json) : Option Json := if j.truthy then some j else none

mutual

/-- The value that is kept. -/
def clean : Json → Except Fault Json
  | .arr items => .arr <$> cleanItems items
  | .obj fields => .obj <$> cleanFields fields
  | .endless => .error .endlessNesting
  | j => .ok j

def cleanItems : List Json → Except Fault (List Json)
  | [] => .ok []
  | item :: rest => do return (← clean item) :: (← cleanItems rest)

def cleanFields : List (String × Json) → Except Fault (List (String × Json))
  | [] => .ok []
  | (key, value) :: rest =>
    if key.isEmpty then cleanFields rest
    else do return (key, ← clean value) :: (← cleanFields rest)

end

mutual

/-- How many fields of a value are dropped. -/
def nameless : Json → Nat
  | .arr items => namelessItems items
  | .obj fields => namelessFields fields
  | _ => 0

def namelessItems : List Json → Nat
  | [] => 0
  | item :: rest => nameless item + namelessItems rest

def namelessFields : List (String × Json) → Nat
  | [] => 0
  | (key, value) :: rest =>
    (if key.isEmpty then 1 else nameless value) + namelessFields rest

end

/-- The warning on a field that is dropped. -/
def dropWarning : String :=
  "invalid attribute key ``. must be non-empty string. Dropping key from attributes."

/-- The warnings on a value. -/
def warnings (j : Json) : List String := List.replicate (nameless j) dropWarning

/-- Why a value cannot be kept. -/
def refusal? (j : Json) : Option Fault :=
  match clean j with
  | .ok _ => none
  | .error fault => some fault

/-- The value that is kept, null for one that cannot be. -/
def kept (j : Json) : Json := (clean j).toOption.getD .null

end Attribute

/-- Named attributes in the order of their names. -/
abbrev Attributes := List (String × Json)

namespace Attributes

/-- Why some attributes cannot be kept. -/
def refusal? (attributes : Attributes) : Option Fault :=
  attributes.findSome? fun (_, value) => Attribute.refusal? value

/-- The warnings on attributes, of which some may not be kept at all. -/
def warnings (attributes : Attributes) : List String :=
  if (refusal? attributes).isSome then []
  else attributes.flatMap fun (_, value) => Attribute.warnings value

/-- The attributes as they are kept. -/
def kept (attributes : Attributes) : Attributes :=
  attributes.map fun (name, value) => (name, Attribute.kept value)

/-- Attributes as a list of pairs. -/
def toJson (attributes : Attributes) : Json :=
  .arr (attributes.map fun (name, value) => .arr [.str name, value])

end Attributes

end Bpmn
