import Bpmn.Resolution.Registry

namespace Bpmn

/-- Knows the behaviour of a type: by the whole type in a registry, or by the part behind the first colon of its
name in a flat table.  A null entry counts as missing. -/
structure Resolver where
  registry : Registry
  types : Fields Json

namespace Resolver

/-- The part of a type behind its first colon. -/
def unprefixed (type : String) : Option String :=
  match type.toList.dropWhile (· != ':') with
  | [] => none
  | _ :: rest => some (String.ofList rest)

/-- An entry that is there and not null. -/
def known? (table : Fields Json) (key : String) : Option Json := (table.get? key).bind Json.nonNull?

/-- The behaviour of a type; the registry wins.  What counts as false is no type that anyone knows, and
only a text has a part behind a colon. -/
def lookup (r : Resolver) (type : Json) : Except Fault Json :=
  if !type.truthy then .error (.unknownType type)
  else if !type.isKey then .error .notAKey
  else
    match (Registry.get? r.registry type).bind Json.nonNull?, type with
    | some behaviour, _ => .ok behaviour
    | none, .str name =>
      match (unprefixed name).bind (known? r.types) with
      | some behaviour => .ok behaviour
      | none => .error (.unknownType type)
    | none, _ => .error .notAnObject

/-- The behaviour of what implements a service. -/
def service (r : Resolver) : Json := (r.types.get? "ServiceImplementation").getD .null

/-- Types whose full name does not lead to the name of their behaviour. -/
def renamed : List (String × String) :=
  [("bpmn:DataObjectReference", "Dummy"), ("bpmn:Definitions", "Definition"),
    ("bpmn:Error", "BpmnError")]

/-- The registry before it is extended. -/
def standard (types : Fields Json) : Registry :=
  renamed.filterMap fun (type, name) =>
    (known? types name).map fun behaviour => (.str type, behaviour)

/-- A resolver for flat types. -/
def ofTypes (types : Fields Json) : Resolver := ⟨standard types, types⟩

/-- A resolver for flat types with an extended registry. -/
def setUp (types : Fields Json) (extend : Registry → Except Fault Registry) : Except Fault Resolver := do
  let r := ofTypes types
  return { r with registry := ← extend r.registry }

/-- The types that a namespace shows: names with a leading underscore are private. -/
def visible (types : Fields Json) : Fields Json :=
  types.filter fun (name, _) => name.toList.head? != some '_'

def readyText (r : Resolver) : String :=
  s!"Type resolver ready: {r.registry.length} registered, {r.types.length} flat types"

end Resolver

end Bpmn
