import Bpmn.Json.Items
import Bpmn.Json.Printer

namespace Bpmn

/-- Behaviours under keys, which may be any plain values.  Keys of equal value are one key: it keeps its place and
the form in which it was put first. -/
abbrev Registry := List (Json × Json)

namespace Registry

/-- What is known under a key. -/
def get? (registry : Registry) (key : Json) : Option Json :=
  (registry.find? fun (known, _) => known.sameKey key).map (·.2)

/-- Replaces what is known under a key, or adds the key at the end. -/
def put : Registry → Json → Json → Registry
  | [], key, behaviour => [(key, behaviour)]
  | (known, b) :: rest, key, behaviour =>
    if known.sameKey key then (known, behaviour) :: rest
    else (known, b) :: put rest key behaviour

def remove (registry : Registry) (key : Json) : Registry :=
  registry.filter fun (known, _) => !known.sameKey key

/-- A key as the name of a field. -/
def fieldName : Json → String
  | .str s => s
  | key => key.render none

/-- Whether keys can be put in order: a single key, texts alone and numbers alone. -/
def areOrdered (keys : List Json) : Bool :=
  keys.length < 2 || keys.all (·.number?.isSome) ||
    keys.all fun key => key.number?.isNone && !key.isNull

/-- The registry as an object, whose fields have an order to be written in. -/
def toJson (registry : Registry) : Except Fault Json :=
  if areOrdered (registry.map (·.1)) then
    .ok (.obj (registry.map fun (key, behaviour) => (fieldName key, behaviour)))
  else .error .unordered

end Registry

/-- A change of a registry. -/
inductive RegistryChange where
  | put (key behaviour : Json)
  | remove (key : Json)

/-- The change that a row of a key and a value asks for. -/
def RegistryChange.ofRow (row : Json) : Except Fault RegistryChange := do
  match ← row.pair with
  | (key, .str "@delete") => return remove key
  | (key, behaviour) => return put key behaviour

/-- Changes a registry.  Only what can be a key is put, and only such a key is looked for among others. -/
def RegistryChange.apply (registry : Registry) : RegistryChange → Except Fault Registry
  | put key behaviour =>
    if key.isKey then .ok (registry.put key behaviour) else .error .notAKey
  | remove key =>
    if registry.isEmpty || key.isKey then .ok (registry.remove key) else .error .notAKey

end Bpmn
