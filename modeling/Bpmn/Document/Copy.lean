import Bpmn.Document.Graph
import Bpmn.Document.Keys

namespace Bpmn.Graph

variable (g : Graph)

/-- What stands for an object inside itself; the three values are taken as they are. -/
def describe (place : Nat) : Json :=
  let raw (key : String) : Json := g.unfold (g.field place key)
  .obj [("id", raw "id"), ("type", raw "$type"), ("name", raw "name")]

/-- The fields of an object that are its own, in order. -/
def ownEntries (place : Nat) : Fields Value := (g.fields place).filter fun (key, _) => Key.isOwn key

/-- A copy of a value that is met inside the objects on a path. -/
def copyValue : Nat → List Nat → Value → Except Fault Json
  | 0, _, _ => .error .endlessNesting
  | depth + 1, path, .list place => do
    return .arr (← (g.listed place).mapM (copyValue depth path))
  | depth + 1, path, .node place => do
    if path.contains place then return g.describe place
    let inside := place :: path
    return .obj (← (g.ownEntries place).mapM fun (key, v) =>
      return (key, ← copyValue depth inside v))
  | _ + 1, _, v => .ok v.plain

/-- More than the longest way that meets no object twice and no list twice between two objects.  A copy has no
bound of its own: how much stack an interpreter has for one is no part of what a copy is. -/
def copyBound : Nat := (g.contents.size + 1) * (g.contents.size + 1)

/-- A copy of the own fields of the object at a place. -/
def ownFieldsAt (place : Nat) : Except Fault (List (String × Json)) :=
  (g.ownEntries place).mapM fun (key, v) => return (key, ← g.copyValue g.copyBound [place] v)

/-- A copy of an element's own fields, empty for a missing element. -/
def ownFields (v : Value) : Except Fault (List (String × Json)) :=
  match g.orAbsent v with
  | none => .ok []
  | some v => do g.ownFieldsAt (← placeOf v)

end Bpmn.Graph
