import Bpmn.Fault
import Bpmn.Json.Basic
import Std.Data.TreeMap.Basic

namespace Bpmn

/-- A value of a document. -/
inductive Value where
  | null
  | bool (b : Bool)
  | num (n : Number)
  | str (s : String)
  | list (place : Nat)
  | node (place : Nat)
  deriving Inhabited, DecidableEq

/-- What stands at a place: the items of a list, or the fields of an object in order. -/
inductive Content where
  | list (items : List Value)
  | object (fields : Fields Value)
  deriving Inhabited

/-- The lists and objects of a document. -/
structure Graph where
  contents : Array Content

namespace Value

def isNull : Value → Bool
  | .null => true
  | _ => false

def nonNull? : Value → Option Value
  | .null => none
  | v => some v

def isText (v : Value) (text : String) : Bool :=
  match v with
  | .str s => s == text
  | _ => false

/-- A value that can be looked up; lists and objects cannot. -/
def asKey : Value → Except Fault Value
  | .list _ => .error .notAKey
  | .node _ => .error .notAKey
  | v => .ok v

/-- Whether the value is one of some texts; a list or an object cannot be looked up. -/
def isOneOf (v : Value) (texts : List String) : Except Fault Bool := do
  match ← v.asKey with
  | .str s => return texts.contains s
  | _ => return false

/-- A plain value as JSON; a list or an object is cut off. -/
def plain : Value → Json
  | .null => .null
  | .bool b => .bool b
  | .num n => .num n
  | .str s => .str s
  | .list _ => .endless
  | .node _ => .endless

end Value

/-- What the lists and objects at some places have been unfolded to. -/
abbrev Unfolded := Std.TreeMap Nat Json

/-- The unfolding of what stands at a place, which is made only once. -/
def Unfolded.once (place : Nat) (make : StateT Unfolded Option Json) :
    StateT Unfolded Option Json := do
  match (← get)[place]? with
  | some j => return j
  | none =>
    let j ← make
    modify fun known => known.insert place j
    return j

namespace Graph

variable (g : Graph)

/-- The items of the list at a place; there are none where no list stands. -/
def listed (place : Nat) : List Value :=
  match g.contents[place]? with
  | some (.list items) => items
  | _ => []

/-- The fields of the object at a place; there are none where no object stands. -/
def fields (place : Nat) : Fields Value :=
  match g.contents[place]? with
  | some (.object fields) => fields
  | _ => []

/-- Null, false, zero and everything empty count as false. -/
def truthy : Value → Bool
  | .null => false
  | .bool b => b
  | .num n => !n.isZero
  | .str s => !s.isEmpty
  | .list place => !(g.listed place).isEmpty
  | .node place => !(g.fields place).isEmpty

/-- A value that counts as false is taken as absent. -/
def orAbsent (v : Value) : Option Value := if g.truthy v then some v else none

/-- A field of the object at a place, null when missing. -/
def field (place : Nat) (key : String) : Value := ((g.fields place).get? key).getD .null

/-- The place of a value that has to be an object. -/
def placeOf : Value → Except Fault Nat
  | .node place => .ok place
  | _ => .error .notAnObject

/-- A field of an object, null when missing. -/
def get (v : Value) (key : String) : Except Fault Value := do
  return g.field (← placeOf v) key

/-- The items of a list; a text gives its characters and an object its keys. -/
def items : Value → Except Fault (List Value)
  | .list place => .ok (g.listed place)
  | .str s => .ok (s.toList.map fun c => .str c.toString)
  | .node place => .ok ((g.fields place).keys.map .str)
  | _ => .error .notIterable

/-- The items of a value that may be absent. -/
def itemsOrNone (v : Value) : Except Fault (List Value) :=
  match g.orAbsent v with
  | some v => g.items v
  | none => .ok []

/-- The namespaced type of an element; null has none. -/
def typeOf (v : Value) : Except Fault Value :=
  match v with
  | .null => .ok .null
  | v => g.get v "$type"

/-- The identifier of a referring element; a missing element has none. -/
def idOf (v : Value) : Except Fault Value :=
  match g.orAbsent v with
  | some v => g.get v "id"
  | none => .ok .null

/-- A value with everything in it written out, none if it goes on below a depth. -/
def unfoldWithin : Nat → Value → StateT Unfolded Option Json
  | 0, _ => failure
  | depth + 1, .list place =>
    Unfolded.once place do return .arr (← (g.listed place).mapM (unfoldWithin depth))
  | depth + 1, .node place =>
    Unfolded.once place do
      return .obj (← (g.fields place).mapM fun (key, v) => return (key, ← unfoldWithin depth v))
  | _ + 1, v => return v.plain

/-- More than the longest way into a value that meets no place twice. -/
def depthBound : Nat := g.contents.size + 2

/-- A value with everything in it written out; one that leads back into itself has no end. -/
def unfold (v : Value) : Json := ((g.unfoldWithin g.depthBound v).run' ∅).getD .endless

/-- A value written out some levels down, even if it has no end further below. -/
def unfoldDown : Nat → Value → Json
  | 0, v => g.unfold v
  | levels + 1, .list place => .arr ((g.listed place).map (unfoldDown levels))
  | levels + 1, .node place =>
    .obj ((g.fields place).map fun (key, v) => (key, unfoldDown levels v))
  | _ + 1, v => v.plain

/-- A graph with something at one place more, and that place. -/
def push (content : Content) : Graph × Nat :=
  let place := g.contents.size
  (⟨g.contents.push content⟩, place)

mutual

/-- Adds a JSON value, each list and object at a place of its own behind those inside it. -/
def add (g : Graph) : Json → Graph × Value
  | .null => (g, .null)
  | .bool b => (g, .bool b)
  | .num n => (g, .num n)
  | .str s => (g, .str s)
  | .arr items =>
    let (g, items) := addItems g items
    let (g, place) := g.push (.list items)
    (g, .list place)
  | .obj fields =>
    let (g, fields) := addFields g fields
    let (g, place) := g.push (.object fields)
    (g, .node place)
  | .endless => (g, .null)
  | .operation => (g, .null)

def addItems (g : Graph) : List Json → Graph × List Value
  | [] => (g, [])
  | item :: rest =>
    let (g, item) := g.add item
    let (g, rest) := addItems g rest
    (g, item :: rest)

def addFields (g : Graph) : List (String × Json) → Graph × Fields Value
  | [] => (g, [])
  | (key, value) :: rest =>
    let (g, value) := g.add value
    let (g, rest) := addFields g rest
    (g, (key, value) :: rest)

end

def empty : Graph := ⟨#[]⟩

/-- A JSON value as a document without shared objects. -/
def ofJson (j : Json) : Graph × Value := empty.add j

end Graph

end Bpmn
