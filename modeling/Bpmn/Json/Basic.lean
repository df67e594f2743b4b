import Bpmn.Fields
import Bpmn.Number.Basic

namespace Bpmn

/-- A value whose objects keep the order of their fields.  Besides what a text can denote there are two that count
as true and have no written form: the unfolding of an object that contains itself, and what a value can do. -/
inductive Json where
  | null
  | bool (b : Bool)
  | num (n : Number)
  | str (s : String)
  | arr (items : List Json)
  | obj (fields : List (String × Json))
  | endless
  | operation
  deriving Inhabited

namespace Json

def ofInt (i : Int) : Json := .num (.int i)

def ofNat (n : Nat) : Json := .num (.int n)

/-- A missing value is written as null. -/
def ofOption {α : Type} (f : α → Json) : Option α → Json
  | none => .null
  | some a => f a

def ofText : Option String → Json := ofOption .str

def ofTexts (texts : List String) : Json := .arr (texts.map .str)

def isNull : Json → Bool
  | .null => true
  | _ => false

/-- A null value counts as absent. -/
def nonNull? : Json → Option Json
  | .null => none
  | j => some j

/-- Null, false, zero and everything empty count as false. -/
def truthy : Json → Bool
  | .null => false
  | .bool b => b
  | .num n => !n.isZero
  | .str s => !s.isEmpty
  | .arr items => !items.isEmpty
  | .obj fields => !fields.isEmpty
  | .endless => true
  | .operation => true

mutual

/-- How many lists and objects are inside one another. -/
def depth : Json → Nat
  | .arr items => depthOfItems items + 1
  | .obj fields => depthOfFields fields + 1
  | _ => 0

def depthOfItems : List Json → Nat
  | [] => 0
  | item :: rest => max item.depth (depthOfItems rest)

def depthOfFields : List (String × Json) → Nat
  | [] => 0
  | (_, value) :: rest => max value.depth (depthOfFields rest)

end

mutual

/-- Whether no integer has more digits than a text may spell. -/
def isShort : Json → Bool
  | .num (.int i) => digitCount i.natAbs ≤ digitLimit
  | .arr items => areShort items
  | .obj fields => fieldsAreShort fields
  | _ => true

def areShort : List Json → Bool
  | [] => true
  | item :: rest => item.isShort && areShort rest

def fieldsAreShort : List (String × Json) → Bool
  | [] => true
  | (_, value) :: rest => value.isShort && fieldsAreShort rest

end

/-- Whether something can be kept under a value. -/
def isKey : Json → Bool
  | .arr _ => false
  | .obj _ => false
  | .endless => false
  | _ => true

def isText (j : Json) (text : String) : Bool :=
  match j with
  | .str s => s == text
  | _ => false

/-- The number a value stands for in comparisons: true is one and false is zero. -/
def number? : Json → Option Number
  | .bool b => some (.int (if b then 1 else 0))
  | .num n => some n
  | _ => none

/-- The whole number that a value stands for as an index or a count. -/
def whole? : Json → Option Int
  | .bool b => some (if b then 1 else 0)
  | .num (.int i) => some i
  | _ => none

/-- Equality of plain values as keys: numbers by value, and a NaN is itself. -/
def sameKey : Json → Json → Bool
  | .null, .null => true
  | .str a, .str b => a == b
  | .num (.float .nan), .num (.float .nan) => true
  | a, b =>
    match a.number?, b.number? with
    | some a, some b => a.same b
    | _, _ => false

end Json

end Bpmn
