import Bpmn.Document.Graph

namespace Bpmn

namespace Value

/-- The number a value stands for in comparisons. -/
def number? (v : Value) : Option Number := v.plain.number?

def text? : Value → Option String
  | .str s => some s
  | _ => none

def isNaN : Value → Bool
  | .num (.float .nan) => true
  | _ => false

/-- Equality of plain values as keys. -/
def sameKey (a b : Value) : Bool := a.plain.sameKey b.plain

end Value

namespace Graph

variable (g : Graph)

/-- Whether the items of two lists are alike, one by one. -/
def alikeItems (alike : Value → Value → Except Fault Bool) :
    List Value → List Value → Except Fault Bool
  | x :: xs, y :: ys => do if ← alike x y then alikeItems alike xs ys else return false
  | xs, ys => .ok (xs.length = ys.length)

/-- Whether each of some fields is there among others and alike. -/
def alikeFields (alike : Value → Value → Except Fault Bool) (others : Fields Value) :
    Fields Value → Except Fault Bool
  | [] => .ok true
  | (key, x) :: rest =>
    match others.get? key with
    | none => .ok false
    | some y => do if ← alike x y then alikeFields alike others rest else return false

/-- Values are compared down to so many lists and objects inside one another; what goes on below has
no end.  A comparison, unlike a copy, does not know which objects it is inside: of two values that lead back
into themselves it has no result, and only the stack of its interpreter ends it. -/
def comparableDepth : Nat := 900

/-- Whether two values are alike, down to a depth. -/
def alike : Nat → Value → Value → Except Fault Bool
  | depth, .list p, .list q =>
    if p = q then .ok true
    else if (g.listed p).length = (g.listed q).length then
      match depth with
      | 0 => .error .endlessNesting
      | depth + 1 => alikeItems (alike depth) (g.listed p) (g.listed q)
    else .ok false
  | depth, .node p, .node q =>
    if p = q then .ok true
    else if (g.fields p).length = (g.fields q).length then
      match depth with
      | 0 => .error .endlessNesting
      | depth + 1 => alikeFields (alike depth) (g.fields q) (g.fields p)
    else .ok false
  | _, a, b => .ok (a.sameKey b)

/-- Equality of values. -/
def same (a b : Value) : Except Fault Bool :=
  if a.isNaN then .ok false else g.alike comparableDepth a b

end Graph

end Bpmn
