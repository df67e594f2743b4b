import Bpmn.Checked
import Bpmn.Document.Equality
import Bpmn.Order
import Bpmn.Json.Shown

namespace Bpmn

namespace Value

/-- The step to a field of this key.  A number beyond the signed words of 64 bits and what is no number
are named by their text. -/
def step : Value → Step
  | .str s => .field s
  | .bool b => .key (if b then 1 else 0)
  | .num (.int i) => if -wordBound ≤ i ∧ i < wordBound then .key i else .field (Number.int i).shown
  | v => .field v.plain.shown

end Value

/-- Values under keys, numbers among the keys by their value.  A key that is given again keeps its place and its
first form and finds the last value. -/
abbrev Index := List (Value × Value)

namespace Index

def empty : Index := []

/-- What stands under a key, null when nothing does. -/
def find (index : Index) (key : Value) : Value :=
  match List.find? (fun entry => entry.1.sameKey key) index with
  | some (_, value) => value
  | none => .null

/-- Replaces what stands under a key, or adds the key at the end. -/
def put : Index → Value → Value → Index
  | [], key, value => [(key, value)]
  | (k, v) :: rest, key, value =>
    if k.sameKey key then (k, value) :: rest else (k, v) :: put rest key value

/-- The index of an object's fields by their names. -/
def ofFields (fields : Fields Value) : Index := fields.map fun (name, value) => (.str name, value)

/-- Every key has to be a text. -/
def checkKeys (index : Index) : Checked Unit :=
  match index.filter (·.1.text?.isNone) with
  | [] => .valid ()
  | others => .invalid (others.map fun (key, _) => ⟨[key.step], .notTextKey⟩)

/-- The keys in order, texts by their characters or numbers by value; one key alone needs no order. -/
def sortedKeys (index : Index) : Except Fault (List Value) :=
  let keys := index.map (·.1)
  if keys.length ≤ 1 then .ok keys
  else
    match keys.mapM Value.text?, keys.mapM Value.number? with
    | some texts, _ => .ok ((texts.mergeSort fun a b => decide (a ≤ b)).map .str)
    | none, some numbers =>
      let numbered := numbers.zip keys
      .ok ((Order.sort (fun a b => a.1.below b.1) numbered).map (·.2))
    | none, none => .error .unordered

variable (g : Graph)

/-- An index with the pair that a value of two items is, at its place in a list of pairs. -/
def addPair (index : Index) (place : Nat) (v : Value) : Except Fault Index := do
  let parts ← g.items v
  match parts with
  | [key, value] => return index.put (← key.asKey) value
  | _ => throw (.notAPair place parts.length)

/-- An index with the pairs of a list, of which the first stands at a place. -/
def addPairs (index : Index) : Nat → List Value → Except Fault Index
  | _, [] => return index
  | place, v :: rest => do addPairs (← addPair g index place v) (place + 1) rest

/-- The index of an object's fields, or what a list of pairs says. -/
def ofValue (v : Value) : Except Fault Index :=
  match g.orAbsent v with
  | none => .ok empty
  | some (.node place) => .ok (ofFields (g.fields place))
  | some v => do addPairs g empty 0 (← g.items v)

end Index

end Bpmn
