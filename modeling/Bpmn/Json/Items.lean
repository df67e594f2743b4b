import Bpmn.Fault

namespace Bpmn.Json

def items : Json → Except Fault (List Json)
  | .arr items => .ok items
  | .str s => .ok (s.toList.map fun c => .str c.toString)
  | .obj fields => .ok (fields.map fun (key, _) => .str key)
  | _ => .error .notIterable

/-- The two items of a value that has just two. -/
def pair (j : Json) : Except Fault (Json × Json) := do
  match ← j.items with
  | [a, b] => return (a, b)
  | [] => throw (.tooFewItems 0)
  | [_] => throw (.tooFewItems 1)
  | _ => throw .tooManyItems

/-- The value of a field that has to be there. -/
def member (j : Json) (key : String) : Except Fault Json :=
  match j with
  | .obj fields =>
    match Fields.get? fields key with
    | some value => .ok value
    | none => .error .lacksKey
  | _ => .error .notIterable

end Bpmn.Json
