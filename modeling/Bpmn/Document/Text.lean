import Bpmn.Checked
import Bpmn.Document.Graph

namespace Bpmn

/-- A text or null, checked as the field of a name. -/
def Value.text (v : Value) (name : String) : Checked (Option String) :=
  match v with
  | .null => .valid none
  | .str s => .valid (some s)
  | _ => (Checked.wrong .notText).under (.field name)

namespace Graph

variable (g : Graph)

/-- The identifier of an object. -/
def idText (place : Nat) : Checked (Option String) := (g.field place "id").text "id"

/-- The namespaced type of an object. -/
def typeText (place : Nat) : Checked (Option String) := (g.field place "$type").text "type"

def nameText (place : Nat) : Checked (Option String) := (g.field place "name").text "name"

end Graph

end Bpmn
