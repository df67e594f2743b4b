import Bpmn.Document.Graph
import Bpmn.Json.Shown

namespace Bpmn.Graph

variable (g : Graph)

/-- A value as messages show it inside the lists and objects on a path. -/
def shownInside : Nat → List Nat → Value → String
  | 0, _, v => v.plain.shownInside
  | depth + 1, path, .list place =>
    if path.contains place then "[...]"
    else
      let items := (g.listed place).map (shownInside depth (place :: path))
      "[" ++ ", ".intercalate items ++ "]"
  | depth + 1, path, .node place =>
    if path.contains place then "\x7b...\x7d"
    else
      let fields := (g.fields place).map fun (key, v) =>
        Text.quoted key ++ ": " ++ shownInside depth (place :: path) v
      "\x7b" ++ ", ".intercalate fields ++ "\x7d"
  | _ + 1, _, v => v.plain.shownInside

/-- A value as messages show it; a text stands for itself. -/
def shown (v : Value) : String :=
  match v with
  | .str s => s
  | v => g.shownInside g.depthBound [] v

end Bpmn.Graph
