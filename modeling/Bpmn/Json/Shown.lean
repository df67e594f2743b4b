import Bpmn.Json.Printer
import Bpmn.Text.Quoted
import Bpmn.Text.Shown

namespace Bpmn

def Number.shown : Number → String
  | float .nan => "nan"
  | float (.infinite negative) => if negative then "-inf" else "inf"
  | n => String.ofList n.text

namespace Json

mutual

/-- A value as messages show it inside others. -/
def shownInside : Json → String
  | .null => Bpmn.shown none
  | .bool true => "True"
  | .bool false => "False"
  | .num n => n.shown
  | .str s => Text.quoted s
  | .arr items => "[" ++ ", ".intercalate (shownItems items) ++ "]"
  | .obj fields => "\x7b" ++ ", ".intercalate (shownFields fields) ++ "\x7d"
  | .endless => "..."
  | .operation => "..."

def shownItems : List Json → List String
  | [] => []
  | item :: rest => item.shownInside :: shownItems rest

def shownFields : List (String × Json) → List String
  | [] => []
  | (key, value) :: rest => (Text.quoted key ++ ": " ++ value.shownInside) :: shownFields rest

end

/-- A value as messages show it. -/
def shown : Json → String
  | .str s => s
  | j => j.shownInside

end Json

end Bpmn
