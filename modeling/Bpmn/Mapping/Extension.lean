import Bpmn.Mapping.Scope

namespace Bpmn.Extension

variable (g : Graph)

/-- Whether a rule agrees with an element on a key, if the rule has it. -/
def agrees (rule place : Nat) (key elementKey : String) : Bool :=
  match Fields.get? (g.fields rule) key with
  | none => true
  | some wanted => (g.same wanted (g.field place elementKey)).toOption == some true

def applies (rule place : Nat) : Bool :=
  agrees g rule place "type" "$type" && agrees g rule place "id" "id"

/-- A request is a pair of a name and a script. -/
def request (v : Value) : Except Fault ScriptRequest := do
  match ← g.items v with
  | [name, script] => return ⟨name, script⟩
  | [] => throw (.tooFewItems 0)
  | [_] => throw (.tooFewItems 1)
  | _ => throw .tooManyItems

/-- What is asked for item by item; a value without items asks for nothing that can be had. -/
def each {α : Type} (v : Value) (read : Value → List (Except Fault α)) : List (Except Fault α) :=
  match g.items v with
  | .ok items => items.flatMap read
  | .error fault => [.error fault]

/-- The requests of a rule for an element. -/
def ofRule (place : Nat) : Value → List (Except Fault ScriptRequest)
  | .node rule =>
    if !applies g rule place then []
    else
      match Fields.get? (g.fields rule) "add" with
      | none => [.error .lacksKey]
      | some requests => each g requests fun v => [request g v]
  | _ => [.error .notIterable]

def ofRules (rules : Value) : Extension := fun _ place => each g rules (ofRule g place)

end Bpmn.Extension
