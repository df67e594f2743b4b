import Bpmn.Fault

namespace Bpmn

/-- A value, or all issues that a check has with it.  Checks side by side report the issues of each in order, so
this is applicative and no monad. -/
inductive Checked (α : Type) where
  | valid (value : α)
  | invalid (issues : List Issue)

namespace Checked

variable {α β : Type}

def issues : Checked α → List Issue
  | valid _ => []
  | invalid issues => issues

def map (f : α → β) : Checked α → Checked β
  | valid a => valid (f a)
  | invalid issues => invalid issues

/-- Applies a checked function; the issues of the function come first. -/
def apply : Checked (α → β) → Checked α → Checked β
  | valid f, a => a.map f
  | invalid issues, a => invalid (issues ++ a.issues)

instance : Applicative Checked where
  map := map
  pure := valid
  seq f a := apply f (a ())

/-- One issue, right where the check stands. -/
def wrong (mismatch : Mismatch) : Checked α := invalid [⟨[], mismatch⟩]

/-- The check of a part, its issues placed under a step. -/
def under (step : Step) : Checked α → Checked α
  | valid a => valid a
  | invalid issues => invalid (issues.map fun issue => { issue with path := step :: issue.path })

/-- The checks of a list's items, each under its index. -/
def items (start : Nat) : List (Checked α) → Checked (List α)
  | [] => valid []
  | item :: rest => List.cons <$> item.under (.item start) <*> items (start + 1) rest

/-- The value, or a fault that names what was checked. -/
def orFault (fault : List Issue → Fault) : Checked α → Except Fault α
  | valid a => .ok a
  | invalid issues => .error (fault issues)

/-- The value, or the fault that a value is no such model. -/
def as (model : Model) (checked : Checked α) : Except Fault α :=
  checked.orFault (.invalid model .value)

end Checked

end Bpmn
