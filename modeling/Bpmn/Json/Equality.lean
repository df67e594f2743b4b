import Bpmn.Json.Basic

namespace Bpmn.Json

/-- Whether two plain values have one form: `1`, `1.0` and `true` have three. -/
def sameForm : Json → Json → Bool
  | .bool _, .bool _ => true
  | .num (.int _), .num (.int _) => true
  | .num (.float _), .num (.float _) => true
  | a, b => a.number?.isNone && b.number?.isNone

mutual

/-- Whether two values agree, given when plain values do. -/
def agree (plain : Json → Json → Bool) : Json → Json → Bool
  | .arr items, .arr others => agreeItems plain items others
  | .obj fields, .obj others => fields.length == others.length && agreeFields plain fields others
  | a, b => plain a b

def agreeItems (plain : Json → Json → Bool) : List Json → List Json → Bool
  | [], [] => true
  | a :: rest, b :: others => agree plain a b && agreeItems plain rest others
  | _, _ => false

/-- Whether each of some fields is there among others and agrees. -/
def agreeFields (plain : Json → Json → Bool) :
    List (String × Json) → List (String × Json) → Bool
  | [], _ => true
  | (key, a) :: rest, others =>
    (match Fields.get? others key with
      | some b => agree plain a b
      | none => false) && agreeFields plain rest others

end

/-- Equality by value. -/
def same (a b : Json) : Bool := a.agree sameKey b

/-- Equality by value and form. -/
def alike (a b : Json) : Bool := a.agree (fun a b => sameForm a b && sameKey a b) b

mutual

/-- Whether one of two values goes before the other, if they can be put in order. -/
def precedes? : Json → Json → Option Bool
  | .str a, .str b => some (decide (a < b))
  | .arr items, .arr others => precedesItems? items others
  | a, b =>
    match a.number?, b.number? with
    | some a, some b => some (a.below b)
    | _, _ => none

def precedesItems? : List Json → List Json → Option Bool
  | [], others => some !others.isEmpty
  | _, [] => some false
  | a :: rest, b :: others =>
    if a.same b then precedesItems? rest others else precedes? a b

end

end Bpmn.Json
