namespace Bpmn

/-- The mantissas and exponents of the grid, each magnitude having one pair. -/
abbrev Canonical (mantissa exponent : Nat) : Prop :=
  mantissa < Nat.pow 2 53 ∧ exponent ≤ 2045 ∧ (Nat.pow 2 52 ≤ mantissa ∨ exponent = 0)

/-- A finite magnitude, `mantissa · 2^exponent` in units of `2^-1074`. -/
structure Magnitude where
  mantissa : Nat
  exponent : Nat
  canonical : Canonical mantissa exponent
  deriving DecidableEq

namespace Magnitude

def zero : Magnitude := ⟨0, 0, by decide⟩

/-- The magnitude as a whole number of units. -/
def units (x : Magnitude) : Nat := x.mantissa * Nat.pow 2 x.exponent

/-- The pair as a magnitude when it lies on the grid. -/
def ofParts? (mantissa exponent : Nat) : Option Magnitude :=
  if h : Canonical mantissa exponent then some ⟨mantissa, exponent, h⟩ else none

/-- The whole number nearest to `n / d`; a half goes to the even neighbour. -/
def roundHalfEven (n d : Nat) : Nat :=
  let q := n / d
  let r := n % d
  if 2 * r < d ∨ (2 * r = d ∧ q % 2 = 0) then q else q + 1

/-- The magnitude nearest to `num / den`, none beyond the largest.  A mantissa that rounds up to
`2^53` is the first one of the next exponent. -/
def ofRatio (num den : Nat) : Option Magnitude :=
  let scaled := num * Nat.pow 2 1074
  let exponent := (scaled / den).log2 - 52
  let mantissa := roundHalfEven scaled (den * Nat.pow 2 exponent)
  ofParts? mantissa exponent <|> ofParts? (mantissa / 2) (exponent + 1)

end Magnitude

/-- A binary64 number. -/
inductive Binary64 where
  | finite (negative : Bool) (magnitude : Magnitude)
  | infinite (negative : Bool)
  | nan
  deriving DecidableEq

namespace Binary64

def isFinite : Binary64 → Bool
  | finite .. => true
  | _ => false

def isZero : Binary64 → Bool
  | finite _ m => m.mantissa == 0
  | _ => false

/-- The value as a signed number of units, none when it is not finite. -/
def units? : Binary64 → Option Int
  | finite negative m => some (if negative then -(m.units : Int) else m.units)
  | _ => none

/-- The number nearest to so many units; beyond the largest magnitude it is infinite. -/
def ofUnits (negative : Bool) (units : Nat) : Binary64 :=
  match Magnitude.ofRatio units (Nat.pow 2 1074) with
  | some m => finite negative m
  | none => infinite negative

/-- The sum, rounded.  Of two finite numbers that cancel out it is a positive zero. -/
def add : Binary64 → Binary64 → Binary64
  | nan, _ => nan
  | _, nan => nan
  | infinite a, infinite b => if a = b then infinite a else nan
  | infinite a, finite .. => infinite a
  | finite .., infinite b => infinite b
  | finite a m, finite b n =>
    if a = b then ofUnits a (m.units + n.units)
    else if n.units < m.units then ofUnits a (m.units - n.units)
    else if m.units < n.units then ofUnits b (n.units - m.units)
    else ofUnits false 0

/-- How many units make one. -/
def one : Int := Int.ofNat (Nat.pow 2 1074)

/-- The value as an integer, none when it is not one. -/
def toInt? (x : Binary64) : Option Int :=
  x.units?.bind fun u => if u % one = 0 then some (u / one) else none

end Binary64

end Bpmn
