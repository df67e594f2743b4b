import Bpmn.Number.Binary64

namespace Bpmn

/-- The number `digits · 10^exponent`. -/
structure Decimal where
  digits : Nat
  exponent : Int
  deriving DecidableEq

/-- How many decimal digits a number is written with. -/
def digitCount (n : Nat) : Nat := (Nat.toDigits 10 n).length

namespace Decimal

/-- The magnitude nearest to a decimal, none beyond the largest.  A decimal of more than 310 digits
before the point is beyond the largest, one with 330 zeros after it is nearest to zero. -/
def toMagnitude? (x : Decimal) : Option Magnitude :=
  let size : Int := digitCount x.digits + x.exponent
  if x.digits = 0 then some .zero
  else if size > 310 then none
  else if size < -330 then some .zero
  else if 0 ≤ x.exponent then Magnitude.ofRatio (x.digits * Nat.pow 10 x.exponent.toNat) 1
  else Magnitude.ofRatio x.digits (Nat.pow 10 (-x.exponent).toNat)

def readsBack (m : Magnitude) (x : Decimal) : Bool := x.toMagnitude? == some m

end Decimal

namespace Magnitude

/-- All decimal digits of the value: `2^-1074` is `5^1074 · 10^-1074`. -/
def exactDecimal (m : Magnitude) : Decimal := ⟨m.units * Nat.pow 5 1074, -1074⟩

end Magnitude

namespace Decimal

/-- The two neighbours of a decimal on the grid that leaves out its last `dropped` digits, the nearer
first; a tie goes to the even one. -/
def neighbours (x : Decimal) (dropped : Nat) : List Decimal :=
  let step := Nat.pow 10 dropped
  let low := x.digits / step
  let exponent : Int := (dropped : Int) + x.exponent
  let twice := 2 * (x.digits % step)
  let below : Decimal := ⟨low, exponent⟩
  let above : Decimal := ⟨low + 1, exponent⟩
  if twice < step ∨ (twice = step ∧ low % 2 = 0) then [below, above] else [above, below]

end Decimal

namespace Magnitude

/-- The first of the grids of one to seventeen digits on which a neighbour reads back. -/
def shortestWithin (m : Magnitude) (exact : Decimal) (size : Nat) : Decimal :=
  ((List.range 17).findSome? fun k =>
    (exact.neighbours (size - (k + 1))).find? (Decimal.readsBack m)).getD exact

/-- The fewest digits that read back, nearest to the value. -/
def shortest (m : Magnitude) : Decimal :=
  if m.mantissa = 0 then ⟨0, 0⟩
  else
    let exact := m.exactDecimal
    m.shortestWithin exact (digitCount exact.digits)

end Magnitude

end Bpmn
