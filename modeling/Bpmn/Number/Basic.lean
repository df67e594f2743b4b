import Bpmn.Number.Decimal

namespace Bpmn

/-- An integer of any size or a binary64 number; which of the two it is shows when it is written. -/
inductive Number where
  | int (value : Int)
  | float (value : Binary64)
  deriving DecidableEq

/-- Signed words of 64 bits lie below this bound and not below its negation. -/
def wordBound : Int := Int.ofNat (Nat.pow 2 63)

/-- An integer is read when it is written with at most this many digits. -/
def digitLimit : Nat := 4300

namespace Number

def isZero : Number → Bool
  | int i => i == 0
  | float x => x.isZero

/-- Neither infinite nor a NaN. -/
def isFinite : Number → Bool
  | int _ => true
  | float x => x.isFinite

/-- A finite number in steps of the smallest float. -/
def steps : Number → Int
  | int i => i * Int.ofNat (Nat.pow 2 1074)
  | float (.finite negative m) => if negative then -(m.units : Int) else m.units
  | float _ => 0

/-- Whether a number is less than another.  An infinity lies beyond all others, a NaN neither below
nor above any. -/
def below : Number → Number → Bool
  | float .nan, _ => false
  | _, float .nan => false
  | float (.infinite a), float (.infinite b) => a && !b
  | float (.infinite negative), _ => negative
  | _, float (.infinite negative) => !negative
  | a, b => decide (a.steps < b.steps)

/-- The float nearest to a number. -/
def toFloat : Number → Binary64
  | int i => .ofUnits (decide (i < 0)) (i.natAbs * Nat.pow 2 1074)
  | float x => x

/-- The sum, exact for integers. -/
def add : Number → Number → Number
  | int a, int b => int (a + b)
  | a, b => float (a.toFloat.add b.toFloat)

/-- Equality of values; a NaN equals nothing. -/
def same : Number → Number → Bool
  | int a, int b => a == b
  | int a, float b => b.toInt? == some a
  | float a, int b => a.toInt? == some b
  | float .nan, float _ => false
  | float a, float b => a == b || a.isZero && b.isZero

end Number

end Bpmn
