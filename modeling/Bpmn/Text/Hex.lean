import Bpmn.Text.Blank

namespace Bpmn.Text.Hex

def isAscii (c : Char) : Bool := c.toNat < 128

/-- The value of a digit of either case. -/
def digit? (c : Char) : Option Nat :=
  let c := c.toLower
  if c.isDigit then some (c.toNat - '0'.toNat)
  else if 'a' ≤ c && c ≤ 'f' then some (c.toNat - 'a'.toNat + 10)
  else none

/-- The bytes that a text from a place on spells, or the place of the first misfit. -/
def bytesFrom (place : Nat) : List Char → Except Nat (List UInt8)
  | [] => .ok []
  | c :: rest =>
    if isAscii c && isMargin c then bytesFrom (place + 1) rest
    else
      match digit? c, rest with
      | none, _ => .error place
      | some _, [] => .error (place + 1)
      | some high, c :: rest =>
        match digit? c with
        | none => .error (place + 1)
        | some low => ((high * 16 + low).toUInt8 :: ·) <$> bytesFrom (place + 2) rest

/-- The bytes that a text spells.  A character beyond ASCII is a misfit before all others. -/
def bytes (text : String) : Except Nat (List UInt8) :=
  match text.toList.findIdx? fun c => !isAscii c with
  | some place => .error place
  | none => bytesFrom 0 text.toList

end Bpmn.Text.Hex
