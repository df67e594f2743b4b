namespace Bpmn.Text

/-- Characters beyond ASCII whose upper case is ASCII. -/
def widened : List (Nat × String) :=
  [(0xDF, "SS"), (0x131, "I"), (0x17F, "S"), (0xFB00, "FF"), (0xFB01, "FI"), (0xFB02, "FL"),
    (0xFB03, "FFI"), (0xFB04, "FFL"), (0xFB05, "ST"), (0xFB06, "ST")]

def upperChar (c : Char) : List Char :=
  match widened.lookup c.toNat with
  | some upper => upper.toList
  | none => [c.toUpper]

def upper (cs : List Char) : List Char := cs.flatMap upperChar

/-- The one character beyond ASCII with a lower case in it is the sign of the kelvin. -/
def lowerChar (c : Char) : Char := if c.toNat = 0x212A then 'k' else c.toLower

def lower (cs : List Char) : List Char := cs.map lowerChar

end Bpmn.Text
