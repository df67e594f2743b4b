import Bpmn.Json.Printer
import Bpmn.Json.Reader

namespace Bpmn.Json

/-- A digit in either case. -/
def SpellsDigit (n : Nat) (c : Char) : Prop := c = hexDigit n ∨ c = (hexDigit n).toUpper

/-- Four hexadecimal digits behind a mark. -/
inductive SpellsUnit (u : Nat) : List Char → Prop where
  | digits {a b c d} (first : SpellsDigit (u / 4096) a) (second : SpellsDigit (u / 256) b)
      (third : SpellsDigit (u / 16) c) (fourth : SpellsDigit u d) :
      SpellsUnit u ['\\', 'u', a, b, c, d]

/-- What may stand for a character in a string.  A character beyond the first plane has two units. -/
inductive SpellsChar (c : Char) : List Char → Prop where
  | plain (quote : c ≠ '"') (backslash : c ≠ '\\') (control : 32 ≤ c.toNat) : SpellsChar c [c]
  | letter {e} (named : plainEscape? e = some c) : SpellsChar c ['\\', e]
  | unit {text} (small : c.toNat < 0x10000) (spells : SpellsUnit c.toNat text) : SpellsChar c text
  | pair {high low} (large : 0x10000 ≤ c.toNat)
      (first : SpellsUnit (0xD800 + (c.toNat - 0x10000) / 1024) high)
      (second : SpellsUnit (0xDC00 + (c.toNat - 0x10000) % 1024) low) : SpellsChar c (high ++ low)

/-- The characters of a string, one after the other. -/
inductive SpellsChars : List Char → List Char → Prop where
  | nil : SpellsChars [] []
  | cons {c s text rest} (first : SpellsChar c text) (later : SpellsChars s rest) :
      SpellsChars (c :: s) (text ++ rest)

/-- A string in quotes. -/
inductive SpellsString (s : String) : List Char → Prop where
  | quoted {text} (spells : SpellsChars s.toList text) : SpellsString s ('"' :: (text ++ ['"']))

/-- A power of ten behind a number, with a sign or without one. -/
structure Power where
  mark : Char
  sign : Option Bool
  digits : List Char
  isMark : mark = 'e' ∨ mark = 'E'
  areDigits : ∀ c ∈ digits, c.isDigit = true
  nonempty : digits ≠ []

namespace Power

def signChars : Option Bool → List Char
  | none => []
  | some false => ['+']
  | some true => ['-']

def chars (p : Power) : List Char := p.mark :: (signChars p.sign ++ p.digits)

def value (p : Power) : Int :=
  let size : Int := Nat.ofDigitChars 10 p.digits 0
  if p.sign = some true then -size else size

end Power

/-- A number: a whole part without leading zeros, the digits of a fraction, none where there is no point,
and a power of ten. -/
structure Numeral where
  negative : Bool
  whole : List Char
  fraction : List Char
  power : Option Power
  wholeDigits : ∀ c ∈ whole, c.isDigit = true
  fractionDigits : ∀ c ∈ fraction, c.isDigit = true
  nonempty : whole ≠ []
  noLeadingZero : whole.head? ≠ some '0' ∨ whole = ['0']

namespace Numeral

variable (n : Numeral)

def fractionChars : List Char := if n.fraction = [] then [] else '.' :: n.fraction

def powerChars : List Char := n.power.elim [] Power.chars

def unsignedChars : List Char := n.whole ++ (n.fractionChars ++ n.powerChars)

def chars : List Char := signed n.negative n.unsignedChars

/-- What its digits and its power of ten spell. -/
def decimal : Decimal :=
  ⟨Nat.ofDigitChars 10 (n.whole ++ n.fraction) 0, n.power.elim 0 Power.value - n.fraction.length⟩

/-- Without a fraction and a power of ten it is an integer, else the binary64 number nearest to it. -/
def value : Number :=
  if n.fraction = [] ∧ n.power = none then
    let size : Int := Nat.ofDigitChars 10 n.whole 0
    .int (if n.negative then -size else size)
  else .float (roundedFloat n.negative n.decimal)

end Numeral

/-- A text with blanks around it. -/
structure Padded where
  before : List Char
  text : List Char
  after : List Char
  blankBefore : ∀ c ∈ before, isBlank c = true
  blankAfter : ∀ c ∈ after, isBlank c = true

theorem isBlank_nil : ∀ c ∈ ([] : List Char), isBlank c = true := List.forall_mem_nil _

theorem isBlank_space : ∀ c ∈ [' '], isBlank c = true := List.forall_mem_singleton.mpr rfl

namespace Padded

def chars (p : Padded) : List Char := p.before ++ (p.text ++ p.after)

/-- A text without blanks around it. -/
def bare (text : List Char) : Padded := ⟨[], text, [], isBlank_nil, isBlank_nil⟩

@[simp] theorem text_bare (text : List Char) : (bare text).text = text := rfl

@[simp] theorem chars_bare (text : List Char) : (bare text).chars = text := by simp [bare, chars]

end Padded

/-- A field of an object. -/
structure Member where
  key : Padded
  name : String
  spells : SpellsString name key.text
  value : Padded
  item : Json

def Member.chars (m : Member) : List Char := m.key.chars ++ ':' :: m.value.chars

/-- Texts with commas between them. -/
def listed (texts : List (List Char)) : List Char := [','].intercalate texts

/-- A text denotes a value.  No whole part in it has more than `width` digits, and not more than so many
lists and objects are inside one another, empty ones aside. -/
inductive Denotes (width : Nat) : Nat → List Char → Json → Prop where
  | word {depth text j} (isWord : (text, j) ∈ scalarWords) : Denotes width depth text j
  | number {depth} (n : Numeral) (fits : n.whole.length ≤ width) :
      Denotes width depth n.chars (.num n.value)
  | string {depth s text} (spells : SpellsString s text) : Denotes width depth text (.str s)
  | emptyList {depth blanks} (blank : ∀ c ∈ blanks, isBlank c = true) :
      Denotes width depth ('[' :: (blanks ++ [']'])) (.arr [])
  | emptyObject {depth blanks} (blank : ∀ c ∈ blanks, isBlank c = true) :
      Denotes width depth ('{' :: (blanks ++ ['}'])) (.obj [])
  | list {depth} (parts : List (Padded × Json)) (nonempty : parts ≠ [])
      (each : ∀ p ∈ parts, Denotes width depth p.1.text p.2) :
      Denotes width (depth + 1) ('[' :: (listed (parts.map (·.1.chars)) ++ [']']))
        (.arr (parts.map (·.2)))
  | object {depth} (members : List Member) (nonempty : members ≠ [])
      (each : ∀ m ∈ members, Denotes width depth m.value.text m.item) :
      Denotes width (depth + 1) ('{' :: (listed (members.map (·.chars)) ++ ['}']))
        (.obj (Fields.ofPairs (members.map fun m => (m.name, m.item))))

theorem Denotes.mono {width width' depth : Nat} {text : List Char} {j : Json}
    (h : Denotes width depth text j) (hwidth : width ≤ width') : Denotes width' depth text j := by
  induction h with
  | word isWord => exact .word isWord
  | number n fits => exact .number n (Nat.le_trans fits hwidth)
  | string spells => exact .string spells
  | emptyList blank => exact .emptyList blank
  | emptyObject blank => exact .emptyObject blank
  | list parts nonempty _ ih => exact .list parts nonempty ih
  | object members nonempty _ ih => exact .object members nonempty ih

/-- A whole text denotes a value, with blanks around it. -/
def TextDenotes (width depth : Nat) (text : String) (j : Json) : Prop :=
  ∃ p : Padded, text.toList = p.chars ∧ Denotes width depth p.text j

end Bpmn.Json
