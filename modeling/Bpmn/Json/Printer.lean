import Bpmn.Json.Basic

namespace Bpmn

namespace Magnitude

/-- The digits of the shortest decimal without trailing zeros. -/
def significant (m : Magnitude) : List Char :=
  ((Nat.toDigits 10 m.shortest.digits).reverse.dropWhile (· == '0')).reverse

/-- How many digits stand before the decimal point; zero or less when zeros follow it. -/
def pointPlace (m : Magnitude) : Int := digitCount m.shortest.digits + m.shortest.exponent

/-- A power of ten as `e` and a signed number of two digits or more. -/
def exponentText (power : Int) : List Char :=
  let digits := Nat.toDigits 10 power.natAbs
  'e' :: (if power < 0 then '-' else '+') :: (if digits.length < 2 then '0' :: digits else digits)

/-- Positional with a point from `0.0001` up to `10^16`, with an exponent outside. -/
def text (m : Magnitude) : List Char :=
  let digits := m.significant
  let place := m.pointPlace
  if -4 < place ∧ place ≤ 16 then
    if place ≤ 0 then '0' :: '.' :: (List.replicate (-place).toNat '0' ++ digits)
    else if place < digits.length then
      digits.take place.toNat ++ '.' :: digits.drop place.toNat
    else digits ++ List.replicate (place.toNat - digits.length) '0' ++ ['.', '0']
  else
    let tail := digits.drop 1
    digits.take 1 ++ (if tail.isEmpty then [] else '.' :: tail) ++ exponentText (place - 1)

end Magnitude

def signed (negative : Bool) (text : List Char) : List Char :=
  if negative then '-' :: text else text

def Binary64.text : Binary64 → List Char
  | finite negative m => signed negative m.text
  | infinite negative => signed negative "Infinity".toList
  | nan => "NaN".toList

def Number.text : Number → List Char
  | int i => signed (i < 0) (Nat.toDigits 10 i.natAbs)
  | float x => x.text

namespace Json

def hexDigit (n : Nat) : Char := Nat.digitChar (n % 16)

/-- A UTF-16 unit as four hexadecimal digits. -/
def unitEscape (u : Nat) : List Char :=
  ['\\', 'u', hexDigit (u / 4096), hexDigit (u / 256), hexDigit (u / 16), hexDigit u]

/-- A character inside quotes; a character beyond the first plane is two units. -/
def escape (c : Char) : List Char :=
  if c = '"' then ['\\', '"']
  else if c = '\\' then ['\\', '\\']
  else if c = '\n' then ['\\', 'n']
  else if c = '\r' then ['\\', 'r']
  else if c = '\t' then ['\\', 't']
  else if c = '\x08' then ['\\', 'b']
  else if c = '\x0c' then ['\\', 'f']
  else if 32 ≤ c.toNat ∧ c.toNat < 127 then [c]
  else if c.toNat < 0x10000 then unitEscape c.toNat
  else
    let n := c.toNat - 0x10000
    unitEscape (0xD800 + n / 1024) ++ unitEscape (0xDC00 + n % 1024)

def quoted (s : String) : List Char := '"' :: (s.toList.flatMap escape ++ ['"'])

/-- How items are set apart: on one line, or each on its own behind a text for every level. -/
structure Layout where
  indent : Option (List Char)

namespace Layout

/-- Whether a machine can count the blanks of an indent. -/
def fits (indent : Option Int) : Bool :=
  match indent with
  | none => true
  | some width => -wordBound ≤ width && width < wordBound

/-- Whether memory can hold the blanks of an indent. -/
def isHeld (indent : Option Int) : Bool :=
  match indent with
  | none => true
  | some width => width < Int.ofNat (Nat.pow 2 40)

/-- So many blanks for every level; a negative number is none. -/
def ofIndent (indent : Option Int) : Layout := ⟨indent.map fun width => List.replicate width.toNat ' '⟩

/-- The break before the first item and after the last. -/
def line (layout : Layout) (level : Nat) : List Char :=
  match layout.indent with
  | none => []
  | some pad => '\n' :: (List.replicate level pad).flatten

/-- What stands between two items. -/
def comma (layout : Layout) (level : Nat) : List Char :=
  match layout.indent with
  | none => [',', ' ']
  | some _ => ',' :: layout.line level

end Layout

/-- The written form at a nesting level. -/
def write (layout : Layout) : Nat → Json → List Char
  | _, .null => "null".toList
  | _, .bool true => "true".toList
  | _, .bool false => "false".toList
  | _, .num n => n.text
  | _, .str s => quoted s
  | _, .arr [] => ['[', ']']
  | level, .arr (item :: rest) =>
    '[' :: (layout.line (level + 1) ++ write layout (level + 1) item ++ items (level + 1) rest ++
      layout.line level ++ [']'])
  | _, .obj [] => ['{', '}']
  | level, .obj ((key, value) :: rest) =>
    '{' :: (layout.line (level + 1) ++ quoted key ++ ':' :: ' ' ::
      write layout (level + 1) value ++ fields (level + 1) rest ++ layout.line level ++ ['}'])
  | _, .endless => "null".toList
  | _, .operation => "null".toList
where
  items : Nat → List Json → List Char
    | _, [] => []
    | level, item :: rest => layout.comma level ++ write layout level item ++ items level rest
  fields : Nat → List (String × Json) → List Char
    | _, [] => []
    | level, (key, value) :: rest =>
      layout.comma level ++ quoted key ++ ':' :: ' ' :: write layout level value ++
        fields level rest

/-- The text of a value in a layout. -/
def renderIn (layout : Layout) (j : Json) : String := String.ofList (write layout 0 j)

/-- The text of a value; no indent puts it on one line. -/
def render (j : Json) (indent : Option Int) : String := j.renderIn (.ofIndent indent)

end Json

end Bpmn
