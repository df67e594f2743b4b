import Bpmn.Json.Basic

namespace Bpmn.Json

inductive Complaint where
  | noValue
  | noName
  | noColon
  | noComma
  | openString
  | controlCharacter
  | badEscape
  | badUnit
  | extraData
  | byteOrderMark
  | tooDeep
  | tooManyDigits (count : Nat)
  /-- Half of a pair of units stands where it may.  No text has one here, so what becomes of it is not told. -/
  | loneHalf
  deriving DecidableEq

/-- What a text is read as. -/
inductive Dialect where
  /-- A document, and what stands for half of a pair of units that has no other half, if such a half is let
  pass. -/
  | document (half : Option Char)
  | snapshot

namespace Dialect

def half : Dialect → Option Char
  | document half => half
  | snapshot => none

/-- Whether a number is too long, given the length of its whole part.  A document holds integers of
limited length; in a snapshot every number is limited. -/
def isTooLong (dialect : Dialect) (length : Nat) (n : Number) : Bool :=
  match dialect, n with
  | document _, .int _ => digitLimit < length
  | document _, .float _ => false
  | snapshot, _ => digitLimit < length

end Dialect

/-- What is wrong, and the text from there on. -/
structure Refusal where
  complaint : Complaint
  rest : List Char

/-- A step of reading: what was read and the text after it, or why not. -/
abbrev Reading := Except Refusal

def refuse {α : Type} (complaint : Complaint) (rest : List Char) : Reading α :=
  .error ⟨complaint, rest⟩

def isBlank (c : Char) : Bool := c == ' ' || c == '\n' || c == '\t' || c == '\r'

def skipBlank (s : List Char) : List Char := s.dropWhile isBlank

def hexValue? (c : Char) : Option Nat :=
  if '0' ≤ c ∧ c ≤ '9' then some (c.toNat - '0'.toNat)
  else if 'a' ≤ c ∧ c ≤ 'f' then some (c.toNat - 'a'.toNat + 10)
  else if 'A' ≤ c ∧ c ≤ 'F' then some (c.toNat - 'A'.toNat + 10)
  else none

/-- The UTF-16 unit that four hexadecimal digits spell. -/
def unit? (a b c d : Char) : Option Nat := do
  let a ← hexValue? a
  let b ← hexValue? b
  let c ← hexValue? c
  let d ← hexValue? d
  return ((a * 16 + b) * 16 + c) * 16 + d

/-- The character two units spell, the first of the high and the second of the low range. -/
def pair? (high low : Nat) : Option Char :=
  if 0xD800 ≤ high ∧ high < 0xDC00 ∧ 0xDC00 ≤ low ∧ low < 0xE000 then
    some (Char.ofNat (0x10000 + (high - 0xD800) * 1024 + (low - 0xDC00)))
  else none

/-- The character one unit spells, none for half of a pair. -/
def single? (u : Nat) : Option Char :=
  if 0xD800 ≤ u ∧ u < 0xE000 then none else some (Char.ofNat u)

def plainEscape? : Char → Option Char
  | '"' => some '"'
  | '\\' => some '\\'
  | '/' => some '/'
  | 'b' => some '\x08'
  | 'f' => some '\x0c'
  | 'n' => some '\n'
  | 'r' => some '\r'
  | 't' => some '\t'
  | _ => none

/-- The characters of a string after its opening quote, in reverse; `start` is the text from that
quote on.  An escaped unit needs a character after it.  `half` stands for a unit that is half of a
pair and has no other half; where there is none, such a unit is refused. -/
def stringBody (half : Option Char) (start : List Char) :
    List Char → List Char → Reading (List Char × List Char)
  | [], _ => refuse .openString start
  | '"' :: rest, acc => .ok (acc, rest)
  | ['\\'], _ => refuse .openString start
  | '\\' :: 'u' :: a :: b :: c :: d :: after, acc =>
    if after.isEmpty then refuse .badUnit ['u', a, b, c, d]
    else
      match unit? a b c d with
      | none => refuse .badUnit ('u' :: a :: b :: c :: d :: after)
      | some u =>
        match single? u with
        | some ch => stringBody half start after (ch :: acc)
        | none =>
          match after with
          | '\\' :: 'u' :: e :: f :: g :: h :: next :: more =>
            match (unit? e f g h).bind (pair? u), half with
            | some ch, _ => stringBody half start (next :: more) (ch :: acc)
            | none, some ch =>
              stringBody half start ('\\' :: 'u' :: e :: f :: g :: h :: next :: more) (ch :: acc)
            | none, none => refuse .badUnit ('u' :: a :: b :: c :: d :: after)
          | after =>
            match half with
            | some ch => stringBody half start after (ch :: acc)
            | none => refuse .badUnit ('u' :: a :: b :: c :: d :: after)
  | '\\' :: c :: rest, acc =>
    match plainEscape? c with
    | some ch => stringBody half start rest (ch :: acc)
    | none => if c = 'u' then refuse .badUnit (c :: rest) else refuse .badEscape ('\\' :: c :: rest)
  | c :: rest, acc =>
    if c.toNat < 32 then refuse .controlCharacter (c :: rest)
    else stringBody half start rest (c :: acc)

/-- A string from the text after its opening quote on. -/
def stringText (half : Option Char) (s : List Char) : Reading (String × List Char) := do
  let (reversed, rest) ← stringBody half ('"' :: s) s []
  return (String.ofList reversed.reverse, rest)

def takeDigits (s : List Char) : List Char × List Char :=
  (s.takeWhile Char.isDigit, s.dropWhile Char.isDigit)

/-- The digits of a whole part: a zero alone, or digits that start with another one. -/
def wholeDigits? (s : List Char) : Option (List Char × List Char) :=
  match s with
  | '0' :: rest => some (['0'], rest)
  | c :: _ => if c.isDigit then some (takeDigits s) else none
  | [] => none

/-- The digits after a point, when there are any. -/
def fractionDigits (s : List Char) : List Char × List Char :=
  match s with
  | '.' :: rest => if (takeDigits rest).1.isEmpty then ([], s) else takeDigits rest
  | _ => ([], s)

/-- A power of ten, when a number goes on with one. -/
def exponent? (s : List Char) : Option (Int × List Char) :=
  match s with
  | c :: rest =>
    if c = 'e' ∨ c = 'E' then
      let (negative, unsigned) := match rest with
        | '-' :: after => (true, after)
        | '+' :: after => (false, after)
        | _ => (false, rest)
      let (digits, after) := takeDigits unsigned
      if digits.isEmpty then none
      else
        let size : Int := Nat.ofDigitChars 10 digits 0
        some (if negative then -size else size, after)
    else none
  | [] => none

/-- The binary64 number nearest to a signed decimal. -/
def roundedFloat (negative : Bool) (x : Decimal) : Binary64 :=
  match x.toMagnitude? with
  | some m => .finite negative m
  | none => .infinite negative

/-- A number without its sign.  One with a fraction or a power of ten is rounded, another is kept
exactly. -/
def unsignedNumber? (negative : Bool) (s : List Char) : Option (Number × List Char) := do
  let (whole, rest) ← wholeDigits? s
  let (fraction, rest) := fractionDigits rest
  let scaled (power : Int) : Number := .float (roundedFloat negative
    ⟨Nat.ofDigitChars 10 (whole ++ fraction) 0, power - fraction.length⟩)
  match exponent? rest with
  | some (power, rest) => return (scaled power, rest)
  | none =>
    if fraction.isEmpty then
      let size : Int := Nat.ofDigitChars 10 whole 0
      return (.int (if negative then -size else size), rest)
    else return (scaled 0, rest)

/-- The text after a word it starts with. -/
def word? (word s : List Char) : Option (List Char) :=
  match word, s with
  | [], s => some s
  | w :: word, c :: s => if w = c then word? word s else none
  | _ :: _, [] => none

def scalarWords : List (List Char × Json) :=
  [("null".toList, .null), ("true".toList, .bool true), ("false".toList, .bool false),
    ("NaN".toList, .num (.float .nan)),
    ("Infinity".toList, .num (.float (.infinite false))),
    ("-Infinity".toList, .num (.float (.infinite true)))]

/-- A sign, if there is one, and the text after it. -/
def takeSign (s : List Char) : Bool × List Char :=
  match s with
  | '-' :: rest => (true, rest)
  | _ => (false, s)

/-- A number that is not too long. -/
def number (dialect : Dialect) (s : List Char) : Reading (Json × List Char) :=
  let (negative, unsigned) := takeSign s
  match unsignedNumber? negative unsigned with
  | none => refuse .noValue s
  | some (n, rest) =>
    let length := ((wholeDigits? unsigned).map (·.1.length)).getD 0
    if dialect.isTooLong length n then refuse (.tooManyDigits length) s
    else .ok (.num n, rest)

/-- A word or a number. -/
def bareScalar (dialect : Dialect) (s : List Char) : Reading (Json × List Char) :=
  match scalarWords.findSome? fun (word, j) => (word? word s).map fun rest => (j, rest) with
  | some parsed => .ok parsed
  | none => number dialect s

/-- The items of an array that is not empty, up to its closing bracket; there are at most so many. -/
def arrayItems (value : List Char → Reading (Json × List Char)) :
    Nat → List Char → Reading (List Json × List Char)
  | 0, s => refuse .noValue s
  | count + 1, s => do
    let (item, rest) ← value s
    match skipBlank rest with
    | ']' :: rest => return ([item], rest)
    | ',' :: rest =>
      let (items, rest) ← arrayItems value count (skipBlank rest)
      return (item :: items, rest)
    | rest => refuse .noComma rest

/-- The fields of an object that is not empty, up to its closing brace; there are at most so many. -/
def objectFields (dialect : Dialect) (value : List Char → Reading (Json × List Char)) :
    Nat → List Char → Reading (List (String × Json) × List Char)
  | 0, s => refuse .noName s
  | count + 1, s =>
    match s with
    | '"' :: s => do
      let (key, rest) ← stringText dialect.half s
      match skipBlank rest with
      | ':' :: rest =>
        let (item, rest) ← value (skipBlank rest)
        match skipBlank rest with
        | '}' :: rest => return ([(key, item)], rest)
        | ',' :: rest =>
          let (fields, rest) ← objectFields dialect value count (skipBlank rest)
          return ((key, item) :: fields, rest)
        | rest => refuse .noComma rest
      | rest => refuse .noColon rest
    | s => refuse .noName s

/-- A value with at most `depth` arrays and objects inside one another, empty ones aside.  None of them
has more items than `size`, the number of characters of the text. -/
def value (dialect : Dialect) (size : Nat) : Nat → List Char → Reading (Json × List Char)
  | _, '"' :: s => do
    let (text, rest) ← stringText dialect.half s
    return (.str text, rest)
  | 0, '[' :: s =>
    match skipBlank s with
    | ']' :: rest => .ok (.arr [], rest)
    | _ => refuse .tooDeep ('[' :: s)
  | 0, '{' :: s =>
    match skipBlank s with
    | '}' :: rest => .ok (.obj [], rest)
    | _ => refuse .tooDeep ('{' :: s)
  | depth + 1, '[' :: s =>
    match skipBlank s with
    | ']' :: rest => .ok (.arr [], rest)
    | s => do
      let (items, rest) ← arrayItems (value dialect size depth) size s
      return (.arr items, rest)
  | depth + 1, '{' :: s =>
    match skipBlank s with
    | '}' :: rest => .ok (.obj [], rest)
    | s => do
      let (pairs, rest) ← objectFields dialect (value dialect size depth) size s
      return (.obj (Fields.ofPairs pairs), rest)
  | _, s => bareScalar dialect s

/-- A value and nothing after it but blanks. -/
def read (dialect : Dialect) (depth : Nat) (s : List Char) : Reading Json :=
  match s with
  | '\uFEFF' :: _ => .error ⟨.byteOrderMark, s⟩
  | _ => do
    let (j, rest) ← value dialect s.length depth (skipBlank s)
    match skipBlank rest with
    | [] => return j
    | rest => throw ⟨.extraData, rest⟩

/-- The deepest nesting a snapshot may have. -/
def snapshotDepth : Nat := 200

/-- Reads a snapshot's text, in which every unit of a pair has its other half. -/
def read? (text : String) : Option Json := (read .snapshot snapshotDepth text.toList).toOption

/-- Where a text was refused, and why. -/
structure Misfit where
  complaint : Complaint
  offset : Nat
  line : Nat
  column : Nat

/-- Counts lines and columns from one and characters from zero. -/
def Refusal.locate (r : Refusal) (text : List Char) : Misfit :=
  let before := text.take (text.length - r.rest.length)
  { complaint := r.complaint
    offset := before.length
    line := before.count '\n' + 1
    column := (before.reverse.takeWhile (· != '\n')).length + 1 }

def Complaint.message : Complaint → String
  | noValue => "Expecting value"
  | noName => "Expecting property name enclosed in double quotes"
  | noColon => "Expecting ':' delimiter"
  | noComma => "Expecting ',' delimiter"
  | openString => "Unterminated string starting at"
  | controlCharacter => "Invalid control character at"
  | badEscape => "Invalid \\escape"
  | badUnit => "Invalid \\uXXXX escape"
  | extraData => "Extra data"
  | byteOrderMark => "Unexpected UTF-8 BOM (decode using utf-8-sig)"
  | tooDeep => "Nesting too deep"
  | tooManyDigits count =>
    s!"Exceeds the limit ({digitLimit} digits) for integer string conversion: value has {count} " ++
      "digits; use sys.set_int_max_str_digits() to increase the limit"
  | loneHalf => "Half of a pair"

/-- The wording of a misfit; it tells the place unless the text is well formed up to there. -/
def Misfit.message (m : Misfit) : String :=
  match m.complaint with
  | .tooManyDigits _ => m.complaint.message
  | _ => s!"{m.complaint.message}: line {m.line} column {m.column} (char {m.offset})"

/-- Reads a text of any nesting and says where it fails.  Half of a pair of units is let pass while anything
else is wrong; then there is no value that has one. -/
def parse (text : String) : Except Misfit Json :=
  let chars := text.toList
  match read (.document (some '\uFFFD')) chars.length chars, read (.document none) chars.length chars with
  | .error r, _ => .error (r.locate chars)
  | .ok _, .error r => .error ({ r with complaint := .loneHalf }.locate chars)
  | .ok _, .ok j => .ok j

end Bpmn.Json
