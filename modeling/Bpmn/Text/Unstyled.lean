namespace Bpmn.Text

def escapeCharacter : Char := '\x1b'

/-- The characters that a class of sequences is made of behind the bracket. -/
structure Sequences where
  isParameter : Char → Bool
  isMark : Char → Bool
  isFinal : Char → Bool

namespace Sequences

def within (first last : Char) (c : Char) : Bool := first ≤ c && c ≤ last

/-- All that steer a terminal. -/
def controls : Sequences := ⟨within '0' '?', within ' ' '/', within '@' '~'⟩

/-- Those that only set colours and weights. -/
def colours : Sequences := ⟨fun c => c.isDigit || c == ';', fun _ => false, fun c => c == 'm'⟩

end Sequences

/-- What has been read of a sequence, last first.  No parameter follows a mark. -/
inductive Held where
  | nothing
  | escape
  | opened (marked : Bool) (read : List Char)

/-- The characters that were held back. -/
def Held.release : Held → List Char
  | nothing => []
  | escape => [escapeCharacter]
  | opened _ read => escapeCharacter :: '[' :: read.reverse

/-- The characters of a text without sequences, given what was held back before it. -/
def withoutFrom (s : Sequences) : Held → List Char → List Char
  | held, [] => held.release
  | held, c :: rest =>
    if c = escapeCharacter then held.release ++ withoutFrom s .escape rest
    else
      match held with
      | .nothing => c :: withoutFrom s .nothing rest
      | .escape =>
        if c = '[' then withoutFrom s (.opened false []) rest
        else escapeCharacter :: c :: withoutFrom s .nothing rest
      | .opened marked read =>
        if !marked && s.isParameter c then withoutFrom s (.opened false (c :: read)) rest
        else if s.isMark c then withoutFrom s (.opened true (c :: read)) rest
        else if s.isFinal c then withoutFrom s .nothing rest
        else held.release ++ c :: withoutFrom s .nothing rest

def without (s : Sequences) (text : String) : String :=
  String.ofList (withoutFrom s .nothing text.toList)

/-- A text without whatever steers a terminal. -/
def unstyled (text : String) : String := without .controls text

/-- A text without escape characters stays as it is. -/
theorem withoutFrom_of_plain (s : Sequences) (cs : List Char) (h : escapeCharacter ∉ cs) :
    withoutFrom s .nothing cs = cs := by
  induction cs with
  | nil => rfl
  | cons c rest ih =>
    have hc : c ≠ escapeCharacter := fun e => h (e ▸ List.mem_cons_self)
    have hr : escapeCharacter ∉ rest := fun hm => h (List.mem_cons_of_mem _ hm)
    simp [withoutFrom, hc, ih hr]

end Bpmn.Text
