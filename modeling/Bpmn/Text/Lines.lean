namespace Bpmn.Text

def breaks : List Char :=
  ['\n', '\r', '\x0b', '\x0c', '\x1c', '\x1d', '\x1e', '\x85', '\u2028', '\u2029']

/-- The lines of a text, given the characters of the first so far, last first. -/
def linesFrom (line : List Char) : List Char → List String
  | [] => if line.isEmpty then [] else [String.ofList line.reverse]
  | '\r' :: '\n' :: rest => String.ofList line.reverse :: linesFrom [] rest
  | c :: rest =>
    if breaks.contains c then String.ofList line.reverse :: linesFrom [] rest
    else linesFrom (c :: line) rest

def lines (s : String) : List String := linesFrom [] s.toList

end Bpmn.Text
