import Bpmn.Json.Items
import Bpmn.Json.Reader
import Bpmn.Observe.Level
import Bpmn.Text.Integer
import Bpmn.Text.Lines
import Bpmn.Text.Unstyled
import Bpmn.Text.Word

namespace Bpmn

/-- A message that a sink has passed on.  The cause of a failure is told behind it. -/
structure Line where
  severity : Severity
  text : String
  cause : Option String
  deriving DecidableEq

/-- How a sink writes its messages. -/
inductive SinkForm where
  | lines
  | records
  deriving DecidableEq

/-- Passes on messages from a threshold on.  Written as records, messages stay whole.  Written in lines, a message
keeps its first line alone and no colours; a line that follows it is an entry of its own if it has the form of
one, and has to be a record if it starts like one. -/
structure Sink where
  threshold : Severity
  form : SinkForm

/-- What a reader of a log finds in it. -/
structure LogEntry where
  label : String
  text : String
  deriving DecidableEq

/-- A text without the duration at its end, if one stands behind the word `took`.  A last line feed
may follow the duration. -/
def undated (text : String) : String :=
  let (feed, cs) := match text.toList.reverse with
    | '\n' :: rest => (['\n'], rest)
    | cs => ([], cs)
  match cs with
  | 's' :: 'm' :: rest =>
    let kept := rest.dropWhile fun c => (Text.digit? c).isSome || c == '.'
    let isDated := kept.length < rest.length && " took ".toList.reverse.isPrefixOf kept
    if isDated then String.ofList (feed ++ kept.drop 1).reverse else text
  | _ => text

namespace LogEntry

/-- The label at the start of a line, and what follows it. -/
def label? (cs : List Char) : Option (String × List Char) :=
  let isUsual (s : Severity) : Bool := s.label.toList.isPrefixOf cs
  match Severity.usual.find? isUsual with
  | some s => some (s.label, cs.drop s.label.length)
  | none =>
    let word := "Level ".toList
    let number := (cs.drop word.length).takeWhile fun c => (Text.digit? c).isSome
    if word.isPrefixOf cs && !number.isEmpty then
      some (String.ofList (word ++ number), cs.drop (word.length + number.length))
    else none

/-- A source whose parts have names behind its own. -/
def partedSource : List Char := "bpmn_context".toList

/-- A source without parts. -/
def wholeSource : List Char := "logging".toList

def isPartChar (c : Char) : Bool := Text.isWordChar c || c == '.'

/-- What follows a source. -/
def behindSource? (cs : List Char) : Option (List Char) :=
  if partedSource.isPrefixOf cs then some ((cs.drop partedSource.length).dropWhile isPartChar)
  else if wholeSource.isPrefixOf cs then some (cs.drop wholeSource.length)
  else none

/-- The message behind the place that tells it: a source, a colon, a number and a dash. -/
def told? (cs : List Char) : Option String := do
  let ':' :: rest ← behindSource? cs | none
  let number := rest.takeWhile fun c => (Text.digit? c).isSome
  let ' ' :: '-' :: ' ' :: text := rest.drop number.length | none
  if number.isEmpty then none else return String.ofList text

/-- The entry that a line of its own has the form of: a label, a bar and what is told. -/
def ofForm? (line : String) : Option LogEntry := do
  let (label, behind) ← label? line.toList
  let '|' :: ' ' :: rest := behind.dropWhile (· == ' ') | none
  return ⟨label, undated (← told? rest)⟩

/-- The entry of a line that starts like a record. -/
def ofRecord (line : String) : Except Fault LogEntry := do
  let record ← match Json.parse line with
    | .ok j => j.member "record"
    | .error _ => throw .badRecord
  match ← (← record.member "level").member "name", ← record.member "message" with
  | .str label, .str text => return ⟨label, undated text⟩
  | _, _ => throw .notIterable

/-- The entry of a line on which no message starts, if it is one. -/
def ofLine? (line : String) : Except Fault (Option LogEntry) :=
  if line.toList.head? == some '{' then some <$> ofRecord line else .ok (ofForm? line)

/-- The start of messages on a manager that takes the place of another; readers leave them out. -/
def replacing : String := "Overriding of current"

/-- The entries that readers do not leave out. -/
def shown (entries : List LogEntry) : List LogEntry :=
  entries.filter fun entry => !entry.text.startsWith replacing

/-- The entries of lines on which no message starts. -/
def ofLines (lines : List String) : Except Fault (List LogEntry) := do
  return shown ((← lines.mapM ofLine?).filterMap id)

end LogEntry

namespace SinkForm

/-- Whether a record of a text breaks apart: it is one line, and wide breaks are written as they are. -/
def isBroken (text : String) : Bool :=
  text.any fun c => Text.breaks.contains c && 127 < c.toNat

/-- What a reader finds of a message, entries in what follows its first line included. -/
def read (form : SinkForm) (line : Line) : Except Fault (List LogEntry) := do
  let entry (text : String) : List LogEntry :=
    LogEntry.shown [⟨line.severity.label, undated text⟩]
  match form with
  | .lines =>
    let told := Text.lines (Text.without .colours line.text)
    let caused := Text.lines (Text.without .colours (line.cause.getD ""))
    return entry (told.headD "") ++ (← LogEntry.ofLines (told.drop 1 ++ caused.drop 1))
  | .records =>
    if isBroken (line.text ++ line.cause.getD "") then throw .badRecord else return entry line.text

/-- What ends the styling of a message in lines. -/
def plainStyle : String := "\x1b[0m"

/-- The lines of a message and of a cause behind the first ones, as they are written. -/
def remarks (form : SinkForm) (line : Line) : List String :=
  let behind (text : String) : List String := (Text.lines (text ++ plainStyle)).drop 1
  match form with
  | .lines => behind line.text ++ (line.cause.map behind).getD []
  | .records => []

end SinkForm

namespace Sink

/-- Whether a sink passes a message on; what has no sink passes nothing. -/
def passes (sink : Option Sink) (line : Line) : Bool :=
  match sink with
  | none => false
  | some s => s.threshold ≤ line.severity

end Sink

end Bpmn
