import Bpmn.Command.Stop
import Bpmn.Command.World
import Bpmn.Text.Integer
import Bpmn.Text.Similar

namespace Bpmn.Command

/-- What an option sets. -/
inductive Topic where
  | output
  | types
  | indent
  | verbose
  | jsonLogs
  | format
  | help
  deriving DecidableEq

/-- What an option takes: a value, perhaps under a short name too, or nothing. -/
inductive Taking where
  | value (short : Option Char)
  | nothing (flag : Bool)

structure OptionForm where
  name : String
  topic : Topic
  taking : Taking

/-- The options and the operand of a command. -/
structure Form where
  options : List OptionForm
  operand : Option String
  /-- Whether options may stand behind operands. -/
  mixed : Bool

inductive Setting where
  | text (s : String)
  | flag (b : Bool)

/-- Arguments taken apart. -/
structure Given where
  settings : List (Topic × Setting)
  operands : List String

namespace OptionForm

def shortName : OptionForm → Option String
  | ⟨_, _, .value (some c)⟩ => some (String.ofList ['-', c])
  | _ => none

/-- The option as messages name it. -/
def hint (o : OptionForm) : String :=
  match o.shortName with
  | some short => s!"'{o.name}' / '{short}'"
  | none => s!"'{o.name}'"

end OptionForm

/-- What one argument says: a whole setting, or an option whose value is still to come. -/
inductive Token where
  | whole (topic : Topic) (setting : Setting)
  | pending (topic : Topic) (option : String)

/-- An argument that starts with a dash and is more than that. -/
def isOption (arg : String) : Bool := arg.toList.head? == some '-' && 1 < arg.length

/-- A text up to its first equals sign, and what follows it. -/
def splitValue (cs : List Char) : String × Option String :=
  let name := String.ofList (cs.takeWhile (· != '='))
  match cs.dropWhile (· != '=') with
  | [] => (name, none)
  | _ :: rest => (name, some (String.ofList rest))

namespace Form

variable (form : Form)

def long? (name : String) : Option OptionForm := form.options.find? (·.name == name)

def short? (name : String) : Option OptionForm := form.options.find? (·.shortName == some name)

/-- A short option, with the rest of the argument as its value if there is one. -/
def shortToken : List Char → Except Misuse Token
  | c :: rest =>
    let name := String.ofList ['-', c]
    match form.short? name with
    | none => .error (.noOption name [])
    | some o =>
      .ok (if rest.isEmpty then .pending o.topic name
        else .whole o.topic (.text (String.ofList rest)))
  | [] => .error (.noOption "-" [])

/-- Reads an argument that is an option. -/
def token (arg : String) : Except Misuse Token :=
  let (name, value) := splitValue arg.toList
  match form.long? name, value with
  | some ⟨_, topic, .value _⟩, some text => .ok (.whole topic (.text text))
  | some ⟨_, topic, .value _⟩, none => .ok (.pending topic name)
  | some ⟨_, _, .nothing _⟩, some _ => .error (.extraValue name)
  | some ⟨_, topic, .nothing flag⟩, none => .ok (.whole topic (.flag flag))
  | none, _ =>
    match arg.toList with
    | '-' :: '-' :: _ =>
      .error (.noOption name (Text.closeMatches name (form.options.map (·.name))))
    | _ => form.shortToken (arg.toList.drop 1)

/-- Takes arguments apart. -/
def takeApart : List String → Except Misuse Given
  | [] => .ok ⟨[], []⟩
  | arg :: rest =>
    if arg = "--" then .ok ⟨[], rest⟩
    else if isOption arg then
      match form.token arg with
      | .error misuse => .error misuse
      | .ok (.whole topic setting) =>
        (takeApart rest).map fun given =>
          { given with settings := (topic, setting) :: given.settings }
      | .ok (.pending topic option) =>
        match rest with
        | [] => .error (.noValue option)
        | text :: rest =>
          (takeApart rest).map fun given =>
            { given with settings := (topic, .text text) :: given.settings }
    else if form.mixed then
      (takeApart rest).map fun given => { given with operands := arg :: given.operands }
    else .ok ⟨[], arg :: rest⟩

end Form

namespace Given

variable (given : Given)

/-- The last text set for a topic. -/
def text? (topic : Topic) : Option String :=
  given.settings.reverse.findSome? fun (t, setting) =>
    match setting with
    | .text s => if t = topic then some s else none
    | .flag _ => none

/-- The last flag set for a topic. -/
def flag (topic : Topic) : Bool :=
  (given.settings.reverse.findSome? fun (t, setting) =>
    match setting with
    | .flag b => if t = topic then some b else none
    | .text _ => none).getD false

/-- The topics in the order in which they were first set. -/
def topics : List Topic := (given.settings.map (·.1)).eraseDups

end Given

def formats : List String := ["text", "json"]

/-- What a path leads to.  No name has a null character. -/
def lookAt (w : World) (path : String) : Except Crash (Except PathFault Entry) :=
  if path.toList.contains '\x00' then .error .unfitName else .ok (w.look path)

/-- Why a value does not suit an option, if it does not. -/
def refusal (w : World) (topic : Topic) (text : String) : Except Crash (Option BadValue) :=
  match topic with
  | .indent => .ok (if (Text.integer? text).isNone then some (.notInteger text) else none)
  | .format => .ok (if formats.contains text then none else some (.notOneOf text formats))
  | .output => (lookAt w text).map fun found =>
    match found with
    | .ok .folder => some (.folder text)
    | _ => none
  | _ => .ok none

/-- Why an operand is no file to read, if it is none. -/
def operandRefusal (w : World) (path : String) : Except Crash (Option BadValue) :=
  (lookAt w path).map fun found =>
    match found with
    | .error _ => some (.noFile path)
    | .ok .folder => some (.folder path)
    | .ok (.file _) => none

/-- Stops where a value is refused. -/
def accept (hint : String) (refused : Except Crash (Option BadValue)) : Except Stop Unit :=
  match refused with
  | .error crash => .error (.crash crash)
  | .ok (some reason) => .error (.badValue hint reason)
  | .ok none => .ok ()

namespace Form

variable (form : Form)

/-- The option of a topic as messages name it. -/
def hint (topic : Topic) : String :=
  ((form.options.find? (·.topic == topic)).map (·.hint)).getD ""

def checkOptions (w : World) (given : Given) (topics : List Topic) : Except Stop Unit :=
  topics.forM fun topic =>
    match given.text? topic with
    | some text => accept (form.hint topic) (refusal w topic text)
    | none => .ok ()

/-- The operands that are too many. -/
def extra (given : Given) : List String :=
  match form.operand with
  | none => given.operands
  | some _ => given.operands.drop 1

/-- Checks the operand; a command without one accepts none. -/
def checkOperand (w : World) (given : Given) : Except Stop String :=
  match form.operand, given.operands with
  | none, _ => .ok ""
  | some name, [] => .error (.misuse (.missingArgument name))
  | some name, path :: _ => (accept s!"'{name}'" (operandRefusal w path)).map fun _ => path

/-- Checks everything that was given and returns the operand. -/
def check (w : World) (given : Given) : Except Stop String := do
  form.checkOptions w given given.topics
  let operand ← form.checkOperand w given
  if form.extra given ≠ [] then throw (.misuse (.extraArguments (form.extra given)))
  return operand

end Form

end Bpmn.Command
