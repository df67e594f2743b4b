import Bpmn.Command.Flatten
import Bpmn.Command.Summary

namespace Bpmn.Command

/-- What the tool is and offers. -/
def about : Json :=
  .obj [("name", .str "BPMN Context"), ("version", .str "0.1.0"),
    ("description", .str "Flatten parsed BPMN documents into a queryable context model"),
    ("entity_lists", .ofTexts ["processes", "activities", "data_objects", "sequence_flows",
      "message_flows", "scripts"]),
    ("hooks", .obj [("type_resolver_extender", .bool true), ("extend_callback", .bool true)])]

def helpOption : OptionForm := ⟨"--help", .help, .nothing true⟩

def infoForm : Form := ⟨[helpOption], none, true⟩

/-- The options that may stand before the command. -/
def mainForm : Form := ⟨[helpOption], some "COMMAND", false⟩

def helpText : String :=
  String.join ["Usage: bpmn-context [flatten | summary | info] [OPTIONS] [FILE]\n\n",
    "BPMN Context CLI - flatten and inspect BPMN document contexts.\n"]

def help : Outcome := { Outcome.silent with output := helpText }

/-- Runs something with arguments taken apart, or tells how to use the tool. -/
def withGiven (form : Form) (args : List String) (run : Given → Outcome) : Outcome :=
  match form.takeApart args with
  | .error misuse => .ofStop (.misuse misuse)
  | .ok given => if given.flag .help then help else run given

/-- Runs a command with its checked arguments. -/
def withArguments (w : World) (form : Form) (args : List String) (run : Given → String → Outcome) :
    Outcome :=
  withGiven form args fun given =>
    match form.check w given with
    | .error stop => .ofStop stop
    | .ok operand => run given operand

def commandNames : List String := ["flatten", "summary", "info"]

/-- A name that no command has.  It is told as an option when it looks like one. -/
def withoutCommand (name : String) (args : List String) : Outcome :=
  withGiven mainForm (name :: args) fun _ =>
    .ofStop (.misuse (.noCommand name (Text.closeMatches name commandNames)))

/-- Runs the command of a name. -/
def runNamed (w : World) (name : String) (args : List String) : Outcome :=
  match name with
  | "flatten" => withArguments w FlattenRequest.form args fun given file =>
    (FlattenRequest.ofGiven given file).run w
  | "summary" => withArguments w SummaryRequest.form args fun given file =>
    (SummaryRequest.ofGiven given file).run w
  | "info" => withArguments w infoForm args fun _ _ =>
    { Outcome.silent with output := about.render (some 2) ++ "\n" }
  | _ => withoutCommand name args

/-- Runs a command line. -/
def run (w : World) (args : List String) : Outcome :=
  if args.isEmpty then { Outcome.silent with status := 2 }
  else
    withGiven mainForm args fun given =>
      match given.operands with
      | [] => .ofStop (.misuse .missingCommand)
      | name :: args => runNamed w name args

end Bpmn.Command
