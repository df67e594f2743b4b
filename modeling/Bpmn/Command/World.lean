import Bpmn.Command.Module
import Bpmn.Command.Path
import Bpmn.Model.Release

namespace Bpmn.Command

inductive Entry where
  | file (text : String)
  | folder

/-- What a command finds around it: files and folders, environment variables and the modules that provide
behaviours. -/
structure World where
  entries : Fields Entry
  environment : Fields String
  modules : Fields BehaviourModule
  /-- What a value that is no table has by name, and so provides in place of types. -/
  attributes : Json → Fields Json
  /-- What snapshots are read with. -/
  release : Release

namespace World

/-- The device and the folders that stand outside every working folder. -/
def outside : Fields Entry :=
  ("/dev/null", .file "") ::
    ["/bin", "/dev", "/etc", "/home", "/lib", "/opt", "/proc", "/root", "/run", "/sys", "/tmp", "/usr",
      "/var"].map fun name => (name, .folder)

variable (w : World)

/-- What stands at a place; a folder is there when something lies in it. -/
def entryAt (p : Path) : Option Entry :=
  if p.isBase then some .folder
  else
    match w.entries.find? fun (name, _) => Path.ofString name == p with
    | some (_, entry) => some entry
    | none =>
      if w.entries.any fun (name, _) => (Path.ofString name).isBelow p then some .folder else none

/-- What stands at a place in a folder. -/
def childAt (p : Path) : Except PathFault Entry :=
  if Path.nameLimit < (p.parts.getLast?.getD "").utf8ByteSize then .error .tooLong
  else
    match w.entryAt p with
    | none => .error .missing
    | some entry => .ok entry

/-- Follows the parts of a path from a place at which something stands. -/
def follow (p : Path) : Entry → List String → Except PathFault (Path × Entry)
  | entry, [] => .ok (p, entry)
  | .file _, _ :: _ => .error .notAFolder
  | .folder, part :: rest =>
    let next := p.step part
    if Path.staysPut part || part == Path.up then follow next .folder rest
    else
      match w.childAt next with
      | .error fault => .error fault
      | .ok entry => follow next entry rest

/-- What a path leads to. -/
def look (text : String) : Except PathFault Entry :=
  if text.isEmpty then .error .missing
  else if !Path.fits text then .error .tooLong
  else (w.follow (.start text) .folder (Path.split text)).map (·.2)

/-- The place of the file that is written at a path.  Parts that stay put do not count; the folder
has to be there, the file does not. -/
def target (text : String) : Except PathFault Path :=
  let whole := Path.ofString text
  if !Path.fits whole.toString then .error .tooLong
  else
    match whole.parts.getLast? with
    | none => .error .isAFolder
    | some name =>
      match w.follow (.start text) .folder whole.parts.dropLast with
      | .error fault => .error fault
      | .ok (_, .file _) => .error .notAFolder
      | .ok (folder, .folder) =>
        if name == Path.up then .error .isAFolder
        else
          match w.childAt (folder.child name) with
          | .error .missing => .ok (folder.child name)
          | .error fault => .error fault
          | .ok (.file _) => .ok (folder.child name)
          | .ok .folder => .error .isAFolder

/-- A text with line breaks of one kind. -/
def unifyBreaks : List Char → List Char
  | '\r' :: '\n' :: rest => '\n' :: unifyBreaks rest
  | '\r' :: rest => '\n' :: unifyBreaks rest
  | c :: rest => c :: unifyBreaks rest
  | [] => []

/-- The text of a file, empty when there is none. -/
def textOf (path : String) : String :=
  match w.look path with
  | .ok (.file text) => String.ofList (unifyBreaks text.toList)
  | _ => ""

end World

end Bpmn.Command
