namespace Bpmn.Command

/-- A place by the names on the way to it; leading pairs of dots lie above the working folder. -/
structure Path where
  absolute : Bool
  parts : List String
  deriving DecidableEq

/-- Why a path does not lead where it should. -/
inductive PathFault where
  | missing
  | notAFolder
  | isAFolder
  | tooLong
  deriving DecidableEq

/-- The class of a failure. -/
def PathFault.name : PathFault → String
  | missing => "FileNotFoundError"
  | notAFolder => "NotADirectoryError"
  | isAFolder => "IsADirectoryError"
  | tooLong => "OSError"

namespace Path

/-- What stands between the slashes of a path. -/
def split (text : String) : List String := text.splitOn "/"

/-- Whether a part leads back to the folder it is asked of. -/
def staysPut (part : String) : Bool := part.isEmpty || part == "."

/-- A part that leads to the folder above. -/
def up : String := ".."

/-- The longest name and the shortest text that is too long for a path, in bytes. -/
def nameLimit : Nat := 255

def textLimit : Nat := 4096

def fits (text : String) : Bool := text.utf8ByteSize < textLimit

/-- Where the way of a text starts. -/
def start (text : String) : Path := ⟨text.toList.head? == some '/', []⟩

def ofParts (absolute : Bool) (parts : List String) : Path :=
  ⟨absolute, parts.filter fun part => !staysPut part⟩

def ofString (text : String) : Path := ofParts (start text).absolute (split text)

/-- A place in a folder. -/
def child (p : Path) (name : String) : Path := { p with parts := p.parts ++ [name] }

/-- The working folder, one above it or the root. -/
def isBase (p : Path) : Bool := p.parts.getLast? == none || p.parts.getLast? == some up

/-- The folder above; there is none above the root. -/
def parent (p : Path) : Path :=
  if p.isBase then if p.absolute then p else p.child up
  else { p with parts := p.parts.dropLast }

def isBelow (p folder : Path) : Bool :=
  p.absolute == folder.absolute && folder.parts.length < p.parts.length &&
    folder.parts.isPrefixOf p.parts

def toString (p : Path) : String :=
  (if p.absolute then "/" else "") ++ String.intercalate "/" p.parts

/-- The place that a part leads to from a folder. -/
def step (p : Path) (part : String) : Path :=
  if staysPut part then p else if part == up then p.parent else p.child part

/-- The places that a text leads through. -/
def visited (text : String) : List Path :=
  (split text).foldl (fun done part => done ++ [(done.getLast?.getD (start text)).step part]) []

end Path

end Bpmn.Command
