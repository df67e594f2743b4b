namespace Bpmn.Key

/-- The key without a line break at its end. -/
def chomp (key : List Char) : List Char :=
  match key.getLast? with
  | some '\n' => key.dropLast
  | _ => key

/-- One line that starts with another character than a dollar sign. -/
def isStem (stem : List Char) : Bool :=
  !stem.isEmpty && stem.head? != some '$' && !stem.contains '\n'

/-- Whether a key is a stem and then the given ending. -/
def endsWith (ending key : List Char) : Bool :=
  let key := chomp key
  let size := key.length - ending.length
  key.drop size == ending && isStem (key.take size)

/-- Names a single referenced element. -/
def isRef (key : String) : Bool := endsWith "Ref".toList key.toList

/-- Names several referenced elements. -/
def isRefList (key : String) : Bool := endsWith "Refs".toList key.toList

def plainReferences : List String := ["default", "incoming", "outgoing"]

/-- Holds references to other elements. -/
def isReference (key : String) : Bool := plainReferences.contains key || isRef key || isRefList key

/-- A field that a copy of an element keeps: its type, or a field that is neither internal nor a
reference. -/
def isOwn (key : String) : Bool :=
  (key == "$type" || !(key.toList.head? == some '$')) && !isReference key

end Bpmn.Key
