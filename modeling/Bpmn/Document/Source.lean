import Bpmn.Document.Index

namespace Bpmn

/-- An element refers to the element of some identifier in some role. -/
structure ReferenceRecord where
  property : Value
  id : Value
  element : Value

/-- The input of a mapping; `elements` finds the elements by identifier. -/
structure Source where
  root : Value
  elements : Index
  references : List ReferenceRecord

namespace ReferenceRecord

/-- Reads a record; the role is empty by default. -/
def ofValue (g : Graph) (v : Value) : Except Fault ReferenceRecord := do
  match v with
  | .node place =>
    let fields := g.fields place
    return {
      property := (fields.get? "property").getD (.str "")
      id := (fields.get? "id").getD .null
      element := (fields.get? "element").getD .null }
  | _ => throw .notAnObject

/-- The identifier of the referring element. -/
def elementId (g : Graph) (r : ReferenceRecord) : Except Fault Value := g.idOf r.element

end ReferenceRecord

namespace Source

/-- The root element, given as such or through its handler. -/
def rootOf (g : Graph) (v : Value) : Except Fault Value := do
  match ← g.get v "rootElement" with
  | .null =>
    match g.orAbsent (← g.get v "rootHandler") with
    | none => throw .noRoot
    | some handler =>
      match ← g.get handler "element" with
      | .null => throw .noRoot
      | root => return root
  | root => return root

def ofValue (g : Graph) (v : Value) : Except Fault Source := do
  let root ← rootOf g v
  let references ← (← g.itemsOrNone (← g.get v "references")).mapM (ReferenceRecord.ofValue g)
  let elements ← Index.ofValue g (← g.get v "elementsById")
  return { root, elements, references }

/-- What holds the elements directly below the root, null when there are none. -/
def rootElements (g : Graph) (s : Source) : Except Fault Value := do
  return (g.orAbsent (← g.get s.root "rootElements")).getD .null

end Source

end Bpmn
