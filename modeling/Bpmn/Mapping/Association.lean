import Bpmn.Document.Copy
import Bpmn.Document.Text
import Bpmn.Mapping.Links
import Bpmn.Model.Check

namespace Bpmn

/-- Whether a parameter takes data in or gives data out. -/
inductive Direction where
  | input
  | output
  deriving DecidableEq

namespace Direction

/-- The role of the record that names the parameter. -/
def nearRole : Direction → String
  | input => Role.target
  | output => Role.source

/-- The role of the record that names the data object reference. -/
def farRole : Direction → String
  | input => Role.source
  | output => Role.target

/-- The association records of a direction. -/
def links : Direction → Links → List Link
  | input, links => links.inputs
  | output, links => links.outputs

/-- An association of its near and its far end. -/
def join : Direction → Option AssociationEnd → Option AssociationEnd → Association
  | input, near, far => ⟨far, near⟩
  | output, near, far => ⟨near, far⟩

end Direction

namespace Graph

variable (g : Graph)

/-- Describes an object by its identifier, type and name. -/
def elementRefAt (place : Nat) : Except Fault ElementRef :=
  (ElementRef.mk <$> g.idText place <*> g.typeText place <*> g.nameText place).as .elementRef

/-- Describes an element; other values have no description. -/
def elementRef : Value → Except Fault (Option ElementRef)
  | .node place => return some (← g.elementRefAt place)
  | _ => return none

end Graph

namespace Link

variable (g : Graph)

/-- The identifier of the element that refers. -/
def elementId (link : Link) : Value := g.field link.place "id"

/-- The checked fields of a link, given the description of its element. -/
def fields (link : Link) (element : ElementRef) : Checked ReferenceLink :=
  (ReferenceLink.mk <$> link.id.text "id"
    <*> (match link.role with
      | .str role => Checked.valid role
      | _ => (Checked.wrong .notText).under (.field "property"))
    <*> .valid (some element))

/-- A record reduced to identifiers. -/
def toReference (link : Link) : Except Fault ReferenceLink := do
  (link.fields (← g.elementRefAt link.place)).as .referenceLink

/-- An end of an association, with the data object bound there. -/
def toEnd (link : Link) (dataObject : Option ReferenceLink) : Except Fault AssociationEnd := do
  (AssociationEnd.mk <$> link.fields (← g.elementRefAt link.place)
    <*> .valid dataObject).as .associationEnd

end Link

namespace Links

variable (g : Graph)

/-- The record that binds the data object reference of some identifier. -/
def dataObjectRef (links : Links) (reference : Value) : Except Fault (Option ReferenceLink) := do
  if reference.isNull then return .none
  match ← links.dataObjects.findM? fun link => g.same (link.elementId g) reference with
  | .none => return .none
  | some link => return some (← link.toReference g)

/-- The first record of a role that names something. -/
def naming (links : List Link) (role : String) (id : Value) : Except Fault (Option Link) :=
  (links.filter (·.role.isText role)).findM? fun link => g.same link.id id

/-- The first record of a role on an association; null stands for any association. -/
def onElement (links : List Link) (role : String) (element : Value) :
    Except Fault (Option Link) :=
  let links := links.filter (·.role.isText role)
  if element.isNull then .ok links.head?
  else links.findM? fun link => g.same (link.elementId g) element

/-- The record that names a parameter; a parameter without an identifier has none. -/
def near (links : Links) (d : Direction) (parameter : Value) : Except Fault (Option Link) :=
  if g.truthy parameter then naming g (d.links links) d.nearRole parameter else .ok .none

/-- The record at the other end of the association of a record. -/
def far (links : Links) (d : Direction) : Option Link → Except Fault (Option Link)
  | .none => .ok .none
  | some near => onElement g (d.links links) d.farRole (near.elementId g)

/-- A far end, with its data object. -/
def farEnd (links : Links) (far : Option Link) : Except Fault (Option AssociationEnd) := do
  match far with
  | .none => return .none
  | some link => return some (← link.toEnd g (← links.dataObjectRef g link.id))

def nearEnd (near : Option Link) : Except Fault (Option AssociationEnd) := do
  match near with
  | .none => return .none
  | some link => return some (← link.toEnd g .none)

/-- The association that feeds a data input: its target names the input, its source what is read. -/
def dataInput (links : Links) (parameter : Value) : Except Fault Association := do
  let target ← links.near g .input parameter
  let source ← links.far g .input target
  let source ← links.farEnd g source
  return ⟨source, ← nearEnd g target⟩

/-- The association that a data output feeds: its source names the output, its target what is written. -/
def dataOutput (links : Links) (parameter : Value) : Except Fault Association := do
  let source ← links.near g .output parameter
  let target ← links.far g .output source
  let source ← nearEnd g source
  return ⟨source, ← links.farEnd g target⟩

/-- The association of a parameter. -/
def association (links : Links) : Direction → Value → Except Fault Association
  | .input => links.dataInput g
  | .output => links.dataOutput g

/-- A parameter with its own fields and its association. -/
def parameter (links : Links) (d : Direction) (v : Value) : Except Fault DataParameter := do
  let place ← Graph.placeOf v
  let own ← g.ownFieldsAt place
  let association ← links.association g d (g.field place "id")
  let fields := Fields.put own "type" (g.unfold (g.field place "$type"))
  (Check.dataParameterWith (.valid association) fields).as .dataParameter

/-- The parameters of a list, none when there is no list. -/
def parameters (links : Links) (d : Direction) (v : Value) :
    Except Fault (Option (List DataParameter)) := do
  match v.nonNull? with
  | .none => return .none
  | some v => return some (← (← g.items v).mapM (links.parameter g d))

/-- The data inputs and outputs of an I/O specification. -/
def ioParameters (links : Links) (specification : Nat) :
    Except Fault (Option (List DataParameter) × Option (List DataParameter)) := do
  let inputs ← links.parameters g .input (g.field specification "dataInputs")
  let outputs ← links.parameters g .output (g.field specification "dataOutputs")
  return (inputs, outputs)

end Links

end Bpmn
