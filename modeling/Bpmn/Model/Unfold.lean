import Bpmn.Document.Graph
import Bpmn.Model.Behaviour

namespace Bpmn

namespace Model

/-- What a member of a bundle is read as. -/
def ofMember : Member → Model
  | .eventDefinitions => behaviourDefinition
  | .loopCharacteristics => behaviourDefinition
  | .ioSpecification => behaviourDefinition
  | .resources => resource
  | .attachedTo => elementRef
  | .dataInputs => dataParameter
  | .dataOutputs => dataParameter

def entityParts : List (String × Model) := [("parent", scopeRef), ("behaviour", behaviour)]

/-- The fields of a model that hold an object or a list of objects, and what these are read as.  A bundle
reads each member under one of its two keys. -/
def parts {α : Type} (fields : Fields α) : Model → List (String × Model)
  | referenceLink => [("element", elementRef)]
  | associationEnd => [("element", elementRef), ("data_object", referenceLink)]
  | association => [("source", associationEnd), ("target", associationEnd)]
  | dataParameterBehaviour => [("association", association)]
  | dataParameter => [("behaviour", dataParameterBehaviour)]
  | behaviour => Member.all.map fun m => (m.keyIn fields, ofMember m)
  | behaviourDefinition => [("behaviour", behaviour)]
  | entity => entityParts
  | process => entityParts
  | activity => entityParts
  | sequenceFlow => entityParts
  | messageFlow =>
    entityParts ++ [("source", messageFlowEndpoint), ("target", messageFlowEndpoint)]
  | dataObject => entityParts ++ [("references", dataObjectReference)]
  | script => [("parent", scopeRef)]
  | mappedContext =>
    [("definition", definition), ("activities", activity), ("data_objects", dataObject),
      ("message_flows", messageFlow), ("processes", process), ("sequence_flows", sequenceFlow),
      ("scripts", script)]
  | _ => []

/-- The field of a model that holds an object as it is. -/
def record? : Model → Option String
  | resource => some "behaviour"
  | dataObjectReference => some "behaviour"
  | script => some "script"
  | _ => none

end Model

namespace Graph

variable (g : Graph)

/-- A value in place of an object or of a list of objects.  A list among those of a list is no object
whatever is in it. -/
def unfoldObjects (object : Nat → Json) : Value → Json
  | .node place => object place
  | .list place =>
    .arr ((g.listed place).map fun
      | .node inner => object inner
      | .list _ => .arr []
      | item => item.plain)
  | v => v.plain

/-- A field of an object that is read as a model, given how to unfold its parts. -/
def unfoldField (m : Model) (parts : List (String × Model)) (object : Model → Nat → Json)
    (key : String) (v : Value) : Json :=
  match parts.lookup key with
  | some part => g.unfoldObjects (object part) v
  | none => if m.record? == some key then g.unfoldDown 1 v else g.unfold v

/-- An object read as a model, below the objects that are being read as definitions of behaviour. -/
def unfoldPart : Nat → List Nat → Model → Nat → Json
  | 0, _, _, _ => .endless
  | depth + 1, path, m, place =>
    if m = .behaviourDefinition ∧ place ∈ path then .endless
    else
      let path := if m = .behaviourDefinition then place :: path else path
      let fields := g.fields place
      .obj (fields.map fun (key, v) =>
        (key, g.unfoldField m (m.parts fields) (unfoldPart depth path) key v))

/-- More than the longest way along parts: each object as a definition and a bundle after each, the way
to the first definition and that from the last one. -/
def partDepth : Nat := 2 * g.contents.size + 12

/-- A value that is read as a model. -/
def unfoldAs (m : Model) (v : Value) : Json :=
  g.unfoldObjects (g.unfoldPart g.partDepth [] m) v

/-- A member of a bundle. -/
def unfoldMember (m : Member) (v : Value) : Json := g.unfoldAs (.ofMember m) v

end Graph

end Bpmn
