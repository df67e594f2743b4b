import Bpmn.Document.Source
import Bpmn.Observe.Traced

namespace Bpmn

namespace Role

def source : String := "bpmn:sourceRef"

def target : String := "bpmn:targetRef"

def default : String := "bpmn:default"

def dataObject : String := "bpmn:dataObjectRef"

end Role

/-- A reference record whose element is an object of the document. -/
structure Link where
  role : Value
  id : Value
  place : Nat

/-- What the records say about one flow. -/
structure FlowEdge where
  id : Value
  type : Value
  source : Value
  target : Value
  isDefault : Bool
  element : Value

structure Links where
  edges : List FlowEdge
  dataObjects : List Link
  inputs : List Link
  outputs : List Link

namespace FlowEdge

/-- The edge of a flow that no record mentions. -/
def bare (id : Value) : FlowEdge := ⟨id, .null, .null, .null, false, .null⟩

/-- Marked or left open; a flow is never marked as no default. -/
def mark (e : FlowEdge) : Option Bool := if e.isDefault then some true else none

end FlowEdge

namespace Links

def none : Links := ⟨[], [], [], []⟩

/-- Changes the edge of a flow, which is added behind the others when it is new. -/
def change (id : Value) (f : FlowEdge → FlowEdge) : List FlowEdge → List FlowEdge
  | [] => [f (.bare id)]
  | e :: rest => if e.id.sameKey id then f e :: rest else e :: change id f rest

/-- The edge of a flow; without an identifier it is empty. -/
def edge (links : Links) (id : Value) : Except Fault FlowEdge := do
  let id ← id.asKey
  if id.isNull then return .bare .null
  return (links.edges.find? (·.id.sameKey id)).getD (.bare id)

variable (g : Graph) (elements : Index)

/-- The element of a flow: the one indexed under its identifier if there is one. -/
def flowElement (id : Value) (place : Nat) : Value :=
  (g.orAbsent (elements.find id)).getD (.node place)

/-- The edges with what a record says about a flow. -/
def addEdge (edges : List FlowEdge) (link : Link) : Except Fault (List FlowEdge) := do
  let flow := g.field link.place "id"
  if link.role.isText Role.source && !flow.isNull then
    let flow ← flow.asKey
    let element := flowElement g elements flow link.place
    let type ← g.typeOf element
    return change flow (fun e => { e with element, type, source := link.id }) edges
  else if link.role.isText Role.target && !flow.isNull then
    return change (← flow.asKey) (fun e => { e with target := link.id }) edges
  else if link.role.isText Role.default && !link.id.isNull then
    return change (← link.id.asKey) (fun e => { e with isDefault := true }) edges
  else return edges

/-- The links with one more record. -/
def add (links : Links) (record : ReferenceRecord) : Except Fault Links := do
  match g.orAbsent record.element with
  | .none => return links
  | some element =>
    let link : Link := ⟨record.property, record.id, ← Graph.placeOf element⟩
    let type := g.field link.place "$type"
    let keep (wanted : Bool) (kept : List Link) : List Link := if wanted then kept ++ [link] else kept
    return {
      edges := ← addEdge g elements links.edges link
      dataObjects := keep (link.role.isText Role.dataObject) links.dataObjects
      inputs := keep (type.isText "bpmn:DataInputAssociation") links.inputs
      outputs := keep (type.isText "bpmn:DataOutputAssociation") links.outputs }

/-- Sorts the records of a document. -/
def ofRecords (records : List ReferenceRecord) : Except Fault Links :=
  records.foldlM (add g elements) none

/-- Whether a record asks the table of elements for its flow. -/
def asksTable (r : ReferenceRecord) : Bool :=
  match r.element with
  | .node place =>
    !(g.fields place).isEmpty && r.property.isText Role.source && !(g.field place "id").isNull
  | _ => false

/-- Sorts records beside what should be a table of elements.  A value that is none fails at the first
record that asks it. -/
def ofTable (table : Value) (records : List ReferenceRecord) : Except Fault Links :=
  match g.orAbsent table with
  | .none => ofRecords g .empty records
  | some (.node place) => ofRecords g (.ofFields (g.fields place)) records
  | some _ => do
    let links ← ofRecords g .empty (records.takeWhile fun r => !asksTable g r)
    match records.find? (asksTable g) with
    | .none => return links
    | some r =>
      let _ ← (← r.elementId g).asKey
      throw .notAnObject

/-- Sorts the records and reports what was found. -/
def build (records : List ReferenceRecord) : Traced Links := do
  let links ← (ofRecords g elements records : Except Fault Links)
  let skipped := (records.filter fun r => !g.truthy r.element).length
  if skipped ≠ 0 then Traced.debug s!"Skipped {skipped} unresolved reference records"
  Traced.debug (s!"Reference index: {links.edges.length} flow edges, " ++
    s!"{links.dataObjects.length} data object refs, " ++
    s!"{links.inputs.length} input / {links.outputs.length} output association records")
  return links

end Links

end Bpmn
