import Bpmn.Mapping.Scope

namespace Bpmn

/-- The definition that a root element stands for. -/
def Graph.definition (g : Graph) (root : Nat) : Except Fault Definition :=
  let field (key name : String) := (g.field root key).text name
  (Definition.mk .null <$> g.idText root <*> g.typeText root <*> g.nameText root
    <*> field "targetNamespace" "target_namespace" <*> field "exporter" "exporter"
    <*> field "exporterVersion" "exporter_version").as .definition

namespace MappedContext

/-- A context of a definition and the entities below it. -/
def ofFlattened (definition : Definition) (f : Flattened) : MappedContext where
  id := definition.id
  type := definition.type
  name := definition.name
  definition
  activities := f.activities
  dataObjects := f.dataObjects
  messageFlows := f.messageFlows
  processes := f.processes
  sequenceFlows := f.sequenceFlows
  scripts := f.scripts

/-- The sizes of the entity lists, in the order they are counted. -/
def sizes (m : MappedContext) : List (String × Nat) :=
  [("processes", m.processes.length), ("activities", m.activities.length),
    ("data_objects", m.dataObjects.length), ("message_flows", m.messageFlows.length),
    ("sequence_flows", m.sequenceFlows.length), ("scripts", m.scripts.length)]

def mappedText (m : MappedContext) : String :=
  s!"Mapped definition {shown m.id}: {m.processes.length} processes, " ++
    s!"{m.activities.length} activities, {m.sequenceFlows.length} sequence flows, " ++
    s!"{m.messageFlows.length} message flows, {m.dataObjects.length} data objects"

/-- Reports a context that has been mapped. -/
def announce (m : MappedContext) : Traced Unit := do
  Traced.info m.mappedText
  m.sizes.forM fun (list, size) => Traced.report (.ofSize list size m.id)

/-- Flattens everything below the root of a document. -/
def flattenSource (g : Graph) (source : Source) (root : Nat) (definition : Definition)
    (extension : Option Extension) : Walk Flattened := do
  let links ← Traced.stage "reference_index" (Links.build g source.elements source.references)
  let roots := (g.orAbsent (g.field root "rootElements")).getD .null
  let survey : Survey := ⟨g, links, roots, extension⟩
  fun diary => Traced.stage "scope_flattening"
    ((survey.flatten ⟨definition.id, definition.type⟩ roots).run diary)

/-- Maps a document, and tells what the extension has seen and registered. -/
def ofDocument (g : Graph) (document : Value) (extension : Option Extension) :
    Traced (MappedContext × Diary) := do
  let source ← (Source.ofValue g document : Except Fault Source)
  let root ← (Graph.placeOf source.root : Except Fault Nat)
  let definition ← (g.definition root : Except Fault Definition)
  let (flattened, diary) ← Traced.span "map_moddle_context" definition.id
    ((flattenSource g source root definition extension).run ⟨[], []⟩)
  let m := ofFlattened definition flattened
  m.announce
  return (m, diary)

end MappedContext

end Bpmn
