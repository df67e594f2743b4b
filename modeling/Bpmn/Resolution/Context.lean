import Bpmn.Json.Reader
import Bpmn.Mapping.Context
import Bpmn.Model.Check
import Bpmn.Resolution.Binding

namespace Bpmn

/-- A context after a resolution, and how the resolution went. -/
structure Resolution where
  context : MappedContext
  outcome : Traced Unit

namespace Resolution

/-- What is left of a pass and how it is reported. -/
def settle (m bound : MappedContext) : Option Fault → Resolution
  | none => ⟨bound, pure ()⟩
  | some (.unknownType type) =>
    let text := s!"Type resolution failed for definition {shown m.id}: " ++
      ((Fault.unknownType type).message?.getD "")
    ⟨bound.unbound, ⟨[.message .error text], .error (.unknownType type)⟩⟩
  | some fault => ⟨bound, .ofResult (.error fault)⟩

/-- The pass of a resolver over a context; without a resolver there is none. -/
def pass (m : MappedContext) : Option Resolver → Resolution
  | none => ⟨m, .ofResult (.error .noResolver)⟩
  | some r =>
    let (bound, fault) := (r.bindContext m).run none
    settle m bound fault

end Resolution

/-- Reports a resolver that has been set up. -/
def Resolver.ready (r : Resolver) : Traced Resolver := do
  Traced.debug r.readyText
  return r

namespace MappedContext

/-- Resolves a context. -/
def resolve (m : MappedContext) (resolver : Option Resolver) : Resolution :=
  let done := Resolution.pass m resolver
  { done with
    outcome := Traced.span "resolve_types" m.id (Traced.stage "type_resolution" done.outcome) }

/-- The resolved context, if the resolution succeeded. -/
def resolved (m : MappedContext) (resolver : Option Resolver) : Traced MappedContext := do
  let done := m.resolve resolver
  done.outcome
  return done.context

/-- Maps and resolves a document. -/
def build (g : Graph) (document : Value) (resolver : Option Resolver)
    (extension : Option Extension) : Traced MappedContext := do
  let (m, _) ← ofDocument g document extension
  m.resolved resolver

/-- What a context is read back from. -/
inductive Snapshot where
  | text (s : String)
  | bytes (b : ByteArray)
  | value (j : Json)

namespace Snapshot

def origin : Snapshot → Origin
  | value _ => .value
  | _ => .text

/-- The value of a snapshot, if it is one. -/
def value? : Snapshot → Option Json
  | text s => Json.read? s
  | bytes b => (String.fromUTF8? b).bind Json.read?
  | value j => some j

/-- How a release reads a snapshot. -/
def mode (release : Release) : Snapshot → Mode
  | value _ => .value
  | _ => .text release

def check (release : Release) (s : Snapshot) : Checked MappedContext :=
  match s.value? with
  | some j => Check.mappedContext (s.mode release) j
  | none => .wrong .badText

end Snapshot

variable (release : Release)

/-- The context of a snapshot, without bindings of its own choice. -/
def ofSnapshot (s : Snapshot) : Traced MappedContext :=
  match s.check release with
  | .valid m => pure m
  | .invalid issues =>
    ⟨[.message .error s!"Invalid serialized context: {issues.length} errors"],
      .error (.unreadable s.origin issues)⟩

/-- Reads a snapshot and resolves it. -/
def restore (s : Snapshot) (resolver : Option Resolver) : Traced MappedContext := do
  (← ofSnapshot release s).resolved resolver

end MappedContext

end Bpmn
