import Bpmn.Proofs.Mapping.Tables
import Bpmn.Resolution.Context

namespace Bpmn

def Event.isMessage : Event → Bool
  | .message .. => true
  | _ => false

/-- Nothing but messages is reported. -/
def Traced.Quiet {α : Type} (run : Traced α) : Prop := ∀ e ∈ run.events, e.isMessage = true

/-- A run reports nothing but messages, whatever diary it starts with. -/
def Walk.Quiet {α : Type} (w : Walk α) : Prop := ∀ d, (w.run d).Quiet

/-- What is reported besides messages. -/
def Traced.marks {α : Type} (run : Traced α) : List Event := run.events.filter (!·.isMessage)

variable {α β : Type}

namespace Traced

theorem events_bind (run : Traced α) (next : α → Traced β) : (run >>= next).events =
    run.events ++ match run.result with
      | .ok a => (next a).events
      | .error _ => [] := by
  change (Traced.bind run next).events = _
  rw [Traced.bind]
  cases run.result with
  | ok a => rfl
  | error fault => exact (List.append_nil _).symm

theorem lift_bind (e : Except Fault α) (next : α → Traced β) : (liftM e : Traced α) >>= next =
    match e with
    | .ok a => next a
    | .error fault => .ofResult (.error fault) := by
  cases e <;> rfl

theorem Quiet.ofResult (result : Except Fault α) : (Traced.ofResult result).Quiet := by
  intro e he
  cases he

theorem Quiet.debug (text : String) : (Traced.debug text).Quiet := by
  intro e he
  obtain rfl := List.mem_singleton.mp he
  rfl

theorem Quiet.bind {run : Traced α} {next : α → Traced β} (hrun : run.Quiet)
    (hnext : ∀ a, (next a).Quiet) : (run >>= next).Quiet := by
  intro e he
  rw [events_bind] at he
  rcases List.mem_append.mp he with he | he
  · exact hrun e he
  · cases hresult : run.result with
    | ok a =>
      rw [hresult] at he
      exact hnext a e he
    | error fault =>
      rw [hresult] at he
      cases he

end Traced

namespace Walk.Quiet

theorem pure (a : α) : Walk.Quiet (Pure.pure a) := fun _ => .ofResult _

theorem lift (e : Except Fault α) : Walk.Quiet (liftM e : Walk α) := by
  intro d
  cases e with
  | ok a => exact .ofResult _
  | error fault => exact .ofResult _

theorem debug (text : String) : Walk.Quiet (liftM (Traced.debug text) : Walk Unit) :=
  fun _ => Traced.Quiet.bind (.debug text) fun _ => .ofResult _

theorem get : Walk.Quiet (MonadState.get : Walk Diary) := fun _ => .ofResult _

theorem set (next : Diary) : Walk.Quiet (MonadStateOf.set next : Walk PUnit) := fun _ => .ofResult _

theorem bind {w : Walk α} {next : α → Walk β} (hw : w.Quiet) (hnext : ∀ a, (next a).Quiet) :
    (w >>= next).Quiet := by
  intro d
  rw [StateT.run_bind]
  exact (hw d).bind fun p => hnext p.1 p.2

theorem mapM {f : α → Walk β} {l : List α} (hf : ∀ a, (f a).Quiet) : Walk.Quiet (l.mapM f) := by
  induction l with
  | nil =>
    rw [List.mapM_nil]
    exact pure _
  | cons a rest ih =>
    rw [List.mapM_cons]
    exact bind (hf a) fun b => bind ih fun bs => pure _

end Walk.Quiet

namespace Survey

variable (s : Survey)

theorem quiet_visit (place : Nat) : (s.visit place).Quiet := by
  rw [visit]
  split
  · exact .pure _
  · refine .bind (.lift _) fun owner => .bind .get fun diary => ?_
    exact .bind (.mapM fun request => .lift _) fun scripts => .bind (.set _) fun _ => .pure _

/-- A walk tells the scopes it has left and nothing else. -/
theorem quiet_element (depth : Nat) (parent : ScopeRef) (v : Value) : (s.element depth parent v).Quiet := by
  induction depth generalizing parent v with
  | zero => exact .lift _
  | succ depth ih =>
    have hbelow (scope : ScopeRef) (v : Value) : Walk.Quiet (do
        let items ← (s.graph.itemsOrNone v : Except Fault (List Value))
        return Flattened.join (← items.mapM (s.element depth scope)) : Walk Flattened) :=
      .bind (.lift _) fun items => .bind (.mapM fun item => ih scope item) fun _ => .pure _
    rw [element]
    refine .bind (.lift _) fun place => .bind (.lift _) fun skip => ?_
    split
    · exact .pure _
    split
    · exact .bind (hbelow _ _) fun _ => .pure _
    split
    · refine .bind (.lift _) fun own => .bind (s.quiet_visit place) fun scripts => ?_
      exact .bind (hbelow _ _) fun nested => .bind (.debug _) fun _ => .pure _
    · exact .bind (.lift _) fun own => .bind (s.quiet_visit place) fun scripts => .pure _

theorem quiet_flatten (parent : ScopeRef) (elements : Value) : (s.flatten parent elements).Quiet :=
  .bind (.lift _) fun _ => .bind (.mapM fun item => s.quiet_element _ parent item) fun _ => .pure _

end Survey

theorem Links.quiet_build (g : Graph) (elements : Index) (records : List ReferenceRecord) :
    (build g elements records).Quiet := by
  refine .bind (.ofResult _) fun links => ?_
  dsimp only
  split
  · exact .bind (.debug _) fun _ => .bind (.debug _) fun _ => .ofResult _
  · exact .bind (.debug _) fun _ => .ofResult _

namespace Traced

variable {run : Traced α}

theorem Quiet.marks (h : run.Quiet) : run.marks = [] := by
  rw [Traced.marks, List.filter_eq_nil_iff]
  intro e he
  simp [h e he]

theorem marks_bind (run : Traced α) (next : α → Traced β) : (run >>= next).marks =
    run.marks ++ match run.result with
      | .ok a => (next a).marks
      | .error _ => [] := by
  rw [marks, events_bind, List.filter_append]
  cases run.result <;> rfl

theorem marks_stage (name : String) (run : Traced α) :
    (run.stage name).marks = run.marks ++ [.stage (.str name)] := by
  rw [marks, stage, ending, List.filter_append]
  rfl

theorem marks_span (name : String) (definition : Option String) (run : Traced α) :
    (span name definition run).marks =
      run.marks ++ [.span (.str name) (.ofText definition) run.failed] := by
  rw [marks, span, ending, List.filter_append]
  rfl

end Traced

namespace MappedContext

/-- What a mapping starts from: the parts of a document, the place of its root and the definition there. -/
def opened (g : Graph) (document : Value) : Except Fault (Source × Nat × Definition) := do
  let source ← Source.ofValue g document
  let root ← Graph.placeOf source.root
  return (source, root, ← g.definition root)

/-- What is told of the lists of a context that has been made. -/
def sizeEvents : Except Fault (MappedContext × Diary) → List Event
  | .ok (m, _) => m.sizes.map fun (list, size) => .ofSize list size m.id
  | .error _ => []

/-- Announces the context of what has been flattened. -/
def announced (definition : Definition) (p : Flattened × Diary) : Traced (MappedContext × Diary) := do
  (ofFlattened definition p.1).announce
  return (ofFlattened definition p.1, p.2)

theorem marks_announced (definition : Definition) (p : Flattened × Diary) :
    (announced definition p).marks = sizeEvents (announced definition p).result := rfl

variable {g : Graph} {document : Value} {extension : Option Extension}

/-- A mapping has a span of its own from where its document has been opened. -/
theorem ofDocument_eq : ofDocument g document extension = match opened g document with
    | .error fault => .ofResult (.error fault)
    | .ok (source, root, definition) =>
      Traced.span "map_moddle_context" definition.id
        ((flattenSource g source root definition extension).run ⟨[], []⟩) >>= announced definition := by
  rw [ofDocument, opened, Traced.lift_bind]
  cases Source.ofValue g document with
  | error fault => rfl
  | ok source =>
    dsimp only
    rw [bind_of_ok, Traced.lift_bind]
    cases Graph.placeOf source.root with
    | error fault => rfl
    | ok root =>
      dsimp only
      rw [bind_of_ok, Traced.lift_bind]
      cases g.definition root <;> rfl

theorem marks_flattenSource (source : Source) (root : Nat) (definition : Definition) (d : Diary) :
    ((flattenSource g source root definition extension).run d).marks =
      .stage (.str "reference_index") ::
        if (Links.ofRecords g source.elements source.references).isOk then
          [.stage (.str "scope_flattening")] else [] := by
  rw [StateT.run, run_flattenSource, Traced.marks_bind, Traced.marks_stage, (Links.quiet_build _ _ _).marks,
    Traced.result_stage, Links.result_build]
  cases hlinks : Links.ofRecords g source.elements source.references with
  | error fault => rfl
  | ok links =>
    dsimp only
    rw [Traced.marks_stage, (Survey.quiet_flatten _ _ _ _).marks]
    rfl

/-- A mapping that starts marks the end of its first stage, that of the second if the records were sorted,
and that of its run. -/
theorem marks_ofDocument : (ofDocument g document extension).marks =
    match opened g document with
    | .error _ => []
    | .ok (source, _, definition) =>
      .stage (.str "reference_index") ::
        ((if (Links.ofRecords g source.elements source.references).isOk then
          [.stage (.str "scope_flattening")] else []) ++
        .span (.str "map_moddle_context") (.ofText definition.id) (ofDocument g document extension).failed ::
        sizeEvents (ofDocument g document extension).result) := by
  rw [ofDocument_eq]
  cases opened g document with
  | error fault => rfl
  | ok p =>
    obtain ⟨source, root, definition⟩ := p
    dsimp only
    rw [Traced.failed, Traced.marks_bind, Traced.marks_span, marks_flattenSource, Traced.result_bind,
      Traced.result_span, Traced.failed]
    cases ((flattenSource g source root definition extension).run ⟨[], []⟩).result with
    | error fault =>
      rw [List.append_assoc, List.append_nil]
      rfl
    | ok p =>
      rw [bind_of_ok, ← marks_announced, List.append_assoc]
      rfl

theorem quiet_settle (m bound : MappedContext) (fault : Option Fault) :
    (Resolution.settle m bound fault).outcome.Quiet := by
  cases fault with
  | none => exact .ofResult _
  | some fault =>
    cases fault with
    | unknownType type =>
      intro e he
      obtain rfl := List.mem_singleton.mp he
      rfl
    | _ => exact .ofResult _

theorem marks_resolve (m : MappedContext) (resolver : Option Resolver) :
    (m.resolve resolver).outcome.marks = [.stage (.str "type_resolution"),
      .span (.str "resolve_types") (.ofText m.id) (m.resolve resolver).outcome.failed] := by
  have hquiet : (Resolution.pass m resolver).outcome.Quiet := by
    cases resolver with
    | none => exact .ofResult _
    | some r => exact quiet_settle _ _ _
  rw [resolve, Traced.marks_span, Traced.marks_stage, hquiet.marks]
  rfl

theorem marks_resolved (m : MappedContext) (resolver : Option Resolver) :
    (m.resolved resolver).marks = [.stage (.str "type_resolution"),
      .span (.str "resolve_types") (.ofText m.id) (m.resolved resolver).failed] := by
  rw [resolved, Traced.marks_bind, marks_resolve, Traced.failed, Traced.failed, Traced.result_bind]
  cases (m.resolve resolver).outcome.result <;> rfl

theorem marks_restore (release : Release) (snapshot : Snapshot) (resolver : Option Resolver) :
    (restore release snapshot resolver).marks = match snapshot.check release with
      | .valid m => [.stage (.str "type_resolution"),
          .span (.str "resolve_types") (.ofText m.id) (restore release snapshot resolver).failed]
      | .invalid _ => [] := by
  rw [restore, Traced.marks_bind, Traced.failed, Traced.result_bind, ofSnapshot]
  cases snapshot.check release with
  | invalid issues => rfl
  | valid m => exact marks_resolved m resolver

end MappedContext

end Bpmn
