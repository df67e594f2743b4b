import Bpmn.Proofs.Mapping.PlainLinks

namespace Bpmn

/-- An edge without what the table of elements says of it. -/
def FlowEdge.untyped (e : FlowEdge) : FlowEdge := { e with type := .null, element := .null }

def Links.untyped (links : Links) : Links := { links with edges := links.edges.map FlowEdge.untyped }

def Survey.untyped (s : Survey) : Survey := { s with links := s.links.untyped }

namespace Links

variable {g : Graph} {elements elements' : Index} {links links' : Links}

theorem map_change {id : Value} {f f' : FlowEdge → FlowEdge}
    (hf : ∀ e : FlowEdge, (f e).untyped = f' e.untyped) (edges : List FlowEdge) :
    (change id f edges).map FlowEdge.untyped = change id f' (edges.map FlowEdge.untyped) := by
  induction edges with
  | nil => exact congrArg (fun e => [e]) (hf (.bare id))
  | cons e rest ih =>
    have hid : e.untyped.id = e.id := rfl
    rw [change, List.map_cons, change, hid]
    by_cases hsame : e.id.sameKey id
    · rw [if_pos hsame, if_pos hsame, List.map_cons, hf]
    · rw [if_neg hsame, if_neg hsame, List.map_cons, ih]

section Sorting

variable (helements : ∀ entry ∈ elements, ∃ place, entry.2 = .node place)
  (helements' : ∀ entry ∈ elements', ∃ place, entry.2 = .node place)

include helements helements'

theorem addEdge_untyped {edges edges' : List FlowEdge}
    (hedges : edges.map FlowEdge.untyped = edges'.map FlowEdge.untyped) (link : Link) :
    List.map FlowEdge.untyped <$> addEdge g elements edges link =
      List.map FlowEdge.untyped <$> addEdge g elements' edges' link := by
  -- Whatever else a change does to an edge, it does the same to both lists.
  have hchange {id : Value} {f f' : FlowEdge → FlowEdge} (kept : FlowEdge → FlowEdge)
      (hf : ∀ e : FlowEdge, (f e).untyped = kept e.untyped)
      (hf' : ∀ e : FlowEdge, (f' e).untyped = kept e.untyped) :
      (change id f edges).map FlowEdge.untyped = (change id f' edges').map FlowEdge.untyped := by
    rw [map_change hf, map_change hf', hedges]
  rw [addEdge, addEdge]
  by_cases hsource : link.role.isText Role.source && !(g.field link.place "id").isNull
  · rw [if_pos hsource, if_pos hsource]
    cases (g.field link.place "id").asKey with
    | error fault => rfl
    | ok flow =>
      obtain ⟨type, htype⟩ := typeOf_flowElement (g := g) helements flow link.place
      obtain ⟨type', htype'⟩ := typeOf_flowElement (g := g) helements' flow link.place
      rw [bind_of_ok, bind_of_ok]
      dsimp only
      rw [htype, htype', bind_of_ok, bind_of_ok]
      exact congrArg Except.ok (hchange (fun e => { e with source := link.id }) (fun _ => rfl)
        fun _ => rfl)
  rw [if_neg hsource, if_neg hsource]
  by_cases htarget : link.role.isText Role.target && !(g.field link.place "id").isNull
  · rw [if_pos htarget, if_pos htarget]
    cases (g.field link.place "id").asKey with
    | error fault => rfl
    | ok flow =>
      exact congrArg Except.ok (hchange (fun e => { e with target := link.id }) (fun _ => rfl)
        fun _ => rfl)
  rw [if_neg htarget, if_neg htarget]
  by_cases hdefault : link.role.isText Role.default && !link.id.isNull
  · rw [if_pos hdefault, if_pos hdefault]
    cases link.id.asKey with
    | error fault => rfl
    | ok flow =>
      exact congrArg Except.ok (hchange (fun e => { e with isDefault := true }) (fun _ => rfl)
        fun _ => rfl)
  · rw [if_neg hdefault, if_neg hdefault]
    exact congrArg Except.ok hedges

theorem add_untyped (hlinks : links.untyped = links'.untyped) (record : ReferenceRecord) :
    untyped <$> add g elements links record = untyped <$> add g elements' links' record := by
  obtain ⟨edges, dataObjects, inputs, outputs⟩ := links
  obtain ⟨edges', _, _, _⟩ := links'
  simp only [untyped, Links.mk.injEq] at hlinks
  obtain ⟨hedges, rfl, rfl, rfl⟩ := hlinks
  rw [add, add]
  cases g.orAbsent record.element with
  | none => simp [untyped, hedges]
  | some element =>
    dsimp only
    cases Graph.placeOf element with
    | error fault => rfl
    | ok place =>
      rw [bind_of_ok, bind_of_ok]
      rcases map_eq_map (addEdge_untyped (g := g) helements helements' hedges _) with
        ⟨fault, hadd, hadd'⟩ | ⟨next, next', hadd, hadd', hnext⟩
      · rw [hadd, hadd']
      · rw [hadd, hadd', bind_of_ok, bind_of_ok]
        simp [untyped, hnext]

/-- The records are sorted alike beside any two tables of objects. -/
theorem ofRecords_untyped (records : List ReferenceRecord) :
    untyped <$> ofRecords g elements records = untyped <$> ofRecords g elements' records := by
  have hfold {start start' : Links} (hstart : start.untyped = start'.untyped) :
      untyped <$> records.foldlM (add g elements) start =
        untyped <$> records.foldlM (add g elements') start' := by
    induction records generalizing start start' with
    | nil => exact congrArg Except.ok hstart
    | cons record rest ih =>
      rw [List.foldlM_cons, List.foldlM_cons]
      rcases map_eq_map (add_untyped (g := g) helements helements' hstart record) with
        ⟨fault, hadd, hadd'⟩ | ⟨next, next', hadd, hadd', hnext⟩
      · rw [hadd, hadd']
        rfl
      · rw [hadd, hadd', bind_of_ok, bind_of_ok]
        exact ih hnext
  exact hfold rfl

end Sorting

theorem result_build (records : List ReferenceRecord) :
    (build g elements records).result = ofRecords g elements records := by
  rw [build, Traced.result_bind, Traced.result_lift]
  cases ofRecords g elements records with
  | error fault => rfl
  | ok links =>
    rw [bind_of_ok]
    by_cases hskipped : (records.filter fun r => !g.truthy r.element).length ≠ 0
    · rw [if_pos hskipped]
      rfl
    · rw [if_neg hskipped]
      rfl

/-- What is reported of sorted records counts them only. -/
theorem events_build (h : untyped <$> ofRecords g elements records = untyped <$> ofRecords g elements' records) :
    (build g elements records).events = (build g elements' records).events := by
  rw [build, build]
  rcases map_eq_map h with ⟨fault, hsorted, hsorted'⟩ | ⟨sorted, sorted', hsorted, hsorted', hsame⟩
  · rw [hsorted, hsorted']
  · rw [hsorted, hsorted']
    obtain ⟨edges, dataObjects, inputs, outputs⟩ := sorted
    obtain ⟨edges', _, _, _⟩ := sorted'
    simp only [untyped, Links.mk.injEq] at hsame
    obtain ⟨hedges, rfl, rfl, rfl⟩ := hsame
    have hlength : edges.length = edges'.length := by
      simpa using congrArg List.length hedges
    change (pure (Links.mk edges dataObjects inputs outputs) >>= _ : Traced Links).events =
      (pure (Links.mk edges' dataObjects inputs outputs) >>= _ : Traced Links).events
    rw [pure_bind, pure_bind, hlength]
    by_cases hskipped : (records.filter fun r => !g.truthy r.element).length ≠ 0
    · rw [if_pos hskipped, if_pos hskipped]
      rfl
    · rw [if_neg hskipped, if_neg hskipped]
      rfl

theorem edge_untyped (links : Links) (id : Value) :
    links.untyped.edge id = FlowEdge.untyped <$> links.edge id := by
  rw [edge, edge]
  cases id.asKey with
  | error fault => rfl
  | ok key =>
    rw [bind_of_ok, bind_of_ok]
    by_cases hnull : key.isNull
    · rw [if_pos hnull, if_pos hnull]
      rfl
    · have hfind : links.untyped.edges.find? (·.id.sameKey key) =
          (links.edges.find? (·.id.sameKey key)).map FlowEdge.untyped := by
        rw [untyped, List.find?_map]
        rfl
      rw [if_neg hnull, if_neg hnull, hfind]
      cases links.edges.find? (·.id.sameKey key) <;> rfl

end Links

namespace Survey

variable {s : Survey} {parent : ScopeRef} {place : Nat}

theorem container_untyped (type : Value) :
    s.untyped.container parent type place = s.container parent type place := rfl

theorem anyOf_untyped (id : Value) (children : List Value) :
    declares.anyOf s.untyped id children = declares.anyOf s id children := by
  induction children with
  | nil => rfl
  | cons child rest ih =>
    rw [declares.anyOf, declares.anyOf, ih]
    rfl

theorem declaringProcess_untyped (id : Value) (items : List Value) :
    s.untyped.declaringProcess id items = s.declaringProcess id items := by
  have hdeclares (process : Nat) : s.untyped.declares process id = s.declares process id := by
    simp only [declares, anyOf_untyped]
    rfl
  induction items with
  | nil => rfl
  | cons root rest ih =>
    simp only [declaringProcess, hdeclares, ih]
    rfl

theorem endpoint_untyped (id : Value) : s.untyped.endpoint id = s.endpoint id := by
  simp only [endpoint, processIdOf, declaringProcess_untyped]
  rfl

theorem messageFlow_untyped : s.untyped.messageFlow parent place = s.messageFlow parent place := by
  have hedge : s.untyped.links.edge (s.graph.field place "id") =
      FlowEdge.untyped <$> s.links.edge (s.graph.field place "id") := s.links.edge_untyped _
  have hgraph : s.untyped.graph = s.graph := rfl
  simp only [messageFlow, endpoint_untyped, hgraph, hedge]
  cases s.links.edge (s.graph.field place "id") <;> rfl

theorem leaf_untyped (type : Value) :
    s.untyped.leaf parent type place = s.leaf parent type place := by
  have hedge : s.untyped.links.edge (s.graph.field place "id") =
      FlowEdge.untyped <$> s.links.edge (s.graph.field place "id") := s.links.edge_untyped _
  have hgraph : s.untyped.graph = s.graph := rfl
  rw [leaf, leaf, messageFlow_untyped, hgraph, hedge]
  cases s.links.edge (s.graph.field place "id") <;> rfl

theorem element_untyped (depth : Nat) (v : Value) :
    s.untyped.element depth parent v = s.element depth parent v := by
  induction depth generalizing parent v with
  | zero => rfl
  | succ depth ih =>
    have hih : s.untyped.element depth = s.element depth := by
      funext parent v
      exact ih v
    rw [element, element]
    simp only [hih, container_untyped, leaf_untyped]
    rfl

theorem flatten_untyped (v : Value) : s.untyped.flatten parent v = s.flatten parent v := by
  have helement : s.untyped.element s.graph.depthBound parent = s.element s.graph.depthBound parent := by
    funext v
    exact element_untyped _ v
  have hgraph : s.untyped.graph = s.graph := rfl
  rw [flatten, flatten, hgraph, helement]

end Survey

/-- Runs with the same reports and the same results but for what is left out go on alike. -/
theorem Traced.bind_congr_map {α β γ : Type} {run run' : Traced α} {f : α → β} {next : α → Traced γ}
    (hevents : run.events = run'.events) (hresult : f <$> run.result = f <$> run'.result)
    (hnext : ∀ a b, f a = f b → next a = next b) : run >>= next = run' >>= next := by
  obtain ⟨events, result⟩ := run
  obtain ⟨_, result'⟩ := run'
  obtain rfl : events = _ := hevents
  change Traced.bind _ next = Traced.bind _ next
  rcases map_eq_map hresult with ⟨fault, rfl, rfl⟩ | ⟨a, b, rfl, rfl, hab⟩
  · rfl
  · simp only [Traced.bind, hnext a b hab]

namespace MappedContext

variable {g : Graph} {source source' : Source}

theorem run_flattenSource (root : Nat) (definition : Definition) (extension : Option Extension)
    (diary : Diary) :
    flattenSource g source root definition extension diary =
      Traced.stage "reference_index" (Links.build g source.elements source.references) >>= fun links =>
        Traced.stage "scope_flattening"
          (((g.survey links root extension).flatten ⟨definition.id, definition.type⟩
            (g.survey links root extension).roots).run diary) := by
  change ((liftM _ : Walk Links) >>= _).run diary = _
  rw [StateT.run_bind]
  change (StateT.run (StateT.lift _) diary : Traced _) >>= _ = _
  rw [StateT.run_lift, bind_assoc]
  simp only [pure_bind]
  rfl

/-- The elements below a root are flattened alike beside any two tables of objects. -/
theorem flattenSource_eq (helements : ∀ entry ∈ source.elements, ∃ place, entry.2 = .node place)
    (helements' : ∀ entry ∈ source'.elements, ∃ place, entry.2 = .node place)
    (hreferences : source.references = source'.references) (root : Nat) (definition : Definition)
    (extension : Option Extension) :
    flattenSource g source root definition extension =
      flattenSource g source' root definition extension := by
  have hsorted := Links.ofRecords_untyped (g := g) helements helements' source'.references
  funext diary
  rw [run_flattenSource, run_flattenSource, hreferences]
  apply Traced.bind_congr_map (f := Links.untyped)
  · simp only [Traced.stage, Traced.ending, Links.events_build hsorted]
  · rw [Traced.result_stage, Traced.result_stage, Links.result_build, Links.result_build, hsorted]
  · intro links links' hlinks
    have huntyped : (g.survey links root extension).untyped = (g.survey links' root extension).untyped := by
      simp only [Survey.untyped, Graph.survey, hlinks]
    have hroots : (g.survey links root extension).roots = (g.survey links' root extension).roots := rfl
    rw [← Survey.flatten_untyped, ← Survey.flatten_untyped (s := g.survey links' root extension),
      huntyped, hroots]

end MappedContext

end Bpmn
