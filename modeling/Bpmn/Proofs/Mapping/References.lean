import Bpmn.Proofs.Beside
import Bpmn.Proofs.Mapping.Tables
import Bpmn.Proofs.Mapping.Walks

namespace Bpmn

def DataParameter.unlinked (p : DataParameter) : DataParameter := { p with association := .unbound }

def Attachments.unlinked (a : Attachments) : Attachments where
  resources := a.resources
  attachedTo := a.attachedTo
  dataInputs := a.dataInputs.map (·.map DataParameter.unlinked)
  dataOutputs := a.dataOutputs.map (·.map DataParameter.unlinked)

/-- The parameters of an I/O specification lose their associations. -/
def BehaviourDefinition.unlinked : BehaviourDefinition → BehaviourDefinition
  | .mk binding type (.mk events loop io attachments extras) =>
    if type = some "bpmn:InputOutputSpecification" then
      .mk binding type (.mk events loop io attachments.unlinked extras)
    else .mk binding type (.mk events loop io attachments extras)

def Behaviour.unlinked : Behaviour → Behaviour
  | .mk events loop io attachments extras =>
    .mk (events.map (·.map BehaviourDefinition.unlinked)) (loop.map BehaviourDefinition.unlinked)
      (io.map BehaviourDefinition.unlinked) attachments extras

def Process.unlinked (p : Process) : Process := { p with behaviour := p.behaviour.unlinked }

def Activity.unlinked (a : Activity) : Activity := { a with behaviour := a.behaviour.unlinked }

def SequenceFlow.unlinked (f : SequenceFlow) : SequenceFlow :=
  { f with sourceId := none, targetId := none, isDefault := none }

def MessageFlow.unlinked (f : MessageFlow) : MessageFlow :=
  { f with source := ⟨none, none⟩, target := ⟨none, none⟩ }

def DataObject.unlinked (d : DataObject) : DataObject := { d with references := [] }

def Flattened.unlinked (f : Flattened) : Flattened where
  processes := f.processes.map Process.unlinked
  activities := f.activities.map Activity.unlinked
  dataObjects := f.dataObjects.map DataObject.unlinked
  sequenceFlows := f.sequenceFlows.map SequenceFlow.unlinked
  messageFlows := f.messageFlows.map MessageFlow.unlinked
  scripts := f.scripts

/-- A context without all that references fill in. -/
def MappedContext.unlinked (m : MappedContext) : MappedContext :=
  { m with
    activities := m.activities.map Activity.unlinked
    dataObjects := m.dataObjects.map DataObject.unlinked
    messageFlows := m.messageFlows.map MessageFlow.unlinked
    processes := m.processes.map Process.unlinked
    sequenceFlows := m.sequenceFlows.map SequenceFlow.unlinked }

namespace Flattened

variable {a b c d : Flattened}

theorem unlinked_append (a b : Flattened) : (a ++ b).unlinked = a.unlinked ++ b.unlinked := by
  simp only [unlinked, processes_append, activities_append, dataObjects_append, sequenceFlows_append,
    messageFlows_append, scripts_append, List.map_append]
  rfl

theorem unlinked_carried (a : Flattened) : a.carried.unlinked = a.unlinked.carried := rfl

theorem unlinked_messages (a : Flattened) : a.messages.unlinked = a.unlinked.messages := rfl

theorem unlinked_join (parts : List Flattened) :
    (join parts).unlinked = join (parts.map unlinked) := by
  induction parts with
  | nil => rfl
  | cons part rest ih =>
    change (part ++ join rest).unlinked = part.unlinked ++ join (rest.map unlinked)
    rw [unlinked_append, ih]

end Flattened

section Beside

variable {g : Graph} {links links' : Links}

namespace Links

/-- Whatever can be looked up among the edges of plain links has plain ends. -/
theorem Plain.exists_edge (h : links.Plain g) {id key : Value} (hkey : id.asKey = .ok key) :
    ∃ e, links.edge id = .ok e ∧ e.source.isName = true ∧ e.target.isName = true := by
  rw [edge, hkey, bind_of_ok]
  split
  · exact ⟨_, rfl, rfl, rfl⟩
  · refine ⟨_, rfl, ?_⟩
    cases hfind : links.edges.find? (·.id.sameKey key) with
    | none => exact ⟨rfl, rfl⟩
    | some e => exact h.edges e (List.mem_of_find?_eq_some hfind)

theorem carries_parameter (h : links'.Plain g) (d : Direction) (v : Value) :
    Carries (fun p q => p.unlinked = q.unlinked) (links.parameter g d v) (links'.parameter g d v) := by
  intro p hp
  obtain ⟨place, hplace, hp⟩ := ok_bind.mp hp
  obtain ⟨own, hown, hp⟩ := ok_bind.mp hp
  obtain ⟨association, hassociation, hp⟩ := ok_bind.mp hp
  obtain ⟨hid, hrest⟩ := Check.dataParameterWith_eq_valid.mp (Checked.as_eq_ok.mp hp)
  obtain ⟨association', hassociation'⟩ := h.exists_association d (isName_of_maybeText hown hid)
  refine ⟨{ p with association := association' }, ?_, rfl⟩
  rw [parameter, hplace, bind_of_ok, hown, bind_of_ok, hassociation', bind_of_ok, Checked.as_eq_ok,
    Check.dataParameterWith_eq_valid]
  exact ⟨hid, hrest.1, hrest.2.1, rfl, hrest.2.2.2⟩

theorem carries_parameters (h : links'.Plain g) (d : Direction) (v : Value) :
    Carries (fun ps qs => ps.map (·.map DataParameter.unlinked) = qs.map (·.map DataParameter.unlinked))
      (links.parameters g d v) (links'.parameters g d v) := by
  rw [parameters, parameters]
  split
  · exact .ok rfl
  · refine .bind_eq (.of_eq rfl) ?_
    intro items _
    refine .bind (.mapM_erase fun v _ => carries_parameter h d v) ?_
    intro ps qs _ _ hpq
    exact .ok (congrArg some hpq)

end Links

namespace Bundle

/-- A definition differs in the associations of its parameters at most, and then it is an I/O
specification. -/
theorem carries_definition (h : links'.Plain g) (v : Value) :
    Carries (fun d e => d.map BehaviourDefinition.unlinked = e.map BehaviourDefinition.unlinked)
      (definition g links v) (definition g links' v) := by
  rw [definition, definition]
  split
  · exact .ok rfl
  refine .bind_eq (.of_eq rfl) ?_
  intro place _
  by_cases hio : (g.field place "$type").isText "bpmn:InputOutputSpecification"
  · have htext : g.typeText place = .valid (some "bpmn:InputOutputSpecification") := by
      rw [Graph.typeText, Value.isText_iff.mp hio]
      rfl
    rw [ofDefinition, ofDefinition, if_pos hio, if_pos hio, Links.ioParameters, Links.ioParameters,
      htext]
    simp only [bind_assoc]
    refine .bind (Links.carries_parameters h .input _) ?_
    intro inputs inputs' _ _ hinputs
    refine .bind (Links.carries_parameters h .output _) ?_
    intro outputs outputs' _ _ houtputs
    refine .ok (congrArg some ?_)
    simp [BehaviourDefinition.unlinked, Attachments.unlinked, hinputs, houtputs]
  · have hother : ofDefinition g links' place = ofDefinition g links place := by
      rw [ofDefinition, ofDefinition, if_neg hio, if_neg hio]
    rw [hother]
    exact .same _ fun _ => rfl

theorem carries_each {α β : Type} {erase : α → β} {read read' : Value → Except Fault (Option α)}
    (h : ∀ v, Carries (fun a b => a.map erase = b.map erase) (read v) (read' v)) (v : Value) :
    Carries (fun as bs => as.map (·.map erase) = bs.map (·.map erase)) (each g v read)
      (each g v read') := by
  rw [each, each]
  split
  · exact .ok rfl
  · refine .bind_eq (.of_eq rfl) ?_
    intro items _
    refine .bind (.mapM_erase fun v _ => h v) ?_
    intro as bs _ _ hab
    have hfilter (l : List (Option α)) :
        (l.filterMap id).map erase = (l.map (·.map erase)).filterMap id := by
      simp [List.map_filterMap, List.filterMap_map]
    apply Carries.ok
    rw [Option.map_some, Option.map_some, hfilter, hfilter, hab]

theorem carries_checkElement (h : links'.Plain g) (fields : List (String × Json)) (place : Nat) :
    Carries (fun b c => Behaviour.unlinked <$> b = Behaviour.unlinked <$> c)
      (checkElement g links fields place) (checkElement g links' fields place) := by
  rw [checkElement, checkElement]
  refine .bind (carries_each (carries_definition h) _) ?_
  intro events events' _ _ hevents
  refine .bind (carries_definition h _) ?_
  intro loop loop' _ _ hloop
  refine .bind (carries_definition h _) ?_
  intro io io' _ _ hio
  refine .bind_eq (.of_eq rfl) ?_
  intro resources _
  apply Carries.ok
  rw [Check.behaviourWith, Check.behaviourWith]
  generalize (Attachments.mk resources
    <$> Check.member fields .attachedTo Check.elementRef
    <*> Check.member fields .dataInputs (Check.list Check.dataParameter)
    <*> Check.member fields .dataOutputs (Check.list Check.dataParameter) :
      Checked Attachments) = attachments
  cases attachments with
  | invalid issues => rfl
  | valid attachments => simp [Behaviour.unlinked, hevents, hloop, hio]

theorem carries_ofElement (h : links'.Plain g) (extra : List (String × Json)) (place : Nat) :
    Carries (fun b c => b.unlinked = c.unlinked) (ofElement g links extra place)
      (ofElement g links' extra place) := by
  rw [ofElement, ofElement]
  refine .bind_eq (.of_eq rfl) ?_
  intro own _
  refine .bind (carries_checkElement h _ _) ?_
  intro b c _ _ hbc behaviour hb
  obtain rfl := Checked.as_eq_ok.mp hb
  obtain ⟨behaviour', rfl, hbehaviour⟩ := Checked.map_eq_valid.mp hbc.symm
  exact ⟨behaviour', rfl, hbehaviour.symm⟩

end Bundle

end Beside

namespace Survey

variable {s : Survey} {links' : Links} {parent : ScopeRef} {place : Nat}

/-- The same survey with other links. -/
def relinked (s : Survey) (links : Links) : Survey := { s with links }

theorem graph_relinked : (s.relinked links').graph = s.graph := rfl

theorem carries_process (h : links'.Plain s.graph) :
    Carries (fun p q => p.unlinked = q.unlinked) (s.process parent place)
      ((s.relinked links').process parent place) := by
  refine .bind (Bundle.carries_ofElement h [] place) ?_
  intro b c _ _ hbc p hp
  obtain ⟨e, he, rfl⟩ := Checked.map_eq_valid.mp (Checked.as_eq_ok.mp hp)
  obtain ⟨rfl, hother, -⟩ := exists_entity he c
  have hsame : (s.relinked links').entity parent place c = .valid { e with behaviour := c } := hother
  refine ⟨⟨{ e with behaviour := c }⟩, by rw [hsame]; rfl, ?_⟩
  simp [Process.unlinked, hbc]

theorem carries_activity (h : links'.Plain s.graph) (extra : List (String × Json)) :
    Carries (fun a b => a.unlinked = b.unlinked) (s.activity parent extra place)
      ((s.relinked links').activity parent extra place) := by
  refine .bind (Bundle.carries_ofElement h extra place) ?_
  intro b c _ _ hbc a ha
  obtain ⟨e, he, rfl⟩ := Checked.map_eq_valid.mp (Checked.as_eq_ok.mp ha)
  obtain ⟨rfl, hother, -⟩ := exists_entity he c
  have hsame : (s.relinked links').entity parent place c = .valid { e with behaviour := c } := hother
  refine ⟨⟨{ e with behaviour := c }, .null⟩, by rw [hsame]; rfl, ?_⟩
  simp [Activity.unlinked, hbc]

theorem carries_sequenceFlow {edge edge' : FlowEdge}
    (hends : edge'.source.isName = true ∧ edge'.target.isName = true) :
    Carries (fun f f' => f.unlinked = f'.unlinked) (s.sequenceFlow parent edge place)
      ((s.relinked links').sequenceFlow parent edge' place) := by
  refine .bind (.of_eq rfl) ?_
  rintro b _ - - rfl f hf
  obtain ⟨_, target, h₁, -, rfl⟩ := Checked.seq_eq_valid.mp (Checked.as_eq_ok.mp hf)
  obtain ⟨_, source, h₂, -, rfl⟩ := Checked.seq_eq_valid.mp h₁
  obtain ⟨e, he, rfl⟩ := Checked.map_eq_valid.mp h₂
  obtain ⟨source', hsource⟩ := (Value.isName_iff_text "source_id").mp hends.1
  obtain ⟨target', htarget⟩ := (Value.isName_iff_text "target_id").mp hends.2
  have hsame : (s.relinked links').entity parent place b = .valid e := he
  exact ⟨⟨e, source', target', edge'.mark⟩, by rw [hsame, hsource, htarget]; rfl, rfl⟩

/-- The process of the end of a message flow can be looked for: the top-level elements are objects, and
every process among them has a plain identifier and objects as its elements. -/
def Searchable (s : Survey) : Prop :=
  ∃ items, s.graph.itemsOrNone s.roots = .ok items ∧ ∀ v ∈ items, ∃ place, v = .node place ∧
    (s.graph.IsA place Kind.process → (s.graph.field place "id").isName = true ∧
      ∃ children, s.graph.itemsOrNone (s.graph.field place "flowElements") = .ok children ∧
        ∀ child ∈ children, ∃ inner, child = .node inner)

theorem exists_anyOf {id : Value} (hid : id.isName = true) {children : List Value}
    (h : ∀ child ∈ children, ∃ inner, child = .node inner) :
    ∃ found, declares.anyOf s id children = .ok found := by
  induction children with
  | nil => exact ⟨_, rfl⟩
  | cons child rest ih =>
    obtain ⟨inner, rfl⟩ := h child List.mem_cons_self
    obtain ⟨found, hfound⟩ := s.graph.exists_same (s.graph.field inner "id") hid
    have hget : s.graph.get (.node inner) "id" = .ok (s.graph.field inner "id") := rfl
    rw [declares.anyOf, hget, bind_of_ok, hfound, bind_of_ok]
    cases found with
    | true => exact ⟨_, rfl⟩
    | false => exact ih fun child hchild => h child (List.mem_cons_of_mem _ hchild)

theorem Searchable.exists_processIdOf (h : s.Searchable) {id : Value} (hid : id.isName = true) :
    ∃ process, s.processIdOf id = .ok process ∧ process.isName = true := by
  obtain ⟨items, hitems, hroots⟩ := h
  rw [processIdOf, hitems]
  split
  · exact ⟨_, rfl, rfl⟩
  rw [bind_of_ok]
  clear hitems
  induction items with
  | nil => exact ⟨_, rfl, rfl⟩
  | cons root rest ih =>
    obtain ⟨place, rfl, hprocess⟩ := hroots root List.mem_cons_self
    have hlater := ih fun v hv => hroots v (List.mem_cons_of_mem _ hv)
    have htype : s.graph.typeOf (.node place) = .ok (s.graph.field place "$type") := rfl
    rw [declaringProcess, htype, bind_of_ok]
    split
    · next hkind =>
      obtain ⟨hname, children, hchildren, hnodes⟩ := hprocess (Value.isText_iff.mp hkind)
      obtain ⟨found, hfound⟩ := exists_anyOf hid hnodes
      rw [Graph.placeOf, bind_of_ok, declares, hchildren, bind_of_ok, hfound, bind_of_ok]
      cases found with
      | true => exact ⟨_, rfl, hname⟩
      | false => exact hlater
    · exact hlater

theorem Searchable.exists_endpoint (h : s.Searchable) {id : Value} (hid : id.isName = true) :
    ∃ e, s.endpoint id = .ok e := by
  obtain ⟨process, hprocess, hname⟩ := h.exists_processIdOf hid
  obtain ⟨processText, hprocessText⟩ := (Value.isName_iff_text "process_id").mp hname
  obtain ⟨idText, hidText⟩ := (Value.isName_iff_text "id").mp hid
  exact ⟨⟨processText, idText⟩, by rw [endpoint, hprocess, bind_of_ok, hprocessText, hidText]; rfl⟩

theorem carries_messageFlow (h : links'.Plain s.graph) (hsearch : s.Searchable) :
    Carries (fun f f' => f.unlinked = f'.unlinked) (s.messageFlow parent place)
      ((s.relinked links').messageFlow parent place) := by
  intro f hf
  obtain ⟨edge, hedge, hf⟩ := ok_bind.mp hf
  obtain ⟨source, -, hf⟩ := ok_bind.mp hf
  obtain ⟨target, -, hf⟩ := ok_bind.mp hf
  obtain ⟨b, hb, hf⟩ := ok_bind.mp hf
  obtain ⟨e, he, rfl⟩ := Checked.map_eq_valid.mp (Checked.as_eq_ok.mp hf)
  have hsearch' : (s.relinked links').Searchable := hsearch
  obtain ⟨key, hkey, -⟩ := ok_bind.mp hedge
  obtain ⟨edge', hedge', hends⟩ := h.exists_edge hkey
  obtain ⟨source', hsource'⟩ := hsearch'.exists_endpoint hends.1
  obtain ⟨target', htarget'⟩ := hsearch'.exists_endpoint hends.2
  refine ⟨⟨e, source', target'⟩, ?_, rfl⟩
  refine ok_bind.mpr ⟨edge', hedge', ok_bind.mpr ⟨source', hsource', ?_⟩⟩
  refine ok_bind.mpr ⟨target', htarget', ok_bind.mpr ⟨b, hb, ?_⟩⟩
  exact Checked.as_eq_ok.mpr (Checked.map_eq_valid.mpr ⟨e, he, rfl⟩)

theorem exists_dataObjectReference {link : Link} (h : link.Plain s.graph)
    (hloopless : s.graph.Loopless link.place) : ∃ r, s.dataObjectReference link = .ok r := by
  obtain ⟨own, hown⟩ := Graph.exists_ownFieldsAt hloopless
  obtain ⟨id, hid⟩ := (Value.isName_iff_text _).mp (h.named "id" (by simp))
  obtain ⟨type, htype⟩ := (Value.isName_iff_text _).mp (h.named "$type" (by simp))
  refine ⟨⟨id, type, own⟩, ?_⟩
  rw [dataObjectReference, hown, bind_of_ok, Graph.idText, Graph.typeText, hid, htype]
  rfl

/-- Plain links are compared with a plain identifier. -/
theorem exists_dataObjectReferences (h : s.links.Plain s.graph) {id : Value} (hid : id.isName = true) :
    ∃ references, (s.links.dataObjects.filterMapM fun link => do
      if ← s.graph.same link.id id then some <$> s.dataObjectReference link else return none) =
        .ok references := by
  apply exists_ok_filterMapM
  intro link hlink
  obtain ⟨found, hfound⟩ := s.graph.exists_same link.id hid
  obtain ⟨hplain, hloopless⟩ := h.dataObjects link hlink
  obtain ⟨r, hr⟩ := exists_dataObjectReference hplain hloopless
  rw [hfound, bind_of_ok]
  cases found with
  | true => exact ⟨some r, by rw [if_pos rfl, hr]; rfl⟩
  | false => exact ⟨none, rfl⟩

theorem carries_dataObject (h : links'.Plain s.graph) :
    Carries (fun d d' => d.unlinked = d'.unlinked) (s.dataObject parent place)
      ((s.relinked links').dataObject parent place) := by
  intro d hd
  obtain ⟨references, -, hd⟩ := ok_bind.mp hd
  obtain ⟨b, hb, hd⟩ := ok_bind.mp hd
  obtain ⟨e, he, rfl⟩ := Checked.map_eq_valid.mp (Checked.as_eq_ok.mp hd)
  obtain ⟨-, -, hid, -⟩ := exists_entity he b
  have hplain : (s.relinked links').links.Plain (s.relinked links').graph := h
  obtain ⟨references', hreferences⟩ := exists_dataObjectReferences hplain hid
  refine ⟨⟨e, references'⟩, ?_, rfl⟩
  refine ok_bind.mpr ⟨references', hreferences, ok_bind.mpr ⟨b, hb, ?_⟩⟩
  exact Checked.as_eq_ok.mpr (Checked.map_eq_valid.mpr ⟨e, he, rfl⟩)

theorem carries_leaf (h : links'.Plain s.graph) (hsearch : s.Searchable) (type : Value) :
    Carries (fun f f' => f.unlinked = f'.unlinked) (s.leaf parent type place)
      ((s.relinked links').leaf parent type place) := by
  rw [leaf, leaf]
  by_cases hmessage : type.isText Kind.messageFlow
  · rw [if_pos hmessage, if_pos hmessage]
    refine .bind (carries_messageFlow h hsearch) ?_
    intro f f' _ _ hf
    exact .ok (by simp [Flattened.unlinked, hf])
  rw [if_neg hmessage, if_neg hmessage]
  by_cases hobject : type.isText Kind.dataObject
  · rw [if_pos hobject, if_pos hobject]
    refine .bind (carries_dataObject h) ?_
    intro d d' _ _ hd
    exact .ok (by simp [Flattened.unlinked, hd])
  rw [if_neg hobject, if_neg hobject]
  by_cases hflow : type.isText Kind.sequenceFlow
  · rw [if_pos hflow, if_pos hflow]
    have hedge : Carries (fun _ e' => e'.source.isName = true ∧ e'.target.isName = true)
        (s.links.edge (s.graph.field place "id")) (links'.edge (s.graph.field place "id")) := by
      intro e he
      obtain ⟨key, hkey, -⟩ := ok_bind.mp he
      exact h.exists_edge hkey
    refine .bind hedge ?_
    intro e e' _ _ hends
    refine .bind_eq (.of_eq rfl) ?_
    intro scripts _
    refine .bind (carries_sequenceFlow hends) ?_
    intro f f' _ _ hf
    exact .ok (by simp [Flattened.unlinked, hf])
  rw [if_neg hflow, if_neg hflow]
  by_cases hboundary : type.isText Kind.boundaryEvent
  · rw [if_pos hboundary, if_pos hboundary, boundaryEvent, boundaryEvent]
    simp only [bind_assoc]
    refine .bind_eq (.of_eq rfl) ?_
    intro attached _
    refine .bind (carries_activity h _) ?_
    intro a a' _ _ ha
    exact .ok (by simp [Flattened.unlinked, ha])
  rw [if_neg hboundary, if_neg hboundary]
  refine .bind (carries_activity h []) ?_
  intro a a' _ _ ha
  by_cases hscript : type.isText Kind.scriptTask
  · rw [if_pos hscript, if_pos hscript]
    refine .bind_eq (.of_eq rfl) ?_
    intro script _
    exact .ok (by simp [Flattened.unlinked, ha])
  · rw [if_neg hscript, if_neg hscript]
    exact .ok (by simp [Flattened.unlinked, ha])

theorem carries_container (h : links'.Plain s.graph) (type : Value) :
    Carries (fun x y => x.1.unlinked = y.1.unlinked ∧ x.2 = y.2) (s.container parent type place)
      ((s.relinked links').container parent type place) := by
  rw [container, container]
  by_cases hprocess : type.isText Kind.process
  · rw [if_pos hprocess, if_pos hprocess]
    refine .bind (carries_process h) ?_
    intro p p' _ _ hp
    refine .bind_eq (.of_eq rfl) ?_
    intro scope _
    exact .ok ⟨by simp [Flattened.unlinked, hp], rfl⟩
  · rw [if_neg hprocess, if_neg hprocess]
    refine .bind (carries_activity h []) ?_
    intro a a' _ _ ha
    refine .bind_eq (.of_eq rfl) ?_
    intro scope _
    exact .ok ⟨by simp [Flattened.unlinked, ha], rfl⟩

/-- Walks over the same items meet the same if they do at each item. -/
theorem carries_elements {depth : Nat}
    (hitem : ∀ v, Walk.Carries (fun f f' => f.unlinked = f'.unlinked) (s.element depth parent v)
      ((s.relinked links').element depth parent v)) (v : Value) :
    Walk.Carries (fun f f' => f.unlinked = f'.unlinked)
      (do
        let items ← (s.graph.itemsOrNone v : Except Fault (List Value))
        return Flattened.join (← items.mapM (s.element depth parent)) : Walk Flattened)
      (do
        let items ← (s.graph.itemsOrNone v : Except Fault (List Value))
        return Flattened.join (← items.mapM ((s.relinked links').element depth parent))) := by
  refine .bind_eq (.same _) ?_
  intro items
  refine .bind (.mapM_erase hitem) ?_
  intro fs fs' hfs
  exact .pure (by rw [Flattened.unlinked_join, Flattened.unlinked_join, hfs])

/-- Walks over the same elements meet the same scopes and scripts, whatever the links are. -/
theorem carries_element (h : links'.Plain s.graph) (hsearch : s.Searchable) (depth : Nat)
    (parent : ScopeRef) (v : Value) :
    Walk.Carries (fun f f' => f.unlinked = f'.unlinked) (s.element depth parent v)
      ((s.relinked links').element depth parent v) := by
  induction depth generalizing parent v with
  | zero => exact .error
  | succ depth ih =>
    have hbelow (scope : ScopeRef) := carries_elements fun v => ih scope v
    rw [element, element, graph_relinked]
    refine .bind_eq (.same _) ?_
    intro place
    refine .bind_eq (.same _) ?_
    intro skip
    by_cases hskip : skip
    · rw [if_pos hskip, if_pos hskip]
      exact .pure rfl
    rw [if_neg hskip, if_neg hskip]
    by_cases hcollaboration : (s.graph.field place "$type").isText Kind.collaboration
    · rw [if_pos hcollaboration, if_pos hcollaboration]
      refine .bind (hbelow parent _) ?_
      intro f f' hf
      exact .pure (by rw [Flattened.unlinked_messages, Flattened.unlinked_messages, hf])
    rw [if_neg hcollaboration, if_neg hcollaboration]
    by_cases hscope : (s.graph.field place "$type").isText Kind.process
        || (s.graph.field place "$type").isText Kind.subProcess
    · rw [if_pos hscope, if_pos hscope]
      refine .bind (.lift (carries_container h _)) ?_
      rintro ⟨own, scope⟩ ⟨own', _⟩ ⟨hown, rfl⟩
      refine .bind_eq (.same (s.visit place)) ?_
      intro scripts
      refine .bind (hbelow scope _) ?_
      intro nested nested' hnested
      refine .bind .debug ?_
      intro _ _ _
      apply Walk.Carries.pure
      simp only [Flattened.unlinked_append, Flattened.unlinked_carried, hown, hnested]
    · rw [if_neg hscope, if_neg hscope]
      refine .bind (.lift (carries_leaf h hsearch _)) ?_
      intro own own' hown
      refine .bind_eq (.same (s.visit place)) ?_
      intro scripts
      apply Walk.Carries.pure
      simp only [Flattened.unlinked_append, hown]

/-- The elements of a walk that ends well are objects. -/
theorem Yields.nodes {items : List Value} {d d' : Diary} {f : Flattened}
    (h : s.Yields parent items d f d') : ∀ v ∈ items, ∃ place, v = .node place := by
  induction h with
  | nil => simp
  | skipped _ _ ih => exact List.forall_mem_cons.mpr ⟨⟨_, rfl⟩, ih⟩
  | collaboration _ _ _ _ _ ih => exact List.forall_mem_cons.mpr ⟨⟨_, rfl⟩, ih⟩
  | scope _ _ _ _ _ _ _ ih => exact List.forall_mem_cons.mpr ⟨⟨_, rfl⟩, ih⟩
  | leaf _ _ _ _ _ ih => exact List.forall_mem_cons.mpr ⟨⟨_, rfl⟩, ih⟩

theorem Yields.searchable {items : List Value} {d d' : Diary} {f : Flattened}
    (h : s.Yields parent items d f d') (hitems : s.graph.itemsOrNone s.roots = .ok items) :
    s.Searchable := by
  refine ⟨items, hitems, ?_⟩
  clear hitems
  induction h with
  | nil => simp
  | skipped kind _ ih =>
    refine List.forall_mem_cons.mpr ⟨⟨_, rfl, ?_⟩, ih⟩
    intro hprocess
    exact absurd kind (Graph.IsA.not_skipped hprocess (by decide))
  | collaboration kind _ _ _ _ ih =>
    refine List.forall_mem_cons.mpr ⟨⟨_, rfl, ?_⟩, ih⟩
    intro hprocess
    exact absurd hprocess (kind.not (by decide))
  | @scope parent place rest children own scope d scripts d₁ inner d₂ f d' _ made _ items below _ _ ih =>
    refine List.forall_mem_cons.mpr ⟨⟨_, rfl, ?_⟩, ih⟩
    intro hprocess
    have hmade : s.container parent (.str Kind.process) place = .ok (own, scope) := hprocess ▸ made
    obtain ⟨p, hp, -⟩ := ok_bind.mp hmade
    obtain ⟨b, -, he⟩ := entity_of_process hp
    obtain ⟨-, -, hid, -⟩ := exists_entity he b
    exact ⟨hid, children, items, below.nodes⟩
  | leaf _ single _ _ _ ih =>
    refine List.forall_mem_cons.mpr ⟨⟨_, rfl, ?_⟩, ih⟩
    intro hprocess
    exact absurd (.inl hprocess) single.2

/-- Elements that have been flattened can be searched. -/
theorem searchable_of_flatten {d d' : Diary} {f : Flattened}
    (h : (s.flatten parent s.roots).Gives d f d') : s.Searchable := by
  simp only [flatten, Walk.gives_bind, Walk.gives_lift, Walk.gives_pure] at h
  obtain ⟨items, _, ⟨hitems, rfl⟩, fs, _, hfs, rfl, rfl⟩ := h
  exact (Yields.of_mapM hfs).searchable hitems

/-- Other links give the same elements of a document but for what references fill in. -/
theorem carries_flatten (h : links'.Plain s.graph) (parent : ScopeRef) :
    Walk.Carries (fun f f' => f.unlinked = f'.unlinked) (s.flatten parent s.roots)
      ((s.relinked links').flatten parent s.roots) := by
  intro d f d' hf
  have hsearch := searchable_of_flatten hf
  exact carries_elements (fun v => carries_element h hsearch _ parent v) s.roots d f d' hf

end Survey

namespace MappedContext

variable {g : Graph} {document document' : Value} {source source' : Source}
  {extension : Option Extension}

theorem carries_flattenSource (hplain : source'.Plain g) (hloopless : source'.Loopless g) (root : Nat)
    (definition : Definition) :
    Walk.Carries (fun f f' => f.unlinked = f'.unlinked)
      (flattenSource g source root definition extension)
      (flattenSource g source' root definition extension) := by
  obtain ⟨links', hlinks', hplain'⟩ := Links.exists_ofRecords hplain hloopless
  intro d f d' hf
  simp only [Walk.Gives, StateT.run, run_flattenSource, Traced.result_bind, Traced.result_stage,
    Links.result_build] at hf ⊢
  obtain ⟨links, -, hf⟩ := ok_bind.mp hf
  obtain ⟨f', hf', hunlinked⟩ :=
    Survey.carries_flatten (s := g.survey links root extension) hplain' _ d f d' hf
  refine ⟨f', ?_, hunlinked⟩
  rw [hlinks', bind_of_ok]
  exact hf'

theorem carries_ofDocument (extension : Option Extension) (hs : Source.ofValue g document = .ok source)
    (hs' : Source.ofValue g document' = .ok source') (hroot : source.root = source'.root)
    (hplain : source'.Plain g) (hloopless : source'.Loopless g) :
    Carries (fun x y => (x.1.unlinked, x.2) = (y.1.unlinked, y.2))
      (ofDocument g document extension).result (ofDocument g document' extension).result := by
  simp only [ofDocument, Traced.result_bind, Traced.result_lift, Traced.result_span, hs, hs', hroot,
    bind_of_ok]
  refine .bind_eq (.of_eq rfl) ?_
  intro root _
  refine .bind_eq (.of_eq rfl) ?_
  intro definition _
  have hflat : Carries (fun x y => x.1.unlinked = y.1.unlinked ∧ x.2 = y.2)
      ((flattenSource g source root definition extension).run ⟨[], []⟩).result
      ((flattenSource g source' root definition extension).run ⟨[], []⟩).result := by
    rintro ⟨f, d⟩ hf
    obtain ⟨f', hf', hunlinked⟩ := carries_flattenSource hplain hloopless root definition _ f d hf
    exact ⟨(f', d), hf', hunlinked, rfl⟩
  refine .bind hflat ?_
  rintro ⟨f, d⟩ ⟨f', _⟩ - - ⟨hunlinked, rfl⟩
  have hm : (ofFlattened definition f).unlinked = (ofFlattened definition f').unlinked :=
    congrArg (ofFlattened definition) hunlinked
  exact .ok (Prod.ext hm rfl)

/-- Two documents with the same root are mapped to the same context, or both refused, whatever their plain
records are, but for what references fill in.  With the same records they are mapped alike down to what is
reported. -/
theorem unlinked_eq_of_root (hs : Source.ofValue g document = .ok source)
    (hs' : Source.ofValue g document' = .ok source') (hroot : source.root = source'.root)
    (hplain : source.Plain g) (hplain' : source'.Plain g) :
    (source.Loopless g → source'.Loopless g →
      (ofDocument g document extension).result.toOption.map (fun (m, diary) => (m.unlinked, diary)) =
        (ofDocument g document' extension).result.toOption.map
          fun (m, diary) => (m.unlinked, diary)) ∧
    (source.references = source'.references →
      ofDocument g document extension = ofDocument g document' extension) := by
  constructor
  · intro hloopless hloopless'
    have hto := carries_ofDocument extension hs hs' hroot hplain' hloopless'
    have hback := carries_ofDocument extension hs' hs hroot.symm hplain hloopless
    exact Carries.toOption_map_eq hto hback
  · intro hreferences
    have hflat := flattenSource_eq (g := g) hplain.elements hplain'.elements hreferences
    have hpure (s : Source) : (liftM (.ok s : Except Fault Source) : Traced Source) = pure s := rfl
    rw [ofDocument, ofDocument, hs, hs', hpure, hpure, pure_bind, pure_bind, hroot]
    simp only [hflat]

/-- A data object and a flow below a root, and records on both.  The first document has the records and
the second has none. -/
def referring : Graph where
  contents := #[
    .object [("$type", .str Kind.dataObject), ("id", .str "o")],
    .object [("$type", .str Kind.sequenceFlow), ("id", .str "f")],
    .list [.node 0, .node 1],
    .object [("$type", .str "bpmn:Definitions"), ("id", .str "d"), ("rootElements", .list 2)],
    .object [("$type", .str "bpmn:DataObjectReference"), ("id", .str "r")],
    .object [("property", .str Role.dataObject), ("id", .str "o"), ("element", .node 4)],
    .object [("property", .str Role.source), ("id", .str "a"), ("element", .node 1)],
    .list [.node 5, .node 6],
    .object [("rootElement", .node 3), ("references", .list 7)],
    .object [("rootElement", .node 3)]]

def referringSource : Source where
  root := .node 3
  elements := .empty
  references := [⟨.str Role.dataObject, .str "o", .node 4⟩, ⟨.str Role.source, .str "a", .node 1⟩]

theorem plain_referringSource : referringSource.Plain referring := by
  refine ⟨?_, by simp [referringSource, Index.empty]⟩
  intro r hr
  simp only [referringSource, List.mem_cons, List.not_mem_nil, or_false] at hr
  rcases hr with rfl | rfl
  · exact ⟨⟨_, rfl⟩, rfl, .inr ⟨4, rfl, by decide⟩⟩
  · exact ⟨⟨_, rfl⟩, rfl, .inr ⟨1, rfl, by decide⟩⟩

theorem loopless_referring (place : Nat) : referring.Loopless place := by
  apply Graph.loopless_of_not_holds
  intro p q h
  have hp : p < 10 := Graph.lt_size_of_mem_listed h
  rw [Graph.Holds] at h
  interval_cases p <;> simp [Graph.listed, referring] at h

theorem unlinked_eq_referring :
    ∃ source source', Source.ofValue referring (.node 8) = .ok source ∧
      Source.ofValue referring (.node 9) = .ok source' ∧ source.root = source'.root ∧
      source.Plain referring ∧ source'.Plain referring ∧ source.Loopless referring ∧
      source'.Loopless referring ∧
      (ofDocument referring (.node 8) none).result.toOption.map
          (fun (m, diary) => (m.unlinked, diary)) =
        (ofDocument referring (.node 9) none).result.toOption.map
          fun (m, diary) => (m.unlinked, diary) := by
  have hs : Source.ofValue referring (.node 8) = .ok referringSource := rfl
  have hs' : Source.ofValue referring (.node 9) = .ok ⟨.node 3, .empty, []⟩ := rfl
  have hplain' : Source.Plain referring ⟨.node 3, .empty, []⟩ := by
    constructor <;> simp [Index.empty]
  have hloopless : referringSource.Loopless referring := fun _ _ _ place _ => loopless_referring place
  have hloopless' : Source.Loopless referring ⟨.node 3, .empty, []⟩ :=
    fun _ _ _ place _ => loopless_referring place
  exact ⟨_, _, hs, hs', rfl, plain_referringSource, hplain', hloopless, hloopless',
    (unlinked_eq_of_root hs hs' rfl plain_referringSource hplain').1 hloopless hloopless'⟩

/-- A data object that a record refers to by an element with a list in itself. -/
def selfListed : Graph where
  contents := #[
    .object [("$type", .str Kind.dataObject), ("id", .str "o")],
    .list [.node 0],
    .object [("$type", .str "bpmn:Definitions"), ("id", .str "d"), ("rootElements", .list 1)],
    .list [.list 3],
    .object [("$type", .str "bpmn:DataObjectReference"), ("id", .str "r"), ("xs", .list 3)],
    .object [("property", .str Role.dataObject), ("id", .str "o"), ("element", .node 4)],
    .list [.node 5],
    .object [("rootElement", .node 2), ("references", .list 6)],
    .object [("rootElement", .node 2)]]

/-- A plain record makes a mapping fail when its element has a list in itself. -/
theorem refused_selfListed :
    (∃ source source', Source.ofValue selfListed (.node 7) = .ok source ∧
      Source.ofValue selfListed (.node 8) = .ok source' ∧ source.root = source'.root ∧
      source.Plain selfListed ∧ source'.Plain selfListed) ∧
    (ofDocument selfListed (.node 7) none).result.toOption.isSome = false ∧
    (ofDocument selfListed (.node 8) none).result.toOption.isSome = true := by
  have hs : Source.ofValue selfListed (.node 7) = .ok ⟨.node 2, .empty,
      [⟨.str Role.dataObject, .str "o", .node 4⟩]⟩ := rfl
  have hs' : Source.ofValue selfListed (.node 8) = .ok ⟨.node 2, .empty, []⟩ := rfl
  have hplain : Source.Plain selfListed ⟨.node 2, .empty,
      [⟨.str Role.dataObject, .str "o", .node 4⟩]⟩ := by
    refine ⟨?_, by simp [Index.empty]⟩
    intro r hr
    obtain rfl := List.mem_singleton.mp hr
    exact ⟨⟨_, rfl⟩, rfl, .inr ⟨4, rfl, by decide⟩⟩
  have hplain' : Source.Plain selfListed ⟨.node 2, .empty, []⟩ := by
    constructor <;> simp [Index.empty]
  exact ⟨⟨_, _, hs, hs', rfl, hplain, hplain'⟩, by decide +kernel, by decide +kernel⟩

end MappedContext

end Bpmn
