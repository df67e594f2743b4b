import Bpmn.Proofs.Mapping.Calls

namespace Bpmn

/-- What an entity says of its element and of the element this stands in. -/
structure Heading where
  id : Json
  type : Json
  name : Json
  parentId : Json
  parentType : Json

def Entity.heading (e : Entity) : Heading :=
  ⟨.ofText e.id, e.type, .ofText e.name, .ofText e.parent.id, .ofText e.parent.type⟩

namespace Graph

variable (g : Graph)

/-- What a document says of an element and of the element this stands in. -/
def heading (v : Visit) : Heading where
  id := (g.field v.place "id").plain
  type := (g.field v.place "$type").plain
  name := (g.field v.place "name").plain
  parentId := (g.field v.container "id").plain
  parentType := (g.field v.container "$type").plain

/-- An element that is listed among the activities wherever it stands in a scope. -/
def IsActivity (place : Nat) : Prop :=
  ¬ g.IsA place Kind.process ∧ ¬ g.IsA place Kind.messageFlow ∧
    ¬ g.IsA place Kind.dataObject ∧ ¬ g.IsA place Kind.sequenceFlow

instance (place : Nat) : Decidable (g.IsActivity place) :=
  inferInstanceAs (Decidable (_ ∧ _))

/-- The headings of the elements of some kind. -/
def headings (p : Nat → Prop) [DecidablePred p] (visits : List Visit) : List Heading :=
  (visits.filter fun v => p v.place).map g.heading

/-- A scope has the identifier and the type of an element. -/
def Names (scope : ScopeRef) (c : Nat) : Prop :=
  Json.ofText scope.id = (g.field c "id").plain ∧ Json.ofText scope.type = (g.field c "$type").plain

section

variable {g} {p : Nat → Prop} [DecidablePred p]

@[simp] theorem headings_nil : g.headings p [] = [] := rfl

@[simp] theorem headings_append (a b : List Visit) :
    g.headings p (a ++ b) = g.headings p a ++ g.headings p b := by
  simp [headings]

theorem headings_single (v : Visit) :
    g.headings p [v] = if p v.place then [g.heading v] else [] := by
  by_cases h : p v.place <;> simp [headings, h]

end

end Graph

namespace Survey

variable {s : Survey} {parent scope : ScopeRef} {c place : Nat}

theorem names_of_owner (h : s.owner place = .ok scope) : s.graph.Names scope place := by
  rw [owner, Checked.as_eq_ok, Checked.seq_eq_valid] at h
  obtain ⟨_, type, hmk, htype, rfl⟩ := h
  obtain ⟨id, hid, rfl⟩ := Checked.map_eq_valid.mp hmk
  exact ⟨(Value.text_eq_valid.mp hid).symm, (Value.text_eq_valid.mp htype).symm⟩

theorem heading_entity {behaviour : Behaviour} {e : Entity} (hparent : s.graph.Names parent c)
    (h : s.entity parent place behaviour = .valid e) : e.heading = s.graph.heading ⟨c, place⟩ := by
  simp only [entity, Checked.seq_eq_valid, Checked.map_eq_valid] at h
  obtain ⟨_, name, ⟨_, type, ⟨id, hid, rfl⟩, ⟨type', htype, rfl⟩, rfl⟩, hname, rfl⟩ := h
  have hid := Value.text_eq_valid.mp hid
  have htype := Value.text_eq_valid.mp htype
  have hname := Value.text_eq_valid.mp hname
  simp [Entity.heading, Graph.heading, hid, htype, hname, hparent.1, hparent.2]

theorem heading_process {e : Process} (hparent : s.graph.Names parent c)
    (h : s.process parent place = .ok e) : e.heading = s.graph.heading ⟨c, place⟩ := by
  obtain ⟨_, -, he⟩ := entity_of_process h
  exact heading_entity hparent he

theorem heading_activity {extra : List (String × Json)} {e : Activity}
    (hparent : s.graph.Names parent c) (h : s.activity parent extra place = .ok e) :
    e.heading = s.graph.heading ⟨c, place⟩ := by
  obtain ⟨_, -, he, -⟩ := entity_of_activity h
  exact heading_entity hparent he

theorem heading_boundaryEvent {e : Activity} (hparent : s.graph.Names parent c)
    (h : s.boundaryEvent parent place = .ok e) : e.heading = s.graph.heading ⟨c, place⟩ := by
  obtain ⟨_, -, h⟩ := activity_of_boundaryEvent h
  exact heading_activity hparent h

theorem heading_sequenceFlow {edge : FlowEdge} {e : SequenceFlow} (hparent : s.graph.Names parent c)
    (h : s.sequenceFlow parent edge place = .ok e) : e.heading = s.graph.heading ⟨c, place⟩ := by
  obtain ⟨_, -, he⟩ := entity_of_sequenceFlow h
  exact heading_entity hparent he

theorem heading_messageFlow {e : MessageFlow} (hparent : s.graph.Names parent c)
    (h : s.messageFlow parent place = .ok e) : e.heading = s.graph.heading ⟨c, place⟩ := by
  obtain ⟨_, -, he⟩ := entity_of_messageFlow h
  exact heading_entity hparent he

theorem heading_dataObject {e : DataObject} (hparent : s.graph.Names parent c)
    (h : s.dataObject parent place = .ok e) : e.heading = s.graph.heading ⟨c, place⟩ := by
  obtain ⟨⟨_, -, he⟩, -⟩ := entity_of_dataObject h
  exact heading_entity hparent he

end Survey

/-- The lists of flattened elements have the headings of what has been met: of the elements of some
scope, of message flows and of the elements right at the level of the lists. -/
structure Flattened.Accounts (g : Graph) (f : Flattened) (visits flows level : List Visit) : Prop where
  activities : f.activities.map (·.heading) = g.headings g.IsActivity visits
  dataObjects : f.dataObjects.map (·.heading) = g.headings (g.IsA · Kind.dataObject) visits
  sequenceFlows : f.sequenceFlows.map (·.heading) = g.headings (g.IsA · Kind.sequenceFlow) visits
  messageFlows : f.messageFlows.map (·.heading) = g.headings (g.IsA · Kind.messageFlow) flows
  processes : f.processes.map (·.heading) = g.headings (g.IsA · Kind.process) level

namespace Flattened.Accounts

variable {g : Graph} {f f' : Flattened} {visits flows level visits' flows' level' : List Visit}

theorem empty : Flattened.empty.Accounts g [] [] [] := ⟨rfl, rfl, rfl, rfl, rfl⟩

theorem ofScripts (scripts : List Script) : (Flattened.ofScripts scripts).Accounts g [] [] [] :=
  ⟨rfl, rfl, rfl, rfl, rfl⟩

theorem append (h : f.Accounts g visits flows level) (h' : f'.Accounts g visits' flows' level') :
    (f ++ f').Accounts g (visits ++ visits') (flows ++ flows') (level ++ level') where
  activities := by simp [h.activities, h'.activities]
  dataObjects := by simp [h.dataObjects, h'.dataObjects]
  sequenceFlows := by simp [h.sequenceFlows, h'.sequenceFlows]
  messageFlows := by simp [h.messageFlows, h'.messageFlows]
  processes := by simp [h.processes, h'.processes]

/-- An enclosing scope takes over what its elements are accounted for, and nothing of their level. -/
theorem carried (h : f.Accounts g visits flows level) : f.carried.Accounts g visits [] [] :=
  ⟨h.activities, h.dataObjects, h.sequenceFlows, rfl, rfl⟩

theorem messages (h : f.Accounts g visits flows level) : f.messages.Accounts g [] flows [] :=
  ⟨rfl, rfl, rfl, h.messageFlows, rfl⟩

/-- Only a message flow counts as one. -/
theorem withoutFlow {v : Visit} (h : f.Accounts g visits [v] level)
    (kind : ¬ g.IsA v.place Kind.messageFlow) : f.Accounts g visits [] level where
  activities := h.activities
  dataObjects := h.dataObjects
  sequenceFlows := h.sequenceFlows
  messageFlows := by rw [h.messageFlows, Graph.headings_single, if_neg kind, Graph.headings_nil]
  processes := h.processes

/-- Only a process counts at its level. -/
theorem besides {v : Visit} (h : f.Accounts g visits flows level)
    (kind : ¬ g.IsA v.place Kind.process) : f.Accounts g visits flows (v :: level) where
  activities := h.activities
  dataObjects := h.dataObjects
  sequenceFlows := h.sequenceFlows
  messageFlows := h.messageFlows
  processes := by
    rw [h.processes, ← List.singleton_append, Graph.headings_append, Graph.headings_single,
      if_neg kind, List.nil_append]

end Flattened.Accounts

namespace Survey

variable {s : Survey} {parent : ScopeRef} {c place : Nat}

/-- An element that is entered no further has one entity, in the list of its kind. -/
theorem accounts_leaf {own : Flattened} (hparent : s.graph.Names parent c)
    (single : ¬ s.graph.IsScope place)
    (h : s.leaf parent (s.graph.field place "$type") place = .ok own) :
    own.Accounts s.graph [⟨c, place⟩] [⟨c, place⟩] [⟨c, place⟩] := by
  have hprocess : ¬ s.graph.IsA place Kind.process := fun h => single (.inl h)
  simp only [leaf, Value.isText_iff] at h
  split at h
  · next kind =>
    have kind : s.graph.IsA place Kind.messageFlow := kind
    simp only [ok_bind, ok_pure] at h
    obtain ⟨flow, hflow, rfl⟩ := h
    have hheading := heading_messageFlow hparent hflow
    constructor <;> simp +decide [Graph.headings_single, Graph.IsActivity, kind.iff, hheading,
      Flattened.empty]
  split at h
  · next kind =>
    have kind : s.graph.IsA place Kind.dataObject := kind
    simp only [ok_bind, ok_pure] at h
    obtain ⟨object, hobject, rfl⟩ := h
    have hheading := heading_dataObject hparent hobject
    constructor <;> simp +decide [Graph.headings_single, Graph.IsActivity, kind.iff, hheading,
      Flattened.empty]
  split at h
  · next kind =>
    have kind : s.graph.IsA place Kind.sequenceFlow := kind
    simp only [ok_bind, ok_pure] at h
    obtain ⟨edge, -, scripts, -, flow, hflow, rfl⟩ := h
    have hheading := heading_sequenceFlow hparent hflow
    constructor <;> simp +decide [Graph.headings_single, Graph.IsActivity, kind.iff, hheading,
      Flattened.empty]
  next hmessage hdata hsequence =>
  have hactivity : s.graph.IsActivity place := ⟨hprocess, hmessage, hdata, hsequence⟩
  have single (e : Activity) (scripts : List Script)
      (he : e.heading = s.graph.heading ⟨c, place⟩) :
      ({ Flattened.empty with activities := [e], scripts } : Flattened).Accounts s.graph
        [⟨c, place⟩] [⟨c, place⟩] [⟨c, place⟩] := by
    obtain ⟨hprocess, hmessage, hdata, hsequence⟩ := hactivity
    constructor <;> simp [Graph.headings_single, Graph.IsActivity, hprocess, hmessage, hdata,
      hsequence, he, Flattened.empty]
  split at h
  · simp only [ok_bind, ok_pure] at h
    obtain ⟨event, hevent, rfl⟩ := h
    exact single event [] (heading_boundaryEvent hparent hevent)
  · rw [ok_bind] at h
    obtain ⟨activity, hactivity, h⟩ := h
    have hheading := heading_activity hparent hactivity
    split at h
    · simp only [ok_bind, ok_pure] at h
      obtain ⟨script, -, _, -, rfl⟩ := h
      exact single activity _ hheading
    · simp only [ok_bind, ok_pure] at h
      obtain ⟨_, -, rfl⟩ := h
      exact single activity _ hheading

/-- A process or sub-process has one entity, and names the scope that is in it. -/
theorem accounts_container {own : Flattened} {scope : ScopeRef} (hparent : s.graph.Names parent c)
    (kind : s.graph.IsScope place)
    (h : s.container parent (s.graph.field place "$type") place = .ok (own, scope)) :
    own.Accounts s.graph [⟨c, place⟩] [⟨c, place⟩] [⟨c, place⟩] ∧ s.graph.Names scope place := by
  simp only [container, Value.isText_iff] at h
  split at h
  · next kind =>
    have kind : s.graph.IsA place Kind.process := kind
    simp only [ok_bind, ok_pure, Prod.mk.injEq] at h
    obtain ⟨p, hp, scope, hscope, rfl, rfl⟩ := h
    have hheading := heading_process hparent hp
    refine ⟨?_, names_of_owner hscope⟩
    constructor <;> simp +decide [Graph.headings_single, Graph.IsActivity, kind.iff, hheading,
      Flattened.empty]
  · next hprocess =>
    have kind : s.graph.IsA place Kind.subProcess := kind.resolve_left hprocess
    simp only [ok_bind, ok_pure, Prod.mk.injEq] at h
    obtain ⟨a, ha, scope, hscope, rfl, rfl⟩ := h
    have hheading := heading_activity hparent ha
    refine ⟨?_, names_of_owner hscope⟩
    constructor <;> simp +decide [Graph.headings_single, Graph.IsActivity, kind.iff, hheading,
      Flattened.empty]

/-- The lists of a walk are accounted for by the walks over its elements. -/
theorem Yields.accounts {items : List Value} {d d' : Diary} {f : Flattened}
    (h : s.Yields parent items d f d') (hparent : s.graph.Names parent c) :
    ∃ visits flows, s.graph.Visits c items visits ∧ s.graph.MessageFlows c items flows ∧
      f.Accounts s.graph visits flows (Graph.direct c items) := by
  induction h generalizing c with
  | nil => exact ⟨[], [], .nil, .nil, .empty⟩
  | @skipped _ place _ _ _ _ kind _ ih =>
    obtain ⟨visits, flows, hvisits, hflows, hf⟩ := ih hparent
    have not {k : String} (hk : k ∉ Kind.skipped) : ¬ s.graph.IsA place k :=
      fun h => h.not_skipped hk kind
    refine ⟨visits, flows, .leftOut (.inl kind) hvisits, .other ⟨?_, ?_⟩ hflows, ?_⟩
    · exact not (by decide)
    · exact not (by decide)
    · exact hf.besides (not (by decide))
  | @collaboration _ place rest children _ inner _ f _ kind items _ _ ihb ihl =>
    obtain ⟨below, flows, hbelow, hflows, hinner⟩ := ihb hparent
    obtain ⟨later, flows', hlater, hflows', hf⟩ := ihl hparent
    refine ⟨later, flows ++ flows', .leftOut (.inr kind) hlater,
      .collaboration kind items hflows hflows', ?_⟩
    have hboth := hinner.messages.append hf
    exact hboth.besides (kind.not (by decide))
  | @scope _ place rest children own scope _ scripts _ inner _ f _ kind made _ items _ _ ihb ihl =>
    obtain ⟨hown, hscope⟩ := accounts_container hparent kind made
    obtain ⟨below, _, hbelow, -, hinner⟩ := ihb hscope
    obtain ⟨later, flows, hlater, hflows, hf⟩ := ihl hparent
    have hmessage : ¬ s.graph.IsA place Kind.messageFlow := fun h => h.not_scope (by decide) kind
    refine ⟨_, flows, .scope kind items hbelow hlater,
      .other ⟨hmessage, fun h => kind.not_leftOut (.inr h)⟩ hflows, ?_⟩
    have hall := (((hown.withoutFlow hmessage).append (.ofScripts scripts)).append
      hinner.carried).append hf
    simpa using hall
  | @leaf _ place rest own _ scripts _ f _ unskipped single made _ _ ih =>
    have hown := accounts_leaf hparent single.2 made
    obtain ⟨later, flows, hlater, hflows, hf⟩ := ih hparent
    have hvisits := Graph.Visits.leaf ⟨not_or.mpr ⟨unskipped, single.1⟩, single.2⟩ hlater
    by_cases hmessage : s.graph.IsA place Kind.messageFlow
    · refine ⟨_, _, hvisits, .flow hmessage hflows, ?_⟩
      simpa using (hown.append (.ofScripts scripts)).append hf
    · refine ⟨_, flows, hvisits, .other ⟨hmessage, single.1⟩ hflows, ?_⟩
      simpa using ((hown.withoutFlow hmessage).append (.ofScripts scripts)).append hf

end Survey

theorem Graph.names_of_definition {g : Graph} {root : Nat} {definition : Definition}
    (h : g.definition root = .ok definition) : g.Names ⟨definition.id, definition.type⟩ root := by
  simp only [Graph.definition, Checked.as_eq_ok, Checked.seq_eq_valid, Checked.map_eq_valid] at h
  obtain ⟨_, _, ⟨_, _, ⟨_, _, ⟨_, _, ⟨_, type, ⟨id, hid, rfl⟩, htype, rfl⟩, -, rfl⟩, -, rfl⟩, -, rfl⟩,
    -, rfl⟩ := h
  exact ⟨(Value.text_eq_valid.mp hid).symm, (Value.text_eq_valid.mp htype).symm⟩

theorem Graph.headings_of_forall {g : Graph} {p : Nat → Prop} [DecidablePred p] {visits : List Visit}
    (h : ∀ v ∈ visits, p v.place) : g.headings p visits = visits.map g.heading := by
  rw [headings, List.filter_eq_self.mpr]
  intro v hv
  exact decide_eq_true (h v hv)

namespace MappedContext

/-- The lists of a context are those of its document: one entity with the heading of its element for each
visit that the walks make, in their order.  An extension sees each element of the tour once. -/
theorem accounts_of_ofDocument {g : Graph} {document : Value} {extension : Option Extension}
    {m : MappedContext} {diary : Diary}
    (h : (ofDocument g document extension).result = .ok (m, diary)) :
    ∃ root items visits flows stops,
      g.HasRoot document root items ∧ (∀ v, g.Visits root items v ↔ v = visits) ∧
      (∀ v, g.MessageFlows root items v ↔ v = flows) ∧ (∀ t, g.Tours false items t ↔ t = stops) ∧
      m.dataObjects.map (·.heading) = g.headings (g.IsA · Kind.dataObject) visits ∧
      m.sequenceFlows.map (·.heading) = g.headings (g.IsA · Kind.sequenceFlow) visits ∧
      m.activities.map (·.heading) = g.headings g.IsActivity visits ∧
      m.processes.map (·.heading) = g.headings (g.IsA · Kind.process) (Graph.direct root items) ∧
      m.messageFlows.map (·.heading) = flows.map g.heading ∧
      diary.visited = (if extension.isSome then stops.map (·.place) else []) := by
  obtain ⟨root, definition, links, items, f, hroot, hdefinition, hyields, rfl⟩ :=
    yields_of_ofDocument h
  have hnames := Graph.names_of_definition hdefinition
  obtain ⟨visits, flows, hvisits, hflows, hf⟩ := hyields.accounts hnames
  obtain ⟨calls, htour, hkeeps, -⟩ := hyields.calls false
  refine ⟨root, items, visits, flows, _, hroot, hvisits.iff, hflows.iff, htour.iff, hf.dataObjects,
    hf.sequenceFlows, hf.activities, hf.processes, ?_, ?_⟩
  · have hmessage := hf.messageFlows
    rw [Graph.headings_of_forall hflows.isA] at hmessage
    exact hmessage
  · have hvisited := hkeeps.visited
    rw [List.map_map]
    exact hvisited

/-- A task in a sub-process in a process, behind a sequence flow at the top. -/
def nesting : Graph where
  contents := #[
    .object [("$type", .str "bpmn:Task"), ("id", .str "t")],
    .list [.node 0],
    .object [("$type", .str Kind.subProcess), ("id", .str "s"), ("flowElements", .list 1)],
    .list [.node 2],
    .object [("$type", .str Kind.process), ("id", .str "p"), ("flowElements", .list 3)],
    .object [("$type", .str Kind.sequenceFlow), ("id", .str "f")],
    .list [.node 5, .node 4],
    .object [("$type", .str "bpmn:Definitions"), ("id", .str "d"), ("rootElements", .list 6)],
    .object [("rootElement", .node 7)]]

theorem accounts_nesting :
    ∃ m diary, (ofDocument nesting (.node 8) none).result = .ok (m, diary) ∧
      ∃ root items visits flows stops,
        nesting.HasRoot (.node 8) root items ∧ (∀ v, nesting.Visits root items v ↔ v = visits) ∧
        (∀ v, nesting.MessageFlows root items v ↔ v = flows) ∧
        (∀ t, nesting.Tours false items t ↔ t = stops) ∧
        m.dataObjects.map (·.heading) = nesting.headings (nesting.IsA · Kind.dataObject) visits ∧
        m.sequenceFlows.map (·.heading) = nesting.headings (nesting.IsA · Kind.sequenceFlow) visits ∧
        m.activities.map (·.heading) = nesting.headings nesting.IsActivity visits ∧
        m.processes.map (·.heading) =
          nesting.headings (nesting.IsA · Kind.process) (Graph.direct root items) ∧
        m.messageFlows.map (·.heading) = flows.map nesting.heading ∧ diary.visited = [] := by
  have hsome : (ofDocument nesting (.node 8) none).result.toOption.isSome = true := by
    decide +kernel
  cases hrun : (ofDocument nesting (.node 8) none).result with
  | error fault =>
    rw [hrun] at hsome
    cases hsome
  | ok made => exact ⟨made.1, made.2, rfl, accounts_of_ofDocument hrun⟩

end MappedContext

end Bpmn
