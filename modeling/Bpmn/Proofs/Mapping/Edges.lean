import Bpmn.Proofs.Fields
import Bpmn.Proofs.Mapping.PlainLinks
import Bpmn.Proofs.Mapping.Tables

namespace Bpmn

/-- A record with a text or no identifier, which stands on nothing or on an object of such an identifier. -/
structure ReferenceRecord.Keyed (g : Graph) (r : ReferenceRecord) : Prop where
  id : r.id.isName = true
  element : g.orAbsent r.element = none ∨
    ∃ place, r.element = .node place ∧ (g.field place "id").isName = true

/-- A link made of a keyed record. -/
structure Link.Keyed (g : Graph) (link : Link) : Prop where
  id : link.id.isName = true
  element : (link.elementId g).isName = true

namespace Graph

variable (g : Graph)

/-- The flow that a link speaks of. -/
def flowOf? (link : Link) : Option Value :=
  if link.role.isText Role.source || link.role.isText Role.target then (link.elementId g).nonNull?
  else if link.role.isText Role.default then link.id.nonNull?
  else none

/-- The flows in the order in which links first speak of them. -/
def flows (ls : List Link) : List Value := (ls.filterMap g.flowOf?).eraseDups

/-- The links of a role that speak of a flow. -/
def said (ls : List Link) (role : String) (flow : Value) : List Link :=
  ls.filter fun link => link.role.isText role && g.flowOf? link == some flow

/-- The identifier in the last link of a role that speaks of a flow. -/
def lastId (ls : List Link) (role : String) (flow : Value) : Value :=
  ((g.said ls role flow).getLast?.map Link.id).getD .null

/-- The element of a flow: the one indexed under it, else that of its last source link. -/
def lastElement (elements : Index) (ls : List Link) (flow : Value) : Value :=
  ((g.said ls Role.source flow).getLast?.map fun link =>
    (g.orAbsent (elements.find flow)).getD (.node link.place)).getD .null

/-- An edge holds what the links say of its flow. -/
structure Tells (elements : Index) (ls : List Link) (e : FlowEdge) : Prop where
  source : e.source = g.lastId ls Role.source e.id
  target : e.target = g.lastId ls Role.target e.id
  mark : e.mark = if g.said ls Role.default e.id = [] then none else some true
  element : e.element = g.lastElement elements ls e.id
  type : g.typeOf e.element = .ok e.type

/-- What is indexed under the flow of a source link is an object, if it counts for something. -/
def Typable (elements : Index) (link : Link) : Prop :=
  ∀ flow, link.role = .str Role.source → g.flowOf? link = some flow →
    g.truthy (elements.find flow) = true → ∃ place, elements.find flow = .node place

/-- There is one edge for each flow the links speak of, and the other links are selected in order. -/
structure Indexed (elements : Index) (ls : List Link) (links : Links) : Prop where
  order : links.edges.map (·.id) = g.flows ls
  edges : ∀ e ∈ links.edges, g.Tells elements ls e
  dataObjects : links.dataObjects = ls.filter (·.role.isText Role.dataObject)
  directions : ∀ d : Direction, d.links links = ls.filter (g.joins d)

variable {g} {elements : Index} {ls ls' : List Link} {link : Link} {flow : Value} {role : String}

theorem flowOf?_eq_some : g.flowOf? link = some flow ↔ flow ≠ .null ∧
    ((link.role = .str Role.source ∨ link.role = .str Role.target) ∧ link.elementId g = flow ∨
      link.role = .str Role.default ∧ link.id = flow) := by
  rw [flowOf?]
  split
  · next hend =>
    simp only [Bool.or_eq_true, Value.isText_iff] at hend
    have hdefault : link.role ≠ .str Role.default := by
      rcases hend with h | h <;> rw [h] <;> decide
    simp [Value.nonNull?_eq_some, hend, hdefault]
  · next hend =>
    simp only [Bool.or_eq_true, Value.isText_iff] at hend
    simp only [hend, false_and, false_or]
    split
    · next hdefault =>
      rw [Value.isText_iff] at hdefault
      rw [Value.nonNull?_eq_some]
      simp only [hdefault, true_and]
    · next hdefault =>
      rw [Value.isText_iff] at hdefault
      simp [hdefault]

theorem isName_of_flowOf? (hlink : link.Keyed g) (h : g.flowOf? link = some flow) :
    flow.isName = true := by
  rcases (flowOf?_eq_some.mp h).2 with ⟨-, rfl⟩ | ⟨-, rfl⟩
  · exact hlink.element
  · exact hlink.id

theorem mem_flows : flow ∈ g.flows ls ↔ ∃ link ∈ ls, g.flowOf? link = some flow := by
  rw [flows, List.mem_eraseDups, List.mem_filterMap]

/-- A flow is spoken of exactly if something is said of it. -/
theorem mem_flows_iff_said : flow ∈ g.flows ls ↔ ∃ role, g.said ls role flow ≠ [] := by
  constructor
  · intro h
    obtain ⟨link, hlink, hflow⟩ := mem_flows.mp h
    obtain ⟨role, hrole⟩ : ∃ role, link.role = .str role := by
      rcases (flowOf?_eq_some.mp hflow).2 with ⟨hs | ht, -⟩ | ⟨hd, -⟩
      · exact ⟨_, hs⟩
      · exact ⟨_, ht⟩
      · exact ⟨_, hd⟩
    have hsaid : link ∈ g.said ls role flow :=
      List.mem_filter.mpr ⟨hlink, by simp [hrole, hflow, Value.isText]⟩
    exact ⟨role, List.ne_nil_of_mem hsaid⟩
  · rintro ⟨role, hsaid⟩
    obtain ⟨link, hlink⟩ := List.exists_mem_of_ne_nil _ hsaid
    obtain ⟨hlink, hsays⟩ := List.mem_filter.mp hlink
    rw [Bool.and_eq_true, beq_iff_eq] at hsays
    exact mem_flows.mpr ⟨link, hlink, hsays.2⟩

theorem said_snoc (hrole : link.role = .str role) (hflow : g.flowOf? link = some flow) :
    g.said (ls ++ [link]) role flow = g.said ls role flow ++ [link] := by
  rw [said, List.filter_append, List.filter_singleton, hrole, hflow]
  simp [said, Value.isText]

/-- A link says something in its own role and of its own flow only. -/
theorem said_snoc_of_silent (h : link.role ≠ .str role ∨ g.flowOf? link ≠ some flow) :
    g.said (ls ++ [link]) role flow = g.said ls role flow := by
  have hsilent : (link.role.isText role && g.flowOf? link == some flow) = false := by
    rw [Bool.and_eq_false_iff]
    refine h.imp (fun hrole => ?_) (fun hflow => ?_)
    · rwa [Bool.eq_false_iff, ne_eq, Value.isText_iff]
    · rwa [beq_eq_false_iff_ne]
  rw [said, List.filter_append, List.filter_singleton, hsilent]
  exact List.append_nil _

theorem said_snoc_of_role {other : String} (hrole : link.role = .str other) (hne : other ≠ role) :
    g.said (ls ++ [link]) role flow = g.said ls role flow := by
  apply said_snoc_of_silent
  left
  rw [hrole, ne_eq, Value.str.injEq]
  exact hne

theorem said_eq_nil (h : flow ∉ g.flows ls) : g.said ls role flow = [] := by
  by_contra hsaid
  exact h (mem_flows_iff_said.mpr ⟨role, hsaid⟩)

theorem flows_snoc_of_none (h : g.flowOf? link = none) : g.flows (ls ++ [link]) = g.flows ls := by
  simp [flows, h]

theorem flows_snoc_of_some (h : g.flowOf? link = some flow) :
    g.flows (ls ++ [link]) = if flow ∈ g.flows ls then g.flows ls else g.flows ls ++ [flow] := by
  simp only [flows, List.filterMap_append, List.filterMap_cons, h, List.filterMap_nil, List.mem_eraseDups]
  exact eraseDups_snoc _ _

theorem nodup_flows : (g.flows ls).Nodup := nodup_eraseDups _

theorem lastId_snoc (hrole : link.role = .str role) (hflow : g.flowOf? link = some flow) :
    g.lastId (ls ++ [link]) role flow = link.id := by
  rw [lastId, said_snoc hrole hflow, List.getLast?_concat]
  rfl

theorem lastElement_snoc (hrole : link.role = .str Role.source) (hflow : g.flowOf? link = some flow) :
    g.lastElement elements (ls ++ [link]) flow = Links.flowElement g elements flow link.place := by
  rw [lastElement, said_snoc hrole hflow, List.getLast?_concat]
  rfl

namespace Tells

variable {e : FlowEdge}

theorem of_said (h : g.Tells elements ls e) (hsaid : ∀ role, g.said ls' role e.id = g.said ls role e.id) :
    g.Tells elements ls' e where
  source := by rw [lastId, hsaid]; exact h.source
  target := by rw [lastId, hsaid]; exact h.target
  mark := by rw [hsaid]; exact h.mark
  element := by rw [lastElement, hsaid]; exact h.element
  type := h.type

/-- What the links say of a flow leaves nothing open on its edge. -/
theorem unique {e' : FlowEdge} (h : g.Tells elements ls e) (h' : g.Tells elements ls e')
    (hid : e.id = e'.id) : e = e' := by
  have hsource : e.source = e'.source := by rw [h.source, h'.source, hid]
  have htarget : e.target = e'.target := by rw [h.target, h'.target, hid]
  have helement : e.element = e'.element := by rw [h.element, h'.element, hid]
  have htype : e.type = e'.type := Except.ok.inj (by rw [← h.type, ← h'.type, helement])
  have hdefault : e.isDefault = e'.isDefault := by
    have hmark : e.mark = e'.mark := by rw [h.mark, h'.mark, hid]
    cases hd : e.isDefault <;> cases hd' : e'.isDefault <;> simp [FlowEdge.mark, hd, hd'] at hmark ⊢
  cases e
  cases e'
  simp_all

theorem bare (h : flow ∉ g.flows ls) : g.Tells elements ls (.bare flow) where
  source := by rw [lastId, FlowEdge.bare, said_eq_nil h]; rfl
  target := by rw [lastId, FlowEdge.bare, said_eq_nil h]; rfl
  mark := by rw [FlowEdge.bare, said_eq_nil h]; rfl
  element := by rw [lastElement, FlowEdge.bare, said_eq_nil h]; rfl
  type := rfl

theorem snoc_of_ne (h : g.Tells elements ls e) (hflow : g.flowOf? link ≠ some e.id) :
    g.Tells elements (ls ++ [link]) e :=
  h.of_said fun _ => said_snoc_of_silent (.inr hflow)

theorem snoc_source (h : g.Tells elements ls e) (hrole : link.role = .str Role.source)
    (hflow : g.flowOf? link = some e.id) {type : Value}
    (htype : g.typeOf (Links.flowElement g elements e.id link.place) = .ok type) :
    g.Tells elements (ls ++ [link])
      { e with element := Links.flowElement g elements e.id link.place, type, source := link.id } where
  source := (lastId_snoc hrole hflow).symm
  target := by
    rw [lastId, said_snoc_of_role hrole (by decide)]
    exact h.target
  mark := by
    rw [said_snoc_of_role hrole (by decide)]
    exact h.mark
  element := (lastElement_snoc hrole hflow).symm
  type := htype

theorem snoc_target (h : g.Tells elements ls e) (hrole : link.role = .str Role.target)
    (hflow : g.flowOf? link = some e.id) :
    g.Tells elements (ls ++ [link]) { e with target := link.id } where
  source := by
    rw [lastId, said_snoc_of_role hrole (by decide)]
    exact h.source
  target := (lastId_snoc hrole hflow).symm
  mark := by
    rw [said_snoc_of_role hrole (by decide)]
    exact h.mark
  element := by
    rw [lastElement, said_snoc_of_role hrole (by decide)]
    exact h.element
  type := h.type

theorem snoc_default (h : g.Tells elements ls e) (hrole : link.role = .str Role.default)
    (hflow : g.flowOf? link = some e.id) :
    g.Tells elements (ls ++ [link]) { e with isDefault := true } where
  source := by
    rw [lastId, said_snoc_of_role hrole (by decide)]
    exact h.source
  target := by
    rw [lastId, said_snoc_of_role hrole (by decide)]
    exact h.target
  mark := by
    rw [said_snoc hrole hflow, if_neg (by simp)]
    rfl
  element := by
    rw [lastElement, said_snoc_of_role hrole (by decide)]
    exact h.element
  type := h.type

end Tells

section Edges

variable {edges edges' : List FlowEdge} {f : FlowEdge → FlowEdge}

theorem sameKey_iff {v name : Value} (hv : v.isName = true) (hname : name.isName = true) :
    v.sameKey name = true ↔ v = name := by
  rcases Value.isName_iff.mp hv with rfl | ⟨s, rfl⟩ <;>
    rcases Value.isName_iff.mp hname with rfl | ⟨s', rfl⟩ <;>
    simp [Value.sameKey, Value.plain, Json.sameKey, Json.number?]

theorem ids_change (hf : ∀ e, (f e).id = e.id) (hnames : ∀ e ∈ edges, e.id.isName = true)
    (hflow : flow.isName = true) :
    (Links.change flow f edges).map (·.id) =
      if flow ∈ edges.map (·.id) then edges.map (·.id) else edges.map (·.id) ++ [flow] := by
  induction edges with
  | nil => simp [Links.change, hf, FlowEdge.bare]
  | cons e rest ih =>
    rw [List.forall_mem_cons] at hnames
    rw [Links.change]
    split
    · next hsame =>
      rw [sameKey_iff hnames.1 hflow] at hsame
      simp [hf, hsame]
    · next hother =>
      rw [sameKey_iff hnames.1 hflow] at hother
      rw [List.map_cons, ih hnames.2]
      have hne : flow ≠ e.id := fun h => hother h.symm
      simp only [List.map_cons, List.mem_cons, hne, false_or]
      split <;> rfl

/-- Every edge of another flow is left as it is. -/
theorem mem_change_of_nodup (hnames : ∀ e ∈ edges, e.id.isName = true)
    (hflow : flow.isName = true) (hnodup : (edges.map (·.id)).Nodup) {e : FlowEdge}
    (h : e ∈ Links.change flow f edges) :
    e ∈ edges ∧ e.id ≠ flow ∨ (∃ e' ∈ edges, e'.id = flow ∧ e = f e') ∨
      flow ∉ edges.map (·.id) ∧ e = f (.bare flow) := by
  induction edges with
  | nil => exact .inr (.inr ⟨List.not_mem_nil, List.mem_singleton.mp h⟩)
  | cons first rest ih =>
    rw [List.forall_mem_cons] at hnames
    rw [List.map_cons, List.nodup_cons] at hnodup
    rw [Links.change] at h
    split at h
    · next hsame =>
      rw [sameKey_iff hnames.1 hflow] at hsame
      rcases List.mem_cons.mp h with rfl | h
      · exact .inr (.inl ⟨first, List.mem_cons_self, hsame, rfl⟩)
      · refine .inl ⟨List.mem_cons_of_mem _ h, ?_⟩
        rintro rfl
        exact hnodup.1 (hsame ▸ List.mem_map_of_mem h)
    · next hother =>
      rw [sameKey_iff hnames.1 hflow] at hother
      rcases List.mem_cons.mp h with rfl | h
      · exact .inl ⟨List.mem_cons_self, hother⟩
      · rcases ih hnames.2 hnodup.2 h with ⟨h, hne⟩ | ⟨e', he', hid, rfl⟩ | ⟨hnew, rfl⟩
        · exact .inl ⟨List.mem_cons_of_mem _ h, hne⟩
        · exact .inr (.inl ⟨e', List.mem_cons_of_mem _ he', hid, rfl⟩)
        · refine .inr (.inr ⟨?_, rfl⟩)
          rw [List.map_cons, List.mem_cons, not_or]
          exact ⟨fun h => hother h.symm, hnew⟩

theorem isNull_eq_false {v : Value} (h : v ≠ .null) : v.isNull = false := by
  cases v with
  | null => exact absurd rfl h
  | _ => rfl

theorem addEdge_of_silent (h : g.flowOf? link = .none) : Links.addEdge g elements edges link = .ok edges := by
  have hsilent (v : Value) (hv : v.nonNull? = .none) : v.isNull = true := by
    cases v <;> first | rfl | cases hv
  rw [flowOf?] at h
  rw [Links.addEdge]
  split at h
  · next hend =>
    have hnull : (g.field link.place "id").isNull = true := hsilent _ h
    have hdefault : link.role.isText Role.default = false := by
      simp only [Bool.or_eq_true, Value.isText_iff] at hend
      rcases hend with hrole | hrole <;> rw [hrole] <;> decide
    simp only [hnull, hdefault, Bool.not_true, Bool.and_false, Bool.false_and, Bool.false_eq_true, if_false]
    rfl
  · next hend =>
    rw [Bool.or_eq_true, not_or, Bool.not_eq_true, Bool.not_eq_true] at hend
    simp only [hend, Bool.false_and, Bool.false_eq_true, if_false]
    split
    · next hmark =>
      rw [Bool.and_eq_true, Bool.not_eq_true'] at hmark
      rw [if_pos hmark.1] at h
      rw [hsilent _ h] at hmark
      cases hmark.2
    · rfl

theorem addEdge_of_source (hlink : link.Keyed g) (hrole : link.role = .str Role.source)
    (h : g.flowOf? link = some flow) : Links.addEdge g elements edges link =
      (fun type => Links.change flow (fun e => { e with
        element := Links.flowElement g elements flow link.place, type, source := link.id }) edges) <$>
        g.typeOf (Links.flowElement g elements flow link.place) := by
  have hflow := isName_of_flowOf? hlink h
  obtain ⟨hnull, ⟨-, rfl⟩ | ⟨hother, -⟩⟩ := flowOf?_eq_some.mp h
  · rw [Links.addEdge, hrole, if_pos]
    · exact congrArg (· >>= _) (Value.asKey_of_isName hflow)
    · exact Bool.and_eq_true_iff.mpr ⟨by decide, by rw [← Link.elementId, isNull_eq_false hnull]; rfl⟩
  · rw [hrole] at hother
    exact absurd hother (by decide)

theorem addEdge_of_target (hlink : link.Keyed g) (hrole : link.role = .str Role.target)
    (h : g.flowOf? link = some flow) : Links.addEdge g elements edges link =
      .ok (Links.change flow (fun e => { e with target := link.id }) edges) := by
  have hflow := isName_of_flowOf? hlink h
  obtain ⟨hnull, ⟨-, rfl⟩ | ⟨hother, -⟩⟩ := flowOf?_eq_some.mp h
  · rw [Links.addEdge, hrole, if_neg (by simp [Value.isText, Role.source, Role.target]), if_pos]
    · exact congrArg (· >>= _) (Value.asKey_of_isName hflow)
    · exact Bool.and_eq_true_iff.mpr ⟨by decide, by rw [← Link.elementId, isNull_eq_false hnull]; rfl⟩
  · rw [hrole] at hother
    exact absurd hother (by decide)

theorem addEdge_of_default (hlink : link.Keyed g) (hrole : link.role = .str Role.default)
    (h : g.flowOf? link = some flow) : Links.addEdge g elements edges link =
      .ok (Links.change flow (fun e => { e with isDefault := true }) edges) := by
  have hflow := isName_of_flowOf? hlink h
  obtain ⟨hnull, ⟨hother, -⟩ | ⟨-, rfl⟩⟩ := flowOf?_eq_some.mp h
  · rw [hrole] at hother
    exact absurd hother (by decide)
  · rw [Links.addEdge, hrole, if_neg (by simp [Value.isText, Role.source, Role.default]),
      if_neg (by simp [Value.isText, Role.target, Role.default]), if_pos]
    · exact congrArg (· >>= _) (Value.asKey_of_isName hflow)
    · exact Bool.and_eq_true_iff.mpr ⟨by decide, by rw [isNull_eq_false hnull]; rfl⟩

theorem exists_typeOf_flowElement (place : Nat) :
    (∃ type, g.typeOf (Links.flowElement g elements flow place) = .ok type) ↔
      (g.truthy (elements.find flow) = true → ∃ place, elements.find flow = .node place) := by
  rw [Links.flowElement, orAbsent]
  split
  · next htruthy =>
    rw [htruthy, Option.getD_some]
    cases hfound : elements.find flow with
    | null =>
      rw [hfound] at htruthy
      cases htruthy
    | node inner => exact iff_of_true ⟨_, rfl⟩ fun _ => ⟨inner, rfl⟩
    | _ => simp [typeOf, get, placeOf]
  · next htruthy => exact iff_of_true ⟨_, rfl⟩ fun h => absurd h htruthy

/-- A link is noted exactly if the element of its flow has a type. -/
theorem exists_addEdge_iff (edges : List FlowEdge) (hlink : link.Keyed g) :
    (∃ edges', Links.addEdge g elements edges link = .ok edges') ↔ g.Typable elements link := by
  cases hflow : g.flowOf? link with
  | none =>
    refine iff_of_true ⟨edges, addEdge_of_silent hflow⟩ ?_
    intro flow _ h
    rw [hflow] at h
    cases h
  | some flow =>
    by_cases hrole : link.role = .str Role.source
    · simp only [addEdge_of_source hlink hrole hflow, ok_map, Typable, hrole, hflow, forall_const,
        Option.some.injEq, forall_eq', ← exists_typeOf_flowElement link.place]
      constructor
      · rintro ⟨_, type, htype, -⟩
        exact ⟨type, htype⟩
      · rintro ⟨type, htype⟩
        exact ⟨_, type, htype, rfl⟩
    · refine iff_of_true ?_ fun _ h => absurd h hrole
      rcases (flowOf?_eq_some.mp hflow).2 with ⟨hs | ht, -⟩ | ⟨hd, -⟩
      · exact absurd hs hrole
      · exact ⟨_, addEdge_of_target hlink ht hflow⟩
      · exact ⟨_, addEdge_of_default hlink hd hflow⟩

/-- A link that speaks of a flow changes the edge of that flow to what is then said of it. -/
theorem exists_change_of_addEdge (ls : List Link) (hlink : link.Keyed g) (hflow : g.flowOf? link = some flow)
    (h : Links.addEdge g elements edges link = .ok edges') :
    ∃ f, edges' = Links.change flow f edges ∧ (∀ e, (f e).id = e.id) ∧ ∀ e, e.id = flow →
      g.Tells elements ls e → g.Tells elements (ls ++ [link]) (f e) := by
  rcases (flowOf?_eq_some.mp hflow).2 with ⟨hrole | hrole, -⟩ | ⟨hrole, -⟩
  · rw [addEdge_of_source hlink hrole hflow, ok_map] at h
    obtain ⟨type, htype, rfl⟩ := h
    refine ⟨_, rfl, fun e => rfl, ?_⟩
    rintro e rfl he
    exact he.snoc_source hrole hflow htype
  · rw [addEdge_of_target hlink hrole hflow] at h
    refine ⟨_, (Except.ok.inj h).symm, fun e => rfl, ?_⟩
    rintro e rfl he
    exact he.snoc_target hrole hflow
  · rw [addEdge_of_default hlink hrole hflow] at h
    refine ⟨_, (Except.ok.inj h).symm, fun e => rfl, ?_⟩
    rintro e rfl he
    exact he.snoc_default hrole hflow

theorem edges_snoc (hkeyed : ∀ link ∈ ls, link.Keyed g) (hlink : link.Keyed g)
    (horder : edges.map (·.id) = g.flows ls) (htells : ∀ e ∈ edges, g.Tells elements ls e)
    (h : Links.addEdge g elements edges link = .ok edges') :
    edges'.map (·.id) = g.flows (ls ++ [link]) ∧ ∀ e ∈ edges', g.Tells elements (ls ++ [link]) e := by
  cases hflow : g.flowOf? link with
  | none =>
    rw [addEdge_of_silent hflow] at h
    obtain rfl := Except.ok.inj h
    refine ⟨by rw [flows_snoc_of_none hflow, horder], ?_⟩
    intro e he
    exact (htells e he).snoc_of_ne (by rw [hflow]; nofun)
  | some flow =>
    obtain ⟨f, rfl, hf, hchanged⟩ := exists_change_of_addEdge ls hlink hflow h
    have hname := isName_of_flowOf? hlink hflow
    have hnames : ∀ e ∈ edges, e.id.isName = true := by
      intro e he
      have hmem : e.id ∈ g.flows ls := horder ▸ List.mem_map_of_mem he
      obtain ⟨link', hlink', hflow'⟩ := mem_flows.mp hmem
      exact isName_of_flowOf? (hkeyed link' hlink') hflow'
    have hnodup : (edges.map (·.id)).Nodup := horder ▸ nodup_flows
    refine ⟨by rw [ids_change hf hnames hname, flows_snoc_of_some hflow, horder], ?_⟩
    intro e he
    rcases mem_change_of_nodup hnames hname hnodup he with ⟨he, hne⟩ | ⟨e', he', hid, rfl⟩ | ⟨hnew, rfl⟩
    · refine (htells e he).snoc_of_ne ?_
      rw [hflow]
      exact fun h => hne (Option.some.inj h).symm
    · exact hchanged e' hid (htells e' he')
    · exact hchanged _ rfl (.bare (horder ▸ hnew))

end Edges

variable {r : ReferenceRecord} {records : List ReferenceRecord} {links links' : Links}

theorem link?_of_keyed (h : r.Keyed g) :
    g.orAbsent r.element = none ∧ g.link? r = none ∨
      ∃ place, g.orAbsent r.element = some (.node place) ∧ g.link? r = some ⟨r.property, r.id, place⟩ ∧
        Link.Keyed g ⟨r.property, r.id, place⟩ := by
  rw [link?]
  cases hcounts : g.orAbsent r.element with
  | none => exact .inl ⟨rfl, rfl⟩
  | some element =>
    rcases h.element with hnone | ⟨place, hplace, hname⟩
    · rw [hnone] at hcounts
      cases hcounts
    · obtain rfl : element = .node place := by
        rw [orAbsent, hplace] at hcounts
        split at hcounts
        · exact (Option.some.inj hcounts).symm
        · cases hcounts
      exact .inr ⟨place, rfl, rfl, h.id, hname⟩

theorem keyed_of_mem_linksOf (h : ∀ r ∈ records, r.Keyed g) : ∀ link ∈ g.linksOf records, link.Keyed g := by
  intro link hlink
  obtain ⟨r, hr, hlinked⟩ := List.mem_filterMap.mp hlink
  rcases link?_of_keyed (h r hr) with ⟨-, hnone⟩ | ⟨place, -, hsome, hkeyed⟩
  · rw [hnone] at hlinked
    cases hlinked
  · rw [hsome] at hlinked
    obtain rfl := Option.some.inj hlinked
    exact hkeyed

/-- A record with a link adds what the link says to the edges. -/
theorem add_of_link (elements : Index) (links : Links) {place : Nat}
    (h : g.orAbsent r.element = some (.node place)) :
    ∃ f : List FlowEdge → Links,
      Links.add g elements links r =
        f <$> Links.addEdge g elements links.edges ⟨r.property, r.id, place⟩ ∧
      ∀ edges, (f edges).edges = edges := by
  rw [Links.add, h]
  exact ⟨_, rfl, fun edges => rfl⟩

theorem exists_add_iff (links : Links) (h : r.Keyed g) :
    (∃ links', Links.add g elements links r = .ok links') ↔
      ∀ link ∈ (g.link? r).toList, g.Typable elements link := by
  rcases link?_of_keyed h with ⟨hnone, hlink⟩ | ⟨place, hplace, hlink, hkeyed⟩
  · rw [Links.add, hnone, hlink]
    exact iff_of_true ⟨links, rfl⟩ (by simp)
  · obtain ⟨f, hf, -⟩ := add_of_link elements links hplace
    simp only [hlink, Option.mem_toList, Option.some.injEq, forall_eq', hf, ok_map,
      ← exists_addEdge_iff links.edges hkeyed]
    constructor
    · rintro ⟨_, edges, hedges, -⟩
      exact ⟨edges, hedges⟩
    · rintro ⟨edges, hedges⟩
      exact ⟨f edges, edges, hedges, rfl⟩

/-- Records are sorted exactly if every flow with a source link has an element with a type. -/
theorem exists_foldlM_iff (hkeyed : ∀ r ∈ records, r.Keyed g) (links : Links) :
    (∃ links', records.foldlM (Links.add g elements) links = .ok links') ↔
      ∀ link ∈ g.linksOf records, g.Typable elements link := by
  induction records generalizing links with
  | nil => exact iff_of_true ⟨links, rfl⟩ fun _ h => nomatch h
  | cons r rest ih =>
    rw [List.forall_mem_cons] at hkeyed
    rw [linksOf_cons, List.forall_mem_append, ← exists_add_iff links hkeyed.1]
    constructor
    · rintro ⟨links', h⟩
      obtain ⟨next, hnext, hrest⟩ := ok_bind.mp h
      exact ⟨⟨next, hnext⟩, (ih hkeyed.2 next).mp ⟨links', hrest⟩⟩
    · rintro ⟨⟨next, hnext⟩, hrest⟩
      obtain ⟨links', hlinks'⟩ := (ih hkeyed.2 next).mpr hrest
      exact ⟨links', ok_bind.mpr ⟨next, hnext, hlinks'⟩⟩

namespace Indexed

theorem none : g.Indexed elements [] .none where
  order := rfl
  edges _ h := nomatch h
  dataObjects := rfl
  directions d := by cases d <;> rfl

theorem add (h : g.Indexed elements ls links) (hls : ∀ link ∈ ls, link.Keyed g) (hr : r.Keyed g)
    (hadd : Links.add g elements links r = .ok links') :
    g.Indexed elements (ls ++ (g.link? r).toList) links' := by
  have hdirections (d : Direction) : d.links links' = (ls ++ (g.link? r).toList).filter (g.joins d) := by
    rw [links_of_add hadd, h.directions, List.filter_append]
  have hdataObjects : links'.dataObjects =
      (ls ++ (g.link? r).toList).filter (·.role.isText Role.dataObject) := by
    rw [dataObjects_of_add hadd, h.dataObjects, List.filter_append]
  rcases link?_of_keyed hr with ⟨hnone, hlink⟩ | ⟨place, hplace, hlink, hkeyed⟩
  · have hsame : links = links' := by
      rw [Links.add, hnone] at hadd
      exact ok_pure.mp hadd
    rw [← hsame, hlink, Option.toList_none, List.append_nil]
    exact h
  · obtain ⟨f, hf, hparts⟩ := add_of_link elements links hplace
    rw [hf, ok_map] at hadd
    obtain ⟨edges, hedges, rfl⟩ := hadd
    obtain ⟨horder, htells⟩ := edges_snoc hls hkeyed h.order h.edges hedges
    rw [hlink, Option.toList_some] at hdirections hdataObjects ⊢
    refine ⟨?_, ?_, hdataObjects, hdirections⟩
    · rw [hparts edges, horder]
    · rw [hparts edges]
      exact htells

/-- What was indexed stays so while records are sorted in. -/
theorem foldlM (h : g.Indexed elements ls links) (hls : ∀ link ∈ ls, link.Keyed g)
    (hkeyed : ∀ r ∈ records, r.Keyed g) (hrun : records.foldlM (Links.add g elements) links = .ok links') :
    g.Indexed elements (ls ++ g.linksOf records) links' := by
  induction records generalizing ls links with
  | nil =>
    obtain rfl := ok_pure.mp hrun
    rwa [linksOf, List.filterMap_nil, List.append_nil]
  | cons r rest ih =>
    have hkeyed' := List.forall_mem_cons.mp hkeyed
    obtain ⟨next, hnext, hrest⟩ := ok_bind.mp hrun
    rw [linksOf_cons, ← List.append_assoc]
    refine ih (h.add hls hkeyed'.1 hnext) ?_ hkeyed'.2 hrest
    rw [List.forall_mem_append]
    refine ⟨hls, fun link hlink => keyed_of_mem_linksOf hkeyed link ?_⟩
    rw [linksOf_cons]
    exact List.mem_append_left _ hlink

theorem nodup (h : g.Indexed elements ls links) : links.edges.Nodup := by
  refine List.Nodup.of_map (·.id) ?_
  rw [h.order]
  exact nodup_flows

theorem mem_edges (h : g.Indexed elements ls links) {e : FlowEdge} :
    e ∈ links.edges ↔ e.id ∈ g.flows ls ∧ g.Tells elements ls e := by
  constructor
  · intro he
    exact ⟨h.order ▸ List.mem_map_of_mem he, h.edges e he⟩
  · rintro ⟨hid, htells⟩
    rw [← h.order] at hid
    obtain ⟨e', he', hsame⟩ := List.mem_map.mp hid
    rwa [htells.unique (h.edges e' he') hsame.symm]

/-- What is indexed under a flow depends only on what is said of that flow. -/
theorem mem_edges_congr (h : g.Indexed elements ls links) (h' : g.Indexed elements ls' links')
    {e : FlowEdge} (hsaid : ∀ role, g.said ls' role e.id = g.said ls role e.id) :
    e ∈ links'.edges ↔ e ∈ links.edges := by
  have hflows : e.id ∈ g.flows ls' ↔ e.id ∈ g.flows ls := by
    simp only [mem_flows_iff_said, hsaid]
  rw [h.mem_edges, h'.mem_edges, hflows]
  refine and_congr_right fun _ => ⟨?_, ?_⟩
  · exact fun htells => htells.of_said fun role => (hsaid role).symm
  · exact fun htells => htells.of_said hsaid

end Indexed

theorem Typable.of_said (h : ∀ link ∈ ls, g.Typable elements link)
    (hsaid : ∀ role flow, g.said ls' role flow = g.said ls role flow) :
    ∀ link ∈ ls', g.Typable elements link := by
  intro link hlink flow hrole hflow
  have hmem : link ∈ g.said ls' Role.source flow :=
    List.mem_filter.mpr ⟨hlink, by simp [hrole, hflow, Value.isText]⟩
  rw [hsaid] at hmem
  exact h link (List.mem_of_mem_filter hmem) flow hrole hflow

/-- Records are sorted into one edge for each flow they speak of, which holds what the last of each role
say.  Records that say the same of every flow give the same edges, and those that say the same of one flow
give it the same edge. -/
theorem indexed_build (elements : Index) (hkeyed : ∀ r ∈ records, r.Keyed g) :
    ((∃ links, (Links.build g elements records).result = .ok links) ↔
      ∀ link ∈ g.linksOf records, g.Typable elements link) ∧
    ∀ links, (Links.build g elements records).result = .ok links →
      (∀ flow, (∃ e ∈ links.edges, e.id = flow) ↔ flow ≠ .null ∧ ∃ link ∈ g.linksOf records,
        (link.role = .str Role.source ∨ link.role = .str Role.target) ∧ link.elementId g = flow ∨
          link.role = .str Role.default ∧ link.id = flow) ∧
      g.Indexed elements (g.linksOf records) links ∧
      ∀ records', (∀ r ∈ records', r.Keyed g) →
        ((∀ role flow, g.said (g.linksOf records') role flow = g.said (g.linksOf records) role flow) →
          ∃ links', (Links.build g elements records').result = .ok links' ∧
            links'.edges.Perm links.edges) ∧
        ∀ links', (Links.build g elements records').result = .ok links' → ∀ flow,
          (∀ role, g.said (g.linksOf records') role flow = g.said (g.linksOf records) role flow) →
          ∀ e, e.id = flow → (e ∈ links'.edges ↔ e ∈ links.edges) := by
  simp only [Links.result_build, Links.ofRecords]
  refine ⟨exists_foldlM_iff hkeyed .none, fun links hlinks => ?_⟩
  have hrun {records : List ReferenceRecord} (hkeyed : ∀ r ∈ records, r.Keyed g) {links : Links}
      (h : records.foldlM (Links.add g elements) .none = .ok links) :
      g.Indexed elements (g.linksOf records) links :=
    Indexed.none.foldlM (fun _ h => nomatch h) hkeyed h
  have hindexed := hrun hkeyed hlinks
  refine ⟨fun flow => ?_, hindexed, fun records' hkeyed' => ⟨fun hsaid => ?_, ?_⟩⟩
  · have hid : (∃ e ∈ links.edges, e.id = flow) ↔ flow ∈ g.flows (g.linksOf records) := by
      rw [← hindexed.order, List.mem_map]
    simp only [hid, mem_flows, flowOf?_eq_some]
    exact ⟨fun ⟨link, hlink, hnull, h⟩ => ⟨hnull, link, hlink, h⟩,
      fun ⟨hnull, link, hlink, h⟩ => ⟨link, hlink, hnull, h⟩⟩
  · obtain ⟨links', hlinks'⟩ := (exists_foldlM_iff hkeyed' .none).mpr
      (.of_said ((exists_foldlM_iff hkeyed .none).mp ⟨links, hlinks⟩) hsaid)
    have hindexed' := hrun hkeyed' hlinks'
    refine ⟨links', hlinks', (List.perm_ext_iff_of_nodup hindexed'.nodup hindexed.nodup).mpr ?_⟩
    exact fun e => hindexed.mem_edges_congr hindexed' fun role => hsaid role e.id
  · rintro links' hlinks' _ hsaid e rfl
    exact hindexed.mem_edges_congr (hrun hkeyed' hlinks') hsaid

def oneFlow : Graph where
  contents := #[.object [("$type", .str "bpmn:SequenceFlow"), ("id", .str "flow")]]

def bothEnds : List ReferenceRecord :=
  [⟨.str Role.source, .str "first", .node 0⟩, ⟨.str Role.target, .str "second", .node 0⟩]

theorem keyed_bothEnds {records : List ReferenceRecord} (h : records.Perm bothEnds) :
    ∀ r ∈ records, r.Keyed oneFlow := by
  intro r hr
  rcases List.mem_pair.mp (h.mem_iff.mp hr) with rfl | rfl
  · exact ⟨rfl, .inr ⟨0, rfl, rfl⟩⟩
  · exact ⟨rfl, .inr ⟨0, rfl, rfl⟩⟩

/-- The two ends of a flow can be told in either order. -/
theorem indexed_bothEnds :
    (∀ r ∈ bothEnds, r.Keyed oneFlow) ∧
    ∃ links, (Links.build oneFlow .empty bothEnds).result = .ok links ∧
      oneFlow.Indexed .empty (oneFlow.linksOf bothEnds) links ∧
      ∃ links', (Links.build oneFlow .empty bothEnds.reverse).result = .ok links' ∧
        links'.edges.Perm links.edges := by
  have hkeyed := keyed_bothEnds (.refl _)
  refine ⟨hkeyed, ?_⟩
  obtain ⟨htypable, hsorted⟩ := indexed_build .empty hkeyed
  obtain ⟨links, hlinks⟩ := htypable.mpr fun link _ flow _ _ h => nomatch h
  obtain ⟨-, hindexed, hothers⟩ := hsorted links hlinks
  refine ⟨links, hlinks, hindexed, (hothers _ (keyed_bothEnds (List.reverse_perm _))).1 ?_⟩
  intro role flow
  have hlinks : oneFlow.linksOf bothEnds =
      [⟨.str Role.source, .str "first", 0⟩, ⟨.str Role.target, .str "second", 0⟩] := rfl
  have hlinks' : oneFlow.linksOf bothEnds.reverse =
      [⟨.str Role.target, .str "second", 0⟩, ⟨.str Role.source, .str "first", 0⟩] := rfl
  rw [hlinks, hlinks']
  by_cases hrole : Role.source = role
  · have hother : Role.target ≠ role := hrole ▸ by decide
    simp [said, Value.isText, List.filter_cons, hrole, hother]
  · simp [said, Value.isText, List.filter_cons, hrole]

end Graph

end Bpmn
