import Bpmn.Proofs.Resolution.Bound
import Bpmn.Proofs.Resolution.Frame

namespace Bpmn

variable {α β : Type}

/-- What is bound in a context: its definition, an entity or a nested definition. -/
structure Site where
  model : Model
  type : Json
  behaviour : Behaviour
  binding : Json

namespace Site

/-- The definition of a document has no bundle. -/
def ofRoot (d : Definition) : Site := ⟨.definition, .ofText d.type, .empty, d.binding⟩

def ofNested (d : BehaviourDefinition) : Site :=
  ⟨.behaviourDefinition, .ofText d.type, d.behaviour, d.binding⟩

/-- An entity and then what is nested in it. -/
def ofEntity (model : Model) (e : Entity) : List Site :=
  ⟨model, e.type, e.behaviour, e.binding⟩ :: e.behaviour.definitions.map ofNested

/-- Only activities have a place for the service they call for. -/
def IsRefused (s : Site) : Prop := s.model ≠ .activity ∧ callsService s.type s.behaviour = true

instance (s : Site) : Decidable s.IsRefused := inferInstanceAs (Decidable (_ ∧ _))

end Site

/-- The sites of a context in the order in which they are resolved. -/
def MappedContext.sites (m : MappedContext) : List Site :=
  .ofRoot m.definition ::
    (m.processes.flatMap (fun p => Site.ofEntity .process p.toEntity) ++
      m.activities.flatMap (fun a => Site.ofEntity .activity a.toEntity) ++
      m.dataObjects.flatMap (fun d => Site.ofEntity .dataObject d.toEntity) ++
      m.messageFlows.flatMap (fun f => Site.ofEntity .messageFlow f.toEntity) ++
      m.sequenceFlows.flatMap (fun f => Site.ofEntity .sequenceFlow f.toEntity))

section Lists

variable {f : α → Option β}

theorem findSome?_cons_or (a : α) (l : List α) :
    (a :: l).findSome? f = (f a).or (l.findSome? f) := by
  rw [List.findSome?_cons]
  cases f a <;> rfl

theorem findSome?_flatMap {γ : Type} (g : γ → List α) (l : List γ) :
    (l.flatMap g).findSome? f = l.findSome? fun c => (g c).findSome? f := by
  induction l with
  | nil => rfl
  | cons c rest ih => rw [List.flatMap_cons, List.findSome?_append, findSome?_cons_or, ih]

end Lists

namespace Pass

/-- A pass ends with the fault it comes with, or else with one of its own if it meets any. -/
def Reports (p : Pass α) (fault : Option Fault) : Prop :=
  ∀ former, (p.run former).2 = former.or fault

variable {p : Pass α} {fault fault' : Option Fault}

theorem reports_pure (a : α) : (pure a : Pass α).Reports none := by
  intro former
  cases former <;> rfl

theorem Reports.bind {next : α → Pass β} (h : p.Reports fault)
    (hnext : ∀ a, (next a).Reports fault') : (p >>= next).Reports (fault.or fault') := by
  intro former
  have hrun : ((p >>= next).run former).2 = ((next (p.run former).1).run (p.run former).2).2 := rfl
  rw [hrun, hnext, h, Option.or_assoc]

theorem Reports.map (h : p.Reports fault) (f : α → β) : (do return f (← p) : Pass β).Reports fault := by
  have hboth := h.bind fun a => reports_pure (f a)
  rw [Option.or_none] at hboth
  exact hboth

theorem reports_unlessFailed {unchanged : α} (h : (p.run none).2 = fault) :
    (unlessFailed unchanged p).Reports fault := by
  intro former
  cases former with
  | none => exact h
  | some _ => rfl

theorem reports_mapM {f : α → Pass β} {g : α → Option Fault} (h : ∀ a, (f a).Reports (g a))
    (l : List α) : (l.mapM f).Reports (l.findSome? g) := by
  induction l with
  | nil => exact reports_pure []
  | cons a rest ih =>
    rw [List.mapM_cons, findSome?_cons_or]
    exact (h a).bind fun b => ih.map (b :: ·)

end Pass

/-- A pass over a bundle meets the definitions in the order of their list. -/
theorem Behaviour.state_mapBindings {σ : Type} (f : BehaviourDefinition → StateM σ Json)
    (b : Behaviour) (s : σ) : ((b.mapBindings f).run s).2 = ((b.definitions.mapM f).run s).2 := by
  induction b using Behaviour.induction generalizing s with
  | step b ih =>
    -- A pass over a nested definition meets it first and then what is in it.
    have below (d : BehaviourDefinition) (hd : d ∈ b.nested) (s : σ) :
        ((d.mapBindings f).run s).2 = ((d.definitions.mapM f).run s).2 := by
      rw [BehaviourDefinition.run_mapBindings, ih d hd, BehaviourDefinition.definitions_eq,
        List.mapM_cons]
      rfl
    have append (ds ds' : List BehaviourDefinition) (s : σ) :
        (((ds ++ ds').mapM f).run s).2 = ((ds'.mapM f).run ((ds.mapM f).run s).2).2 := by
      rw [List.mapM_append]
      rfl
    have single (o : Option BehaviourDefinition) (h : ∀ d, o = some d → d ∈ b.nested) (s : σ) :
        ((mapOptional f o).run s).2 = (((ofOptional o).mapM f).run s).2 := by
      cases o with
      | none => rfl
      | some d => exact below d (h d rfl) s
    have items (ds : List BehaviourDefinition) (h : ∀ d ∈ ds, d ∈ b.nested) (s : σ) :
        ((mapEach f ds).run s).2 = (((ofEach ds).mapM f).run s).2 := by
      induction ds generalizing s with
      | nil => rfl
      | cons d rest ih =>
        have hrest := ih (fun d hd => h d (by simp [hd])) ((d.mapBindings f).run s).2
        rw [ofEach, append, ← below d (h d (by simp)) s]
        exact hrest
    have several (o : Option (List BehaviourDefinition))
        (h : ∀ ds, o = some ds → ∀ d ∈ ds, d ∈ b.nested) (s : σ) :
        ((mapOptionalList f o).run s).2 = (((ofOptionalList o).mapM f).run s).2 := by
      cases o with
      | none => rfl
      | some ds => exact items ds (h ds rfl) s
    obtain ⟨events, loop, io, attachments, extras⟩ := b
    rw [run_mapBindings, definitions, append, append]
    dsimp only [eventDefinitions_mk, loopCharacteristics_mk, ioSpecification_mk]
    rw [single io fun d h => mem_nested.mpr (.inr (.inr h)),
      several events fun ds h d hd => mem_nested.mpr (.inr (.inl ⟨ds, h, hd⟩)),
      single loop fun d h => mem_nested.mpr (.inl h)]

namespace Resolver

variable (r : Resolver)

/-- Why a type cannot be bound. -/
def typeFault? (type : Json) : Option Fault :=
  match r.lookup type with
  | .ok _ => none
  | .error fault => some fault

/-- Why a site cannot be bound: its type is looked up before a service is called for. -/
def fault? (s : Site) : Option Fault :=
  (r.typeFault? s.type).or (if s.IsRefused then some (.noField s.model "service_binding") else none)

theorem typeFault?_eq_none {type : Json} : r.typeFault? type = none ↔ r.Knows type := by
  rw [typeFault?, Knows]
  cases r.lookup type <;> simp

theorem fault?_eq_none {s : Site} : r.fault? s = none ↔ r.Knows s.type ∧ ¬ s.IsRefused := by
  rw [fault?, Option.or_eq_none_iff, typeFault?_eq_none]
  simp

theorem fault?_of_served {s : Site} (h : ¬ s.IsRefused) : r.fault? s = r.typeFault? s.type := by
  rw [fault?, if_neg h, Option.or_none]

theorem reports_bindType (type former : Json) :
    (r.bindType type former).Reports (r.typeFault? type) := by
  apply Pass.reports_unlessFailed
  rw [typeFault?]
  cases r.lookup type <;> rfl

theorem reports_refuseService (model : Model) (type : Json) (b : Behaviour) :
    (refuseService model type b).Reports
      (if callsService type b then some (.noField model "service_binding") else none) := by
  apply Pass.reports_unlessFailed
  cases callsService type b <;> rfl

theorem reports_refusing (former : Json) {s : Site} (h : s.model ≠ .activity) {next : Json → Pass α}
    {fault : Option Fault} (hnext : ∀ binding, (next binding).Reports fault) :
    (do
      let binding ← r.bindType s.type former
      refuseService s.model s.type s.behaviour
      next binding : Pass α).Reports ((r.fault? s).or fault) := by
  have hrefused : s.IsRefused ↔ callsService s.type s.behaviour = true := by simp [Site.IsRefused, h]
  rw [fault?, Option.or_assoc]
  simp only [hrefused]
  exact (r.reports_bindType s.type former).bind fun binding =>
    (reports_refuseService s.model s.type s.behaviour).bind fun _ => hnext binding

theorem reports_bindNested (d : BehaviourDefinition) :
    (r.bindNested d).Reports (r.fault? (.ofNested d)) := by
  have h := r.reports_refusing d.binding (s := .ofNested d) nofun Pass.reports_pure
  rw [Option.or_none] at h
  exact h

theorem reports_bindBehaviour (b : Behaviour) :
    (r.bindBehaviour b).Reports ((b.definitions.map Site.ofNested).findSome? r.fault?) := by
  intro former
  rw [bindBehaviour, Behaviour.state_mapBindings, List.findSome?_map]
  exact Pass.reports_mapM r.reports_bindNested b.definitions former

theorem reports_bindEntity (model : Model) (h : model ≠ .activity) (e : Entity) :
    (r.bindEntity model e).Reports ((Site.ofEntity model e).findSome? r.fault?) := by
  rw [Site.ofEntity, findSome?_cons_or]
  exact r.reports_refusing e.binding (s := ⟨model, e.type, e.behaviour, e.binding⟩) h fun binding =>
    (r.reports_bindBehaviour e.behaviour).map fun behaviour => { e with binding, behaviour }

theorem reports_bindActivity (a : Activity) :
    (r.bindActivity a).Reports ((Site.ofEntity .activity a.toEntity).findSome? r.fault?) := by
  have hservice : (Pass.unlessFailed a.serviceBinding do
      return if callsService a.type a.behaviour then r.service else a.serviceBinding).Reports none :=
    Pass.reports_unlessFailed rfl
  rw [Site.ofEntity, findSome?_cons_or, r.fault?_of_served fun h => h.1 rfl]
  exact (r.reports_bindType a.type a.binding).bind fun binding =>
    hservice.bind fun serviceBinding =>
      (r.reports_bindBehaviour a.behaviour).map fun behaviour =>
        { a with binding, serviceBinding, behaviour }

theorem not_isRefused_ofRoot (d : Definition) : ¬ (Site.ofRoot d).IsRefused := by
  rintro ⟨-, hcalls⟩
  -- A definition has no bundle, so it calls for no service.
  have hnone : Behaviour.empty.hasImplementation = false := rfl
  rw [callsService, Site.ofRoot, hnone, Bool.and_false] at hcalls
  cases hcalls

theorem reports_bindContext (m : MappedContext) :
    (r.bindContext m).Reports (m.sites.findSome? r.fault?) := by
  have hdefinition := (r.reports_bindType (.ofText m.definition.type) m.definition.binding).map
    fun binding => { m.definition with binding }
  have hprocesses := Pass.reports_mapM (fun p : Process =>
    (r.reports_bindEntity .process (by decide) p.toEntity).map
      fun e => { p with toEntity := e }) m.processes
  have hactivities := Pass.reports_mapM r.reports_bindActivity m.activities
  have hobjects := Pass.reports_mapM (fun d : DataObject =>
    (r.reports_bindEntity .dataObject (by decide) d.toEntity).map
      fun e => { d with toEntity := e }) m.dataObjects
  have hmessages := Pass.reports_mapM (fun f : MessageFlow =>
    (r.reports_bindEntity .messageFlow (by decide) f.toEntity).map
      fun e => { f with toEntity := e }) m.messageFlows
  have hsequences := Pass.reports_mapM (fun f : SequenceFlow =>
    (r.reports_bindEntity .sequenceFlow (by decide) f.toEntity).map
      fun e => { f with toEntity := e }) m.sequenceFlows
  -- The lists follow the definition in the order of the sites.
  have hall := hdefinition.bind fun definition => hprocesses.bind fun processes =>
    hactivities.bind fun activities => hobjects.bind fun dataObjects =>
      hmessages.bind fun messageFlows => hsequences.map fun sequenceFlows =>
        { m with definition, processes, activities, dataObjects, messageFlows, sequenceFlows }
  rw [MappedContext.sites, findSome?_cons_or, r.fault?_of_served (not_isRefused_ofRoot m.definition)]
  simp only [List.findSome?_append, findSome?_flatMap, Option.or_assoc]
  exact hall

theorem ne_null_of_nonNull? {entry : Option Json} {behaviour : Json}
    (h : entry.bind Json.nonNull? = some behaviour) : behaviour ≠ .null := by
  obtain ⟨j, -, hj⟩ := Option.bind_eq_some_iff.mp h
  rintro rfl
  cases j <;> cases hj

/-- A type has a behaviour or is unknown, unless it is neither a text nor null. -/
theorem lookup_cases (type : Json) :
    (∃ behaviour, r.lookup type = .ok behaviour ∧ behaviour ≠ .null) ∨
      r.lookup type = .error (.unknownType type) ∨
      (∀ text, type ≠ .ofText text) ∧
        (r.lookup type = .error .notAKey ∨ r.lookup type = .error .notAnObject) := by
  unfold lookup
  split
  · exact .inr (.inl rfl)
  next htruthy =>
  split
  · next hkey =>
    refine .inr (.inr ⟨?_, .inl rfl⟩)
    rintro (_ | text) rfl <;> cases hkey
  split
  · next hregistry => exact .inl ⟨_, rfl, ne_null_of_nonNull? hregistry⟩
  · split
    · next hknown =>
      obtain ⟨flat, -, hflat⟩ := Option.bind_eq_some_iff.mp hknown
      exact .inl ⟨_, rfl, ne_null_of_nonNull? hflat⟩
    · exact .inr (.inl rfl)
  · next hother _ _ =>
    refine .inr (.inr ⟨?_, .inr rfl⟩)
    rintro (_ | text) rfl
    · exact htruthy rfl
    · exact hother text rfl

theorem lookup_ne_null {type behaviour : Json} (h : r.lookup type = .ok behaviour) :
    behaviour ≠ .null := by
  rcases r.lookup_cases type with ⟨known, hknown, hne⟩ | hunknown | ⟨-, hother | hother⟩
  · obtain rfl := Except.ok.inj (h.symm.trans hknown)
    exact hne
  · cases h.symm.trans hunknown
  · cases h.symm.trans hother
  · cases h.symm.trans hother

theorem typeFault?_eq_unknownType {type other : Json}
    (h : r.typeFault? type = some (.unknownType other)) :
    type = other ∧ r.lookup type = .error (.unknownType type) := by
  rw [typeFault?] at h
  rcases r.lookup_cases type with ⟨known, hlookup, -⟩ | hlookup | ⟨-, hlookup | hlookup⟩
  · rw [hlookup] at h
    cases h
  · rw [hlookup] at h
    exact ⟨Fault.unknownType.inj (Option.some.inj h), hlookup⟩
  · rw [hlookup] at h
    cases h
  · rw [hlookup] at h
    cases h

theorem fault?_eq_unknownType {s : Site} {type : Json} (h : r.fault? s = some (.unknownType type)) :
    s.type = type ∧ r.lookup type = .error (.unknownType type) := by
  rcases Option.or_eq_some_iff.mp h with htype | ⟨-, hservice⟩
  · obtain ⟨rfl, hlookup⟩ := r.typeFault?_eq_unknownType htype
    exact ⟨rfl, hlookup⟩
  · split at hservice
    · cases hservice
    · cases hservice

theorem lookup_eq_label {type : Json} (h : r.Knows type) : r.lookup type = .ok (r.label type) := by
  obtain ⟨behaviour, h⟩ := h
  rw [label, h]

def boundSite (s : Site) : Site :=
  { s with behaviour := r.bound s.behaviour, binding := r.label s.type }

theorem ofEntity_boundEntity (model : Model) (e : Entity) :
    Site.ofEntity model (r.boundEntity e) = (Site.ofEntity model e).map r.boundSite := by
  have hnested (d : BehaviourDefinition) :
      Site.ofNested (d.relabel fun d => r.label (.ofText d.type)) = r.boundSite (.ofNested d) := by
    simp [Site.ofNested, boundSite, bound]
  simp [Site.ofEntity, boundEntity, boundSite, bound, Behaviour.relabel_definitions, hnested]

theorem sites_boundContext (m : MappedContext) :
    (r.boundContext m).sites = m.sites.map r.boundSite := by
  have hroot : Site.ofRoot (r.boundContext m).definition = r.boundSite (.ofRoot m.definition) := rfl
  simp only [MappedContext.sites, hroot, List.map_cons, List.map_append, List.map_flatMap,
    ← ofEntity_boundEntity]
  simp only [boundContext, boundActivity, List.flatMap_map]

end Resolver

namespace MappedContext

variable (m : MappedContext) (r : Resolver)

/-- A resolution fails with the fault of the first site that has one. -/
theorem result_resolve : (m.resolve (some r)).outcome.result =
    match m.sites.findSome? r.fault? with
    | none => .ok ()
    | some fault => .error fault := by
  obtain ⟨bound, fault, hrun⟩ : ∃ bound fault, (r.bindContext m).run none = (bound, fault) :=
    ⟨_, _, rfl⟩
  have hfault := r.reports_bindContext m none
  rw [hrun, Option.none_or] at hfault
  rw [← hfault, resolve, Resolution.pass, hrun]
  cases fault with
  | none => rfl
  | some fault => cases fault <;> rfl

theorem result_resolve_eq_ok :
    (m.resolve (some r)).outcome.result = .ok () ↔ ∀ s ∈ m.sites, r.fault? s = none := by
  rw [m.result_resolve r, ← List.findSome?_eq_none_iff]
  cases m.sites.findSome? r.fault? <;> simp

theorem result_resolve_eq_error {fault : Fault} :
    (m.resolve (some r)).outcome.result = .error fault ↔
      ∃ before s after, m.sites = before ++ s :: after ∧ r.fault? s = some fault ∧
        ∀ t ∈ before, r.fault? t = none := by
  rw [m.result_resolve r, ← List.findSome?_eq_some_iff]
  cases m.sites.findSome? r.fault? <;> simp

/-- A resolution that succeeds binds everything by its type. -/
theorem context_of_resolve (h : (m.resolve (some r)).outcome.result = .ok ()) :
    (m.resolve (some r)).context = r.boundContext m := by
  have hresolved : (m.resolved (some r)).result = .ok (m.resolve (some r)).context := by
    rw [resolved, Traced.result_bind, h]
    rfl
  exact (resolved_eq_ok.mp hresolved).2

/-- A resolution that succeeds binds every site to the behaviour of its type and changes nothing but
bindings.  One that fails at an unknown type fails at the first type that has no behaviour. -/
theorem bound_or_first_unknown :
    ((m.resolve (some r)).outcome.result = .ok () →
      (∀ s ∈ (m.resolve (some r)).context.sites,
        r.lookup s.type = .ok s.binding ∧ s.binding ≠ .null) ∧
      (m.resolve (some r)).context.unbound = m.unbound ∧
      ∀ release, (m.resolve (some r)).context.snapshot release = m.snapshot release ∧
        ∀ indent, (m.resolve (some r)).context.serialize release indent = m.serialize release indent) ∧
    ∀ type, (m.resolve (some r)).outcome.result = .error (.unknownType type) →
      ∃ before s after, m.sites = before ++ s :: after ∧ s.type = type ∧
        r.lookup type = .error (.unknownType type) ∧ ∀ t ∈ before, r.Knows t.type := by
  constructor
  · intro hresult
    have hunbound := m.unbound_resolve (some r)
    refine ⟨?_, hunbound, ?_⟩
    · rw [m.context_of_resolve r hresult, r.sites_boundContext]
      intro s hs
      obtain ⟨s, hmem, rfl⟩ := List.mem_map.mp hs
      have hfault := (m.result_resolve_eq_ok r).mp hresult s hmem
      have hlookup := r.lookup_eq_label (r.fault?_eq_none.mp hfault).1
      exact ⟨hlookup, r.lookup_ne_null hlookup⟩
    · intro release
      have hsnapshot : (m.resolve (some r)).context.snapshot release = m.snapshot release := by
        rw [snapshot, toJson_eq_of_unbound hunbound, snapshot]
      refine ⟨hsnapshot, ?_⟩
      intro indent
      rw [serialize, hsnapshot, serialize]
  · intro type hresult
    obtain ⟨before, s, after, hsites, hfault, hbefore⟩ := (m.result_resolve_eq_error r).mp hresult
    obtain ⟨htype, hlookup⟩ := r.fault?_eq_unknownType hfault
    refine ⟨before, s, after, hsites, htype, hlookup, ?_⟩
    intro t ht
    exact (r.fault?_eq_none.mp (hbefore t ht)).1

/-- A task with an event, both bound before.  One resolver knows the type of the event, the other does
not. -/
theorem bound_or_first_unknown_nested :
    let event : BehaviourDefinition := .mk (.str "old") (some "bpmn:Event") .empty
    let task : Activity :=
      ⟨⟨.str "old", some "t", .str "bpmn:Task", none, .unknown,
        .mk (some [event]) none none .none []⟩, .str "old"⟩
    let definition : Definition := ⟨.null, none, some "bpmn:Definitions", none, none, none, none⟩
    let m : MappedContext := ⟨none, none, none, definition, [task], [], [], [], [], []⟩
    let known := Resolver.ofTypes [("Definition", .str "D"), ("Task", .str "T"), ("Event", .str "E")]
    let unknown := Resolver.ofTypes [("Definition", .str "D"), ("Task", .str "T")]
    ((m.resolve (some known)).outcome.result = .ok () ∧
      (∀ s ∈ (m.resolve (some known)).context.sites,
        known.lookup s.type = .ok s.binding ∧ s.binding ≠ .null) ∧
      (m.resolve (some known)).context.snapshot .keeping = m.snapshot .keeping) ∧
    (m.resolve (some unknown)).outcome.result = .error (.unknownType (.str "bpmn:Event")) ∧
      ∃ before s after, m.sites = before ++ s :: after ∧ s.type = .str "bpmn:Event" ∧
        unknown.lookup (.str "bpmn:Event") = .error (.unknownType (.str "bpmn:Event")) ∧
        ∀ t ∈ before, unknown.Knows t.type := by
  intro event task definition m known unknown
  obtain ⟨hbound, -, hsnapshot⟩ := (bound_or_first_unknown m known).1 (by rfl)
  exact ⟨⟨by rfl, hbound, (hsnapshot .keeping).1⟩, by rfl,
    (bound_or_first_unknown m unknown).2 (.str "bpmn:Event") (by rfl)⟩

end MappedContext

end Bpmn
