import Bpmn.Proofs.Model.Unbound
import Bpmn.Proofs.Runs
import Bpmn.Resolution.Context

namespace Bpmn

variable {α β : Type}

namespace Pass

/-- A pass never forgets a fault that has been met before.  It meets none itself on some condition, and
makes one value then. -/
structure Makes (p : Pass α) (P : Prop) (a : α) : Prop where
  keeps : ∀ fault, (p.run (some fault)).2 ≠ none
  ends : ∀ b, p.run none = (b, none) ↔ P ∧ b = a

variable {p : Pass α} {P : Prop} {a : α}

theorem Makes.congr {Q : Prop} (h : p.Makes P a) (hPQ : P ↔ Q) : p.Makes Q a := by
  rw [← hPQ]
  exact h

theorem makes_pure (a : α) : (pure a : Pass α).Makes True a where
  keeps fault := Option.some_ne_none fault
  ends b := by
    change ((a, none) : α × Option Fault) = (b, none) ↔ _
    simp [eq_comm]

/-- Two passes in turn; the second is described for every value of the first. -/
theorem Makes.bind {next : α → Pass β} {Q : α → Prop} {g : α → β} (h : p.Makes P a)
    (hnext : ∀ x, (next x).Makes (Q x) (g x)) : (p >>= next).Makes (P ∧ Q a) (g a) where
  keeps fault := by
    obtain ⟨x, fault', hrun⟩ : ∃ x fault', p.run (some fault) = (x, fault') := ⟨_, _, rfl⟩
    have hkept : fault' ≠ none := by
      have hp := h.keeps fault
      rw [hrun] at hp
      exact hp
    have hbind : (p >>= next).run (some fault) = (next x).run fault' := by
      rw [StateT.run_bind, hrun]
      rfl
    obtain ⟨fault', rfl⟩ := Option.ne_none_iff_exists'.mp hkept
    rw [hbind]
    exact (hnext x).keeps fault'
  ends b := by
    obtain ⟨x, fault, hrun⟩ : ∃ x fault, p.run none = (x, fault) := ⟨_, _, rfl⟩
    have hbind : (p >>= next).run none = (next x).run fault := by
      rw [StateT.run_bind, hrun]
      rfl
    have hp := h.ends x
    rw [hbind]
    cases fault with
    | none =>
      obtain ⟨hP, rfl⟩ := hp.mp hrun
      rw [(hnext x).ends b]
      simp [hP]
    | some fault =>
      -- The second pass keeps the fault, so neither side holds.
      constructor
      · intro hb
        exact absurd (congrArg Prod.snd hb) ((hnext x).keeps fault)
      · rintro ⟨⟨hP, -⟩, -⟩
        have hnone := (h.ends a).mpr ⟨hP, rfl⟩
        rw [hrun] at hnone
        cases hnone

/-- A step that is left out after a fault. -/
theorem makes_unlessFailed {unchanged : α} (h : ∀ b, p.run none = (b, none) ↔ P ∧ b = a) :
    (unlessFailed unchanged p).Makes P a where
  keeps fault := Option.some_ne_none fault
  ends b := h b

theorem makes_mapM {f : α → Pass β} {P : α → Prop} {g : α → β} {l : List α}
    (h : ∀ a ∈ l, (f a).Makes (P a) (g a)) : (l.mapM f).Makes (∀ a ∈ l, P a) (l.map g) := by
  induction l with
  | nil => exact (makes_pure []).congr (by simp)
  | cons a rest ih =>
    have hrest := ih fun a ha => h a (by simp [ha])
    have hall := (h a (by simp)).bind fun b => hrest.bind fun bs => makes_pure (b :: bs)
    rw [List.mapM_cons]
    exact hall.congr (by simp)

/-- A pass whose value is put somewhere. -/
theorem Makes.map (h : p.Makes P a) (f : α → β) :
    (do return f (← p) : Pass β).Makes P (f a) :=
  (h.bind fun x => makes_pure (f x)).congr (by simp)

end Pass

section Bundles

variable {f : BehaviourDefinition → Pass Json} {P : BehaviourDefinition → Prop}
  {label : BehaviourDefinition → Json}

theorem mapEach_eq (ds : List BehaviourDefinition) :
    mapEach f ds = ds.mapM (BehaviourDefinition.mapBindings f) := by
  induction ds with
  | nil => rfl
  | cons d rest ih => rw [mapEach, List.mapM_cons, ih]

theorem makes_mapOptional {o : Option BehaviourDefinition}
    (h : ∀ d, o = some d → (d.mapBindings f).Makes (∀ n ∈ d.definitions, P n) (d.relabel label)) :
    (mapOptional f o).Makes (∀ n ∈ ofOptional o, P n)
      (o.map (BehaviourDefinition.relabel label)) := by
  cases o with
  | none => exact (Pass.makes_pure none).congr (by simp [ofOptional])
  | some d => exact (h d rfl).map some

theorem makes_mapOptionalList {o : Option (List BehaviourDefinition)}
    (h : ∀ ds, o = some ds → ∀ d ∈ ds,
      (d.mapBindings f).Makes (∀ n ∈ d.definitions, P n) (d.relabel label)) :
    (mapOptionalList f o).Makes (∀ n ∈ ofOptionalList o, P n)
      (o.map (·.map (BehaviourDefinition.relabel label))) := by
  cases o with
  | none => exact (Pass.makes_pure none).congr (by simp [ofOptionalList])
  | some ds =>
    have hds := Pass.makes_mapM (h ds rfl)
    rw [mapOptionalList, mapEach_eq]
    exact (hds.map some).congr (by simp only [ofOptionalList, ofEach_eq, List.forall_mem_flatMap])

/-- A pass over a bundle ends well if it does so at each definition, and binds each by itself. -/
theorem Behaviour.makes_mapBindings (hf : ∀ d, (f d).Makes (P d) (label d)) (b : Behaviour) :
    (b.mapBindings f).Makes (∀ d ∈ b.definitions, P d) (b.relabel label) := by
  induction b using Behaviour.induction with
  | step b ih =>
    have below (d : BehaviourDefinition) (hd : d ∈ b.nested) :
        (d.mapBindings f).Makes (∀ n ∈ d.definitions, P n) (d.relabel label) := by
      have hbehaviour := ih d hd
      rw [d.definitions_eq, d.relabel_eq]
      obtain ⟨binding, type, behaviour⟩ := d
      -- The definition itself comes first and what is nested in it after.
      have hboth := (hf (.mk binding type behaviour)).bind fun binding =>
        hbehaviour.bind fun behaviour =>
          Pass.makes_pure (BehaviourDefinition.mk binding type behaviour)
      exact hboth.congr (by simp)
    obtain ⟨events, loop, io, attachments, extras⟩ := b
    have hloop := makes_mapOptional fun d h => below d (mem_nested.mpr (.inl h))
    have hevents := makes_mapOptionalList
      fun ds h d hd => below d (mem_nested.mpr (.inr (.inl ⟨ds, h, hd⟩)))
    have hio := makes_mapOptional fun d h => below d (mem_nested.mpr (.inr (.inr h)))
    have hall := hloop.bind fun loop => hevents.bind fun events => hio.bind fun io =>
      Pass.makes_pure (mk events loop io attachments extras)
    rw [mapBindings, relabel_eq]
    exact hall.congr (by simp only [definitions, List.forall_mem_append, and_assoc, and_true,
      loopCharacteristics_mk, eventDefinitions_mk, ioSpecification_mk])

end Bundles

namespace Resolver

variable (r : Resolver)

/-- A type whose behaviour the resolver knows. -/
def Knows (type : Json) : Prop := ∃ behaviour, r.lookup type = .ok behaviour

/-- The behaviour of a known type. -/
def label (type : Json) : Json :=
  match r.lookup type with
  | .ok behaviour => behaviour
  | .error _ => .null

/-- A nested definition has a known type and calls for no service. -/
def Binds (d : BehaviourDefinition) : Prop :=
  r.Knows (.ofText d.type) ∧ callsService (.ofText d.type) d.behaviour = false

/-- A bundle in which each definition has the behaviour of its type. -/
def bound (b : Behaviour) : Behaviour := b.relabel fun d => r.label (.ofText d.type)

theorem makes_bindType (type former : Json) :
    (r.bindType type former).Makes (r.Knows type) (r.label type) := by
  apply Pass.makes_unlessFailed
  intro binding
  rw [Knows, label]
  cases r.lookup type with
  | ok behaviour =>
    change ((behaviour, none) : Json × Option Fault) = (binding, none) ↔ _
    simp [eq_comm]
  | error fault =>
    constructor
    · intro h
      cases h
    · rintro ⟨⟨_, h⟩, -⟩
      cases h

theorem makes_refuseService (model : Model) (type : Json) (b : Behaviour) :
    (refuseService model type b).Makes (callsService type b = false) () := by
  apply Pass.makes_unlessFailed
  intro _
  cases callsService type b with
  | false =>
    change (((), none) : Unit × Option Fault) = ((), none) ↔ _
    simp
  | true =>
    constructor
    · intro h
      cases h
    · rintro ⟨h, -⟩
      cases h

theorem makes_bindNested (d : BehaviourDefinition) :
    (r.bindNested d).Makes (r.Binds d) (r.label (.ofText d.type)) := by
  have h := (r.makes_bindType (.ofText d.type) d.binding).bind fun binding =>
    (makes_refuseService .behaviourDefinition (.ofText d.type) d.behaviour).bind fun _ =>
      Pass.makes_pure binding
  exact h.congr (by simp [Binds])

theorem makes_bindBehaviour (b : Behaviour) :
    (r.bindBehaviour b).Makes (∀ d ∈ b.definitions, r.Binds d) (r.bound b) :=
  b.makes_mapBindings r.makes_bindNested

/-- The type of an entity is known, and each definition in it can be bound. -/
def BindsEntity (e : Entity) : Prop :=
  r.Knows e.type ∧ ∀ d ∈ e.behaviour.definitions, r.Binds d

/-- An entity that has no place for a service calls for none. -/
def BindsPlain (e : Entity) : Prop := r.BindsEntity e ∧ callsService e.type e.behaviour = false

def boundEntity (e : Entity) : Entity :=
  { e with binding := r.label e.type, behaviour := r.bound e.behaviour }

/-- An activity that calls for no service keeps the one it had. -/
def boundActivity (a : Activity) : Activity where
  toEntity := r.boundEntity a.toEntity
  serviceBinding := if callsService a.type a.behaviour then r.service else a.serviceBinding

theorem makes_bindEntity (model : Model) (e : Entity) :
    (r.bindEntity model e).Makes (r.BindsPlain e) (r.boundEntity e) := by
  have h := (r.makes_bindType e.type e.binding).bind fun binding =>
    (makes_refuseService model e.type e.behaviour).bind fun _ =>
      (r.makes_bindBehaviour e.behaviour).map fun behaviour => { e with binding, behaviour }
  refine h.congr ⟨?_, ?_⟩
  · rintro ⟨hknown, hservice, hnested⟩
    exact ⟨⟨hknown, hnested⟩, hservice⟩
  · rintro ⟨⟨hknown, hnested⟩, hservice⟩
    exact ⟨hknown, hservice, hnested⟩

theorem makes_bindActivity (a : Activity) :
    (r.bindActivity a).Makes (r.BindsEntity a.toEntity) (r.boundActivity a) := by
  have hservice : (Pass.unlessFailed a.serviceBinding do
      return if callsService a.type a.behaviour then r.service else a.serviceBinding).Makes True
        (if callsService a.type a.behaviour then r.service else a.serviceBinding) :=
    Pass.makes_unlessFailed (Pass.makes_pure _).ends
  have h := (r.makes_bindType a.type a.binding).bind fun binding =>
    hservice.bind fun serviceBinding =>
      (r.makes_bindBehaviour a.behaviour).map fun behaviour =>
        { a with binding, serviceBinding, behaviour }
  exact h.congr (by simp only [BindsEntity, true_and])

/-- All types in a context are known, and what calls for a service is an activity. -/
structure BindsContext (m : MappedContext) : Prop where
  definition : r.Knows (.ofText m.definition.type)
  processes : ∀ p ∈ m.processes, r.BindsPlain p.toEntity
  activities : ∀ a ∈ m.activities, r.BindsEntity a.toEntity
  dataObjects : ∀ d ∈ m.dataObjects, r.BindsPlain d.toEntity
  messageFlows : ∀ f ∈ m.messageFlows, r.BindsPlain f.toEntity
  sequenceFlows : ∀ f ∈ m.sequenceFlows, r.BindsPlain f.toEntity

/-- A context in which everything has the behaviour of its type. -/
def boundContext (m : MappedContext) : MappedContext :=
  { m with
    definition := { m.definition with binding := r.label (.ofText m.definition.type) }
    processes := m.processes.map fun p => ⟨r.boundEntity p.toEntity⟩
    activities := m.activities.map r.boundActivity
    dataObjects := m.dataObjects.map fun d => { d with toEntity := r.boundEntity d.toEntity }
    messageFlows := m.messageFlows.map fun f => { f with toEntity := r.boundEntity f.toEntity }
    sequenceFlows := m.sequenceFlows.map fun f => { f with toEntity := r.boundEntity f.toEntity } }

theorem makes_bindContext (m : MappedContext) :
    (r.bindContext m).Makes (r.BindsContext m) (r.boundContext m) := by
  have hdefinition := (r.makes_bindType (.ofText m.definition.type) m.definition.binding).map
    fun binding => { m.definition with binding }
  have hprocesses := Pass.makes_mapM (l := m.processes) fun p _ =>
    (r.makes_bindEntity .process p.toEntity).map fun e => { p with toEntity := e }
  have hactivities := Pass.makes_mapM (l := m.activities) fun a _ => r.makes_bindActivity a
  have hobjects := Pass.makes_mapM (l := m.dataObjects) fun d _ =>
    (r.makes_bindEntity .dataObject d.toEntity).map fun e => { d with toEntity := e }
  have hmessages := Pass.makes_mapM (l := m.messageFlows) fun f _ =>
    (r.makes_bindEntity .messageFlow f.toEntity).map fun e => { f with toEntity := e }
  have hsequences := Pass.makes_mapM (l := m.sequenceFlows) fun f _ =>
    (r.makes_bindEntity .sequenceFlow f.toEntity).map fun e => { f with toEntity := e }
  have hall := hdefinition.bind fun definition => hprocesses.bind fun processes =>
    hactivities.bind fun activities => hobjects.bind fun dataObjects =>
      hmessages.bind fun messageFlows => hsequences.map fun sequenceFlows =>
        { m with definition, processes, activities, dataObjects, messageFlows, sequenceFlows }
  refine hall.congr ⟨?_, ?_⟩
  · rintro ⟨hd, hp, ha, ho, hm, hs⟩
    exact ⟨hd, hp, ha, ho, hm, hs⟩
  · rintro ⟨hd, hp, ha, ho, hm, hs⟩
    exact ⟨hd, hp, ha, ho, hm, hs⟩

theorem binds_relabel (f : BehaviourDefinition → Json) (d : BehaviourDefinition) :
    r.Binds (d.relabel f) ↔ r.Binds d := by
  simp [Binds, callsService, Behaviour.hasImplementation_relabel]

theorem bound_unbound (b : Behaviour) : r.bound b.unbound = r.bound b := by
  rw [Behaviour.unbound_eq]
  exact Behaviour.relabel_relabel _ _ (fun d => by rw [BehaviourDefinition.relabel_type]) b

theorem unbound_bound (b : Behaviour) : (r.bound b).unbound = b.unbound := by
  rw [Behaviour.unbound_eq, Behaviour.unbound_eq]
  exact Behaviour.relabel_relabel _ _ (fun _ => rfl) b

theorem callsService_unbound (type : Json) (b : Behaviour) :
    callsService type b.unbound = callsService type b := by
  rw [callsService, callsService, Behaviour.unbound_eq, Behaviour.hasImplementation_relabel]

theorem callsService_bound (type : Json) (b : Behaviour) :
    callsService type (r.bound b) = callsService type b := by
  rw [callsService, callsService, bound, Behaviour.hasImplementation_relabel]

theorem bindsEntity_unbound {e : Entity} (h : r.BindsEntity e) : r.BindsEntity e.unbound := by
  refine ⟨h.1, ?_⟩
  intro d hd
  rw [Entity.unbound, Behaviour.unbound_eq, Behaviour.relabel_definitions] at hd
  obtain ⟨d, hmem, rfl⟩ := List.mem_map.mp hd
  exact (r.binds_relabel _ d).mpr (h.2 d hmem)

theorem bindsPlain_unbound {e : Entity} (h : r.BindsPlain e) : r.BindsPlain e.unbound := by
  refine ⟨r.bindsEntity_unbound h.1, ?_⟩
  rw [Entity.unbound, callsService_unbound]
  exact h.2

/-- Whether a context can be resolved has nothing to do with what is bound in it. -/
theorem bindsContext_unbound {m : MappedContext} (h : r.BindsContext m) : r.BindsContext m.unbound where
  definition := h.definition
  processes := by
    intro p hp
    obtain ⟨p, hmem, rfl⟩ := List.mem_map.mp hp
    exact r.bindsPlain_unbound (h.processes p hmem)
  activities := by
    intro a ha
    obtain ⟨a, hmem, rfl⟩ := List.mem_map.mp ha
    exact r.bindsEntity_unbound (h.activities a hmem)
  dataObjects := by
    intro d hd
    obtain ⟨d, hmem, rfl⟩ := List.mem_map.mp hd
    exact r.bindsPlain_unbound (h.dataObjects d hmem)
  messageFlows := by
    intro f hf
    obtain ⟨f, hmem, rfl⟩ := List.mem_map.mp hf
    exact r.bindsPlain_unbound (h.messageFlows f hmem)
  sequenceFlows := by
    intro f hf
    obtain ⟨f, hmem, rfl⟩ := List.mem_map.mp hf
    exact r.bindsPlain_unbound (h.sequenceFlows f hmem)

theorem boundEntity_unbound (e : Entity) : r.boundEntity e.unbound = r.boundEntity e := by
  rw [boundEntity, boundEntity, Entity.unbound, bound_unbound]

theorem unbound_boundEntity (e : Entity) : (r.boundEntity e).unbound = e.unbound := by
  rw [Entity.unbound, Entity.unbound, boundEntity, unbound_bound]

theorem unbound_boundContext (m : MappedContext) : (r.boundContext m).unbound = m.unbound := by
  simp [MappedContext.unbound_eq, boundContext, boundActivity, unbound_boundEntity,
    Function.comp_def, Process.unbound, Activity.unbound, DataObject.unbound, MessageFlow.unbound,
    SequenceFlow.unbound]

end Resolver

namespace MappedContext

/-- An activity that calls for no service has none. -/
def Unserved (m : MappedContext) : Prop :=
  ∀ a ∈ m.activities, callsService a.type a.behaviour = false → a.serviceBinding = .null

theorem Unserved.boundContext {m : MappedContext} (h : m.Unserved) (r : Resolver) :
    (r.boundContext m).Unserved := by
  intro a ha hcalls
  obtain ⟨a, hmem, rfl⟩ := List.mem_map.mp ha
  have hcalls : callsService a.type a.behaviour = false := by
    rw [← r.callsService_bound]
    exact hcalls
  rw [Resolver.boundActivity, hcalls]
  exact h a hmem hcalls

/-- What is bound in a context goes by its types alone. -/
theorem Unserved.boundContext_unbound {m : MappedContext} (h : m.Unserved) (r : Resolver) :
    r.boundContext m.unbound = r.boundContext m := by
  have hactivity (a : Activity) (ha : a ∈ m.activities) :
      r.boundActivity a.unbound = r.boundActivity a := by
    have hcalls : callsService a.unbound.type a.unbound.behaviour = callsService a.type a.behaviour :=
      Resolver.callsService_unbound a.type a.behaviour
    rw [Resolver.boundActivity, Resolver.boundActivity, hcalls, Activity.unbound,
      Resolver.boundEntity_unbound]
    cases hservice : callsService a.type a.behaviour with
    | true => rfl
    | false => rw [h a ha hservice]
  have hactivities : m.activities.map (fun a => r.boundActivity a.unbound) =
      m.activities.map r.boundActivity := List.map_congr_left hactivity
  simp [unbound_eq, Resolver.boundContext, r.boundEntity_unbound, Function.comp_def,
    Process.unbound, DataObject.unbound, MessageFlow.unbound, SequenceFlow.unbound, hactivities]

/-- A resolution succeeds if all types are known, and binds everything by its type. -/
theorem resolved_eq_ok {m m' : MappedContext} {r : Resolver} :
    (m.resolved (some r)).result = .ok m' ↔ r.BindsContext m ∧ m' = r.boundContext m := by
  obtain ⟨bound, fault, hrun⟩ : ∃ bound fault, (r.bindContext m).run none = (bound, fault) :=
    ⟨_, _, rfl⟩
  have hends := (r.makes_bindContext m).ends m'
  have hresult : (m.resolved (some r)).result =
      (Resolution.settle m bound fault).outcome.result >>= fun _ =>
        .ok (Resolution.settle m bound fault).context := by
    rw [resolved, Traced.result_bind]
    change ((m.resolve (some r)).outcome.result >>= fun _ => .ok (m.resolve (some r)).context) = _
    rw [resolve, Resolution.pass, hrun]
    rfl
  rw [← hends, hresult, hrun]
  cases fault with
  | none =>
    constructor
    · intro h
      obtain rfl := Except.ok.inj h
      rfl
    · intro h
      obtain ⟨rfl, -⟩ := Prod.mk.inj h
      rfl
  | some fault =>
    have hfault : (Resolution.settle m bound (some fault)).outcome.result = .error fault := by
      cases fault <;> rfl
    rw [hfault]
    constructor
    · intro h
      cases h
    · intro h
      cases h

/-- A context is built if it is mapped and then resolved. -/
theorem build_eq_ok {g : Graph} {document : Value} {extension : Option Extension} {m : MappedContext}
    {r : Resolver} : (build g document (some r) extension).result = .ok m ↔
      ∃ mapped diary, (ofDocument g document extension).result = .ok (mapped, diary) ∧
        (mapped.resolved (some r)).result = .ok m := by
  rw [build, Traced.result_bind, ok_bind]
  exact Prod.exists

/-- A context is restored if its snapshot is accepted and then resolved. -/
theorem restore_eq_ok {release : Release} {s : Snapshot} {m : MappedContext} {r : Resolver} :
    (restore release s (some r)).result = .ok m ↔
      ∃ given, s.check release = .valid given ∧ (given.resolved (some r)).result = .ok m := by
  rw [restore, Traced.result_bind, ok_bind, ofSnapshot]
  cases s.check release with
  | valid given => simp [Traced.result_pure]
  | invalid issues => simp

end MappedContext

end Bpmn
