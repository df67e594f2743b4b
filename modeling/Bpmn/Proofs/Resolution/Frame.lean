import Bpmn.Proofs.Model.Unbound
import Bpmn.Resolution.Context

namespace Bpmn

section Lists

variable {σ α β : Type}

/-- A pass over a list keeps what each of its steps keeps. -/
theorem mapM_frame (key : α → β) {f : α → StateM σ α} (h : ∀ a s, key ((f a).run s).1 = key a)
    (l : List α) (s : σ) : ((l.mapM f).run s).1.map key = l.map key := by
  induction l generalizing s with
  | nil => rfl
  | cons a rest ih =>
    rw [List.mapM_cons, List.map_cons, ← ih ((f a).run s).2, ← h a s]
    rfl

end Lists

section Bundles

variable {σ : Type} (f : BehaviourDefinition → StateM σ Json)

theorem BehaviourDefinition.run_mapBindings (d : BehaviourDefinition) (s : σ) :
    (d.mapBindings f).run s =
      (mk ((f d).run s).1 d.type ((d.behaviour.mapBindings f).run ((f d).run s).2).1,
        ((d.behaviour.mapBindings f).run ((f d).run s).2).2) := by
  obtain ⟨binding, type, behaviour⟩ := d
  rfl

theorem Behaviour.run_mapBindings (b : Behaviour) (s : σ) :
    (b.mapBindings f).run s =
      let loop := (mapOptional f b.loopCharacteristics).run s
      let events := (mapOptionalList f b.eventDefinitions).run loop.2
      let io := (mapOptional f b.ioSpecification).run events.2
      (mk events.1 loop.1 io.1 b.attachments b.extras, io.2) := by
  obtain ⟨events, loop, io, attachments, extras⟩ := b
  rfl

/-- New bindings are all that a pass over a bundle writes. -/
theorem Behaviour.unbound_mapBindings (b : Behaviour) (s : σ) :
    ((b.mapBindings f).run s).1.unbound = b.unbound := by
  induction b using Behaviour.induction generalizing s with
  | step b ih =>
    have below (d : BehaviourDefinition) (hd : d ∈ b.nested) (s : σ) :
        ((d.mapBindings f).run s).1.relabel (fun _ => .null) = d.relabel fun _ => .null := by
      rw [BehaviourDefinition.run_mapBindings, BehaviourDefinition.relabel_eq,
        BehaviourDefinition.relabel_eq]
      congr 1
      exact (unbound_eq _).symm.trans ((ih d hd _).trans (unbound_eq _))
    have single (o : Option BehaviourDefinition) (h : ∀ d, o = some d → d ∈ b.nested) (s : σ) :
        ((mapOptional f o).run s).1.map (BehaviourDefinition.relabel fun _ => .null) =
          o.map (BehaviourDefinition.relabel fun _ => .null) := by
      cases o with
      | none => rfl
      | some d => exact congrArg some (below d (h d rfl) s)
    have items (ds : List BehaviourDefinition) (h : ∀ d ∈ ds, d ∈ b.nested) (s : σ) :
        ((mapEach f ds).run s).1.map (BehaviourDefinition.relabel fun _ => .null) =
          ds.map (BehaviourDefinition.relabel fun _ => .null) := by
      induction ds generalizing s with
      | nil => rfl
      | cons d rest ih =>
        have hd := below d (h d (by simp)) s
        have hr := ih (fun d hd => h d (by simp [hd])) ((d.mapBindings f).run s).2
        exact congrArg₂ List.cons hd hr
    have several (o : Option (List BehaviourDefinition))
        (h : ∀ ds, o = some ds → ∀ d ∈ ds, d ∈ b.nested) (s : σ) :
        ((mapOptionalList f o).run s).1.map (·.map (BehaviourDefinition.relabel fun _ => .null)) =
          o.map (·.map (BehaviourDefinition.relabel fun _ => .null)) := by
      cases o with
      | none => rfl
      | some ds => exact congrArg some (items ds (h ds rfl) s)
    simp only [unbound_eq, relabel_eq, run_mapBindings, eventDefinitions_mk,
      loopCharacteristics_mk, ioSpecification_mk, attachments_mk, extras_mk]
    rw [several _ fun ds h d hd => mem_nested.mpr (.inr (.inl ⟨ds, h, hd⟩)),
      single _ fun d h => mem_nested.mpr (.inl h),
      single _ fun d h => mem_nested.mpr (.inr (.inr h))]

end Bundles

namespace Resolver

variable (r : Resolver) (s : Option Fault)

theorem unbound_bindEntity (model : Model) (e : Entity) :
    ((r.bindEntity model e).run s).1.unbound = e.unbound :=
  congrArg (Entity.mk .null e.id e.type e.name e.parent)
    (e.behaviour.unbound_mapBindings r.bindNested _)

theorem unbound_bindActivity (a : Activity) : ((r.bindActivity a).run s).1.unbound = a.unbound :=
  congrArg (fun b => Activity.mk (Entity.mk .null a.id a.type a.name a.parent b) .null)
    (a.behaviour.unbound_mapBindings r.bindNested _)

theorem unbound_bindProcess (p : Process) : ((r.bindProcess p).run s).1.unbound = p.unbound :=
  congrArg Process.mk (r.unbound_bindEntity s .process p.toEntity)

theorem unbound_bindDataObject (d : DataObject) :
    ((r.bindDataObject d).run s).1.unbound = d.unbound :=
  congrArg (DataObject.mk · d.references) (r.unbound_bindEntity s .dataObject d.toEntity)

theorem unbound_bindMessageFlow (f : MessageFlow) :
    ((r.bindMessageFlow f).run s).1.unbound = f.unbound :=
  congrArg (MessageFlow.mk · f.source f.target) (r.unbound_bindEntity s .messageFlow f.toEntity)

theorem unbound_bindSequenceFlow (f : SequenceFlow) :
    ((r.bindSequenceFlow f).run s).1.unbound = f.unbound :=
  congrArg (SequenceFlow.mk · f.sourceId f.targetId f.isDefault)
    (r.unbound_bindEntity s .sequenceFlow f.toEntity)

/-- A pass over a context writes bindings and nothing else. -/
theorem unbound_bindContext (m : MappedContext) :
    ((r.bindContext m).run s).1.unbound = m.unbound := by
  simp only [MappedContext.unbound_eq, MappedContext.mk.injEq]
  refine ⟨rfl, rfl, rfl, rfl, ?_, ?_, ?_, ?_, ?_, rfl⟩
  · exact mapM_frame _ (fun a s => r.unbound_bindActivity s a) m.activities _
  · exact mapM_frame _ (fun d s => r.unbound_bindDataObject s d) m.dataObjects _
  · exact mapM_frame _ (fun f s => r.unbound_bindMessageFlow s f) m.messageFlows _
  · exact mapM_frame _ (fun p s => r.unbound_bindProcess s p) m.processes _
  · exact mapM_frame _ (fun f s => r.unbound_bindSequenceFlow s f) m.sequenceFlows _

end Resolver

namespace MappedContext

/-- However a resolution ends, it changes bindings only. -/
theorem unbound_resolve (m : MappedContext) (r : Option Resolver) :
    (m.resolve r).context.unbound = m.unbound := by
  cases r with
  | none => rfl
  | some r =>
    have hbound := r.unbound_bindContext none m
    obtain ⟨bound, fault, hrun⟩ : ∃ bound fault, (r.bindContext m).run none = (bound, fault) :=
      ⟨_, _, rfl⟩
    rw [hrun] at hbound
    have hcontext : (m.resolve (some r)).context = (Resolution.settle m bound fault).context := by
      rw [resolve, Resolution.pass, hrun]
    rw [hcontext, ← hbound]
    cases fault with
    | none => rfl
    | some fault =>
      cases fault with
      | unknownType type => exact bound.unbound_unbound
      | _ => rfl

theorem settle_unknownType {m bound : MappedContext} {fault : Option Fault} {type : Json}
    (h : (Resolution.settle m bound fault).outcome.result = .error (.unknownType type)) :
    (Resolution.settle m bound fault).context = bound.unbound := by
  cases fault with
  | none => cases h
  | some fault =>
    cases fault with
    | unknownType type' => rfl
    | _ => cases h

/-- When the type of anything in a context is unknown, the resolution leaves a context with nothing
bound in it, whatever had been bound before or on the way, and nothing else of it has changed. -/
theorem resolve_unknownType (m : MappedContext) (r : Resolver) (type : Json)
    (h : (m.resolve (some r)).outcome.result = .error (.unknownType type)) :
    (m.resolve (some r)).context.IsUnbound ∧
    (m.resolve (some r)).context.unbound = m.unbound ∧
    (m.resolve (some r)).context.toJson = m.toJson ∧
    ∀ release, (m.resolve (some r)).context.snapshot release = m.snapshot release := by
  have left : (m.resolve (some r)).context = m.unbound := by
    rw [← r.unbound_bindContext none m]
    exact settle_unknownType h
  rw [left]
  exact ⟨m.isUnbound_unbound, m.unbound_unbound, m.toJson_unbound, m.snapshot_unbound⟩

/-- The type of an event in a task is unknown; both had been bound before. -/
theorem resolve_unknownType_nested :
    let odd : BehaviourDefinition := .mk (.str "old") (some "bpmn:Odd") .empty
    let task : Activity :=
      ⟨⟨.str "old", some "t", .str "bpmn:Task", none, .unknown,
        .mk (some [odd]) none none .none []⟩, .str "old"⟩
    let definition : Definition := ⟨.null, none, some "bpmn:Definitions", none, none, none, none⟩
    let m : MappedContext := ⟨none, none, none, definition, [task], [], [], [], [], []⟩
    let r := Resolver.ofTypes [("Definition", .str "D"), ("Task", .str "T")]
    (m.resolve (some r)).outcome.result = .error (.unknownType (.str "bpmn:Odd")) ∧
      (m.resolve (some r)).context.IsUnbound :=
  ⟨by rfl, (resolve_unknownType _ _ (.str "bpmn:Odd") (by rfl)).1⟩

end MappedContext

end Bpmn
