import Bpmn.Proofs.Json.Written
import Bpmn.Proofs.Model.Checks
import Bpmn.Proofs.Model.Unbound

namespace Bpmn

variable {P : Number → Prop}

structure DataParameter.Orderly (P : Number → Prop) (p : DataParameter) : Prop where
  extras : (Json.obj p.extras).Orderly P
  apart : ∀ key ∈ Fields.keys p.extras, key ∉ Check.parameterKeys

def Resource.Orderly (P : Number → Prop) (r : Resource) : Prop := (Json.obj r.behaviour).Orderly P

structure Attachments.Orderly (P : Number → Prop) (a : Attachments) : Prop where
  resources : ∀ rs ∈ a.resources, ∀ r ∈ rs, r.Orderly P
  dataInputs : ∀ ps ∈ a.dataInputs, ∀ p ∈ ps, p.Orderly P
  dataOutputs : ∀ ps ∈ a.dataOutputs, ∀ p ∈ ps, p.Orderly P

/-- A bundle that is orderly at every depth. -/
inductive Behaviour.Orderly (P : Number → Prop) : Behaviour → Prop where
  | mk {b : Behaviour} (attachments : b.attachments.Orderly P) (extras : (Json.obj b.extras).Orderly P)
      (apart : ∀ key ∈ Fields.keys b.extras, key ∉ Member.all.map Member.key)
      (nested : ∀ d ∈ b.nested, Orderly P d.behaviour) : Orderly P b

structure Entity.Orderly (P : Number → Prop) (e : Entity) : Prop where
  type : ∃ text, e.type = .ofText text
  behaviour : e.behaviour.Orderly P

structure MappedContext.Orderly (P : Number → Prop) (m : MappedContext) : Prop where
  entities : ∀ e ∈ m.entities, e.Orderly P
  references : ∀ d ∈ m.dataObjects, ∀ r ∈ d.references, (Json.obj r.behaviour).Orderly P
  scripts : ∀ s ∈ m.scripts, (Json.obj s.script).Orderly P

/-- A context that a text without infinite numbers may denote. -/
def MappedContext.Sound (m : MappedContext) : Prop := m.Orderly Number.Sound

theorem Attachments.orderly_none : Attachments.none.Orderly P where
  resources := by
    intro rs hrs
    cases hrs
  dataInputs := by
    intro ps hps
    cases hps
  dataOutputs := by
    intro ps hps
    cases hps

theorem Behaviour.orderly_empty : Behaviour.empty.Orderly P := by
  refine .mk Attachments.orderly_none (.obj Fields.distinct_nil ?_) ?_ ?_
  · intro p hp
    cases hp
  · intro key hkey
    cases hkey
  · intro d hd
    cases hd

/-- Bindings have no part in order. -/
theorem Behaviour.orderly_relabel (f : BehaviourDefinition → Json) (b : Behaviour) :
    (b.relabel f).Orderly P ↔ b.Orderly P := by
  induction b using Behaviour.induction with
  | step b ih =>
    constructor
    · intro h
      cases h with
      | mk attachments extras apart nested =>
      rw [relabel_attachments] at attachments
      rw [relabel_extras] at extras apart
      refine .mk attachments extras apart ?_
      intro d hd
      have hnested := nested (d.relabel f) (by rw [relabel_nested]; exact List.mem_map_of_mem hd)
      rw [BehaviourDefinition.relabel_behaviour] at hnested
      exact (ih d hd).mp hnested
    · intro h
      cases h with
      | mk attachments extras apart nested =>
      refine .mk ?_ ?_ ?_ ?_
      · rw [relabel_attachments]
        exact attachments
      · rw [relabel_extras]
        exact extras
      · rw [relabel_extras]
        exact apart
      · intro d hd
        rw [relabel_nested] at hd
        obtain ⟨d, hmem, rfl⟩ := List.mem_map.mp hd
        rw [BehaviourDefinition.relabel_behaviour]
        exact (ih d hmem).mpr (nested d hmem)

theorem Entity.orderly_unbound (e : Entity) : e.unbound.Orderly P ↔ e.Orderly P := by
  have hbehaviour : e.behaviour.unbound.Orderly P ↔ e.behaviour.Orderly P := by
    rw [Behaviour.unbound_eq, Behaviour.orderly_relabel]
  constructor
  · rintro ⟨type, behaviour⟩
    exact ⟨type, hbehaviour.mp behaviour⟩
  · rintro ⟨type, behaviour⟩
    exact ⟨type, hbehaviour.mpr behaviour⟩

theorem MappedContext.orderly_unbound (m : MappedContext) : m.unbound.Orderly P ↔ m.Orderly P := by
  have references : (∀ d ∈ m.unbound.dataObjects, ∀ r ∈ d.references, (Json.obj r.behaviour).Orderly P) ↔
      ∀ d ∈ m.dataObjects, ∀ r ∈ d.references, (Json.obj r.behaviour).Orderly P := by
    simp [unbound_eq, DataObject.unbound]
  have entities : (∀ e ∈ m.unbound.entities, e.Orderly P) ↔ ∀ e ∈ m.entities, e.Orderly P := by
    simp [entities_unbound, Entity.orderly_unbound]
  constructor
  · intro h
    exact ⟨entities.mp h.entities, references.mp h.references, h.scripts⟩
  · intro h
    exact ⟨entities.mpr h.entities, references.mpr h.references, h.scripts⟩

namespace Json

/-- Named values and then others under other keys. -/
theorem orderly_obj_append {named extras : List (String × Json)} (hdistinct : Fields.Distinct named)
    (hnamed : ∀ p ∈ named, p.2.Orderly P) (hextras : (Json.obj extras).Orderly P)
    (hapart : ∀ key ∈ Fields.keys extras, key ∉ Fields.keys named) :
    (Json.obj (named ++ extras)).Orderly P := by
  cases hextras with
  | obj distinct each =>
  refine .obj ?_ ?_
  · rw [Fields.Distinct, Fields.keys, List.map_append, List.nodup_append]
    refine ⟨hdistinct, distinct, ?_⟩
    rintro key hkey _ hother rfl
    exact hapart key hother hkey
  · intro p hp
    rcases List.mem_append.mp hp with hp | hp
    · exact hnamed p hp
    · exact each p hp

theorem orderly_arr_map {α : Type} {f : α → Json} {l : List α} (h : ∀ a ∈ l, (f a).Orderly P) :
    (Json.arr (l.map f)).Orderly P := by
  refine .arr ?_
  intro j hj
  obtain ⟨a, ha, rfl⟩ := List.mem_map.mp hj
  exact h a ha

theorem orderly_ofOption_list {α : Type} {f : α → Json} {o : Option (List α)}
    (h : ∀ l ∈ o, ∀ a ∈ l, (f a).Orderly P) : (Json.ofOption (.arr <| ·.map f) o).Orderly P := by
  apply orderly_ofOption
  intro l hl
  exact orderly_arr_map (h l hl)

end Json

theorem ScopeRef.orderly_toJson (r : ScopeRef) : r.toJson.Orderly P := by
  refine .obj ?_ ?_
  · simp [Fields.Distinct, Fields.keys]
  · simp [Json.orderly_ofText]

theorem ElementRef.orderly_toJson (r : ElementRef) : r.toJson.Orderly P := by
  refine .obj ?_ ?_
  · simp [Fields.Distinct, Fields.keys]
  · simp [Json.orderly_ofText]

theorem ReferenceLink.orderly_element (r : ReferenceLink) :
    (Json.ofOption ElementRef.toJson r.element).Orderly P :=
  Json.orderly_ofOption fun e _ => e.orderly_toJson

theorem ReferenceLink.orderly_toJson (r : ReferenceLink) : r.toJson.Orderly P := by
  refine .obj ?_ ?_
  · simp [Fields.Distinct, Fields.keys, toFields]
  · simp [toFields, Json.orderly_ofText, r.orderly_element]

theorem AssociationEnd.orderly_toJson (r : AssociationEnd) : r.toJson.Orderly P := by
  have hobject : (Json.ofOption ReferenceLink.toJson r.dataObject).Orderly P :=
    Json.orderly_ofOption fun link _ => link.orderly_toJson
  refine .obj ?_ ?_
  · simp [Fields.Distinct, Fields.keys, ReferenceLink.toFields]
  · simp [ReferenceLink.toFields, Json.orderly_ofText, r.orderly_element, hobject]

theorem Association.orderly_toJson (a : Association) : a.toJson.Orderly P := by
  have hend (o : Option AssociationEnd) : (Json.ofOption AssociationEnd.toJson o).Orderly P :=
    Json.orderly_ofOption fun r _ => r.orderly_toJson
  refine .obj ?_ ?_
  · simp [Fields.Distinct, Fields.keys]
  · simp [hend]

theorem DataParameter.Orderly.toJson {p : DataParameter} (h : p.Orderly P) : p.toJson.Orderly P := by
  have hassociation : (Json.obj [("association", p.association.toJson)]).Orderly P := by
    refine .obj ?_ ?_
    · simp [Fields.Distinct, Fields.keys]
    · simp [p.association.orderly_toJson]
  refine Json.orderly_obj_append ?_ ?_ h.extras h.apart
  · simp [Fields.Distinct, Fields.keys]
  · simp [Json.orderly_ofText, hassociation]

theorem Resource.Orderly.toJson {r : Resource} (h : r.Orderly P) : r.toJson.Orderly P := by
  refine .obj ?_ ?_
  · simp [Fields.Distinct, Fields.keys]
  · have hraw : (Json.obj r.behaviour).Orderly P := h
    simp [Json.orderly_ofText, hraw]

namespace Behaviour

/-- A member of a bundle is orderly if the nested definitions are. -/
theorem Orderly.member {b : Behaviour} (h : b.Orderly P) (hnested : ∀ d ∈ b.nested, d.toJson.Orderly P)
    (m : Member) : (b.member m).Orderly P := by
  cases h with
  | mk attachments _ _ _ =>
  cases m with
  | eventDefinitions =>
    rw [Behaviour.member, optionalList_eq]
    refine Json.orderly_ofOption_list ?_
    intro ds hds d hd
    exact hnested d (mem_nested.mpr (.inr (.inl ⟨ds, hds, hd⟩)))
  | loopCharacteristics =>
    rw [Behaviour.member, optional_eq]
    refine Json.orderly_ofOption ?_
    intro d hd
    exact hnested d (mem_nested.mpr (.inl hd))
  | ioSpecification =>
    rw [Behaviour.member, optional_eq]
    refine Json.orderly_ofOption ?_
    intro d hd
    exact hnested d (mem_nested.mpr (.inr (.inr hd)))
  | resources => exact Json.orderly_ofOption_list fun rs hrs r hr => (attachments.resources rs hrs r hr).toJson
  | attachedTo => exact Json.orderly_ofOption fun r _ => r.orderly_toJson
  | dataInputs =>
    exact Json.orderly_ofOption_list fun ps hps p hp => (attachments.dataInputs ps hps p hp).toJson
  | dataOutputs =>
    exact Json.orderly_ofOption_list fun ps hps p hp => (attachments.dataOutputs ps hps p hp).toJson

theorem Orderly.toJson {b : Behaviour} (h : b.Orderly P) : b.toJson.Orderly P := by
  induction h with
  | @mk b attachments extras apart nested ih =>
    have hnested (d : BehaviourDefinition) (hd : d ∈ b.nested) : d.toJson.Orderly P := by
      rw [d.toJson_eq]
      refine .obj ?_ ?_
      · simp [Fields.Distinct, Fields.keys]
      · simp [Json.orderly_ofText, ih d hd]
    rw [b.toJson_eq]
    refine Json.orderly_obj_append ?_ ?_ extras ?_
    · simp [Fields.Distinct, Fields.keys, Member.all, Member.key]
    · intro p hp
      obtain ⟨m, -, rfl⟩ := List.mem_map.mp hp
      exact Orderly.member (.mk attachments extras apart nested) hnested m
    · intro key hkey
      have hmembers : Fields.keys (Member.all.map fun m => (m.key, b.member m)) =
          Member.all.map Member.key := by
        simp [Fields.keys, Function.comp_def]
      rw [hmembers]
      exact apart key hkey

end Behaviour

theorem Definition.orderly_toJson (d : Definition) : d.toJson.Orderly P := by
  refine .obj ?_ ?_
  · simp [Fields.Distinct, Fields.keys]
  · simp [Json.orderly_ofText]

namespace Entity

theorem Orderly.fields {e : Entity} (h : e.Orderly P) : ∀ p ∈ e.toFields, p.2.Orderly P := by
  obtain ⟨text, htype⟩ := h.type
  simp [toFields, htype, Json.orderly_ofText, e.parent.orderly_toJson, h.behaviour.toJson]

/-- An entity with orderly fields of other names behind its own. -/
theorem Orderly.obj_append {e : Entity} (h : e.Orderly P) {more : List (String × Json)}
    (hdistinct : Fields.Distinct (e.toFields ++ more)) (hmore : ∀ p ∈ more, p.2.Orderly P) :
    (Json.obj (e.toFields ++ more)).Orderly P := by
  refine .obj hdistinct ?_
  intro p hp
  rcases List.mem_append.mp hp with hp | hp
  · exact h.fields p hp
  · exact hmore p hp

theorem Orderly.toJson {e : Entity} (h : e.Orderly P) : e.toJson.Orderly P := by
  refine .obj ?_ h.fields
  simp [Fields.Distinct, Fields.keys, toFields]

end Entity

theorem SequenceFlow.orderly_toJson {f : SequenceFlow} (h : f.toEntity.Orderly P) : f.toJson.Orderly P := by
  have hdefault : (Json.ofOption .bool f.isDefault).Orderly P := Json.orderly_ofOption fun b _ => .bool b
  refine h.obj_append ?_ ?_
  · simp [Fields.Distinct, Fields.keys, Entity.toFields]
  · simp [Json.orderly_ofText, hdefault]

theorem MessageFlowEndpoint.orderly_toJson (e : MessageFlowEndpoint) : e.toJson.Orderly P := by
  refine .obj ?_ ?_
  · simp [Fields.Distinct, Fields.keys]
  · simp [Json.orderly_ofText]

theorem MessageFlow.orderly_toJson {f : MessageFlow} (h : f.toEntity.Orderly P) : f.toJson.Orderly P := by
  refine h.obj_append ?_ ?_
  · simp [Fields.Distinct, Fields.keys, Entity.toFields]
  · simp [f.source.orderly_toJson, f.target.orderly_toJson]

theorem DataObjectReference.orderly_toJson {r : DataObjectReference} (h : (Json.obj r.behaviour).Orderly P) :
    r.toJson.Orderly P := by
  refine .obj ?_ ?_
  · simp [Fields.Distinct, Fields.keys]
  · simp [Json.orderly_ofText, h]

theorem DataObject.orderly_toJson {d : DataObject} (h : d.toEntity.Orderly P)
    (hreferences : ∀ r ∈ d.references, (Json.obj r.behaviour).Orderly P) : d.toJson.Orderly P := by
  have hlist : (Json.arr (d.references.map DataObjectReference.toJson)).Orderly P :=
    Json.orderly_arr_map fun r hr => DataObjectReference.orderly_toJson (hreferences r hr)
  refine h.obj_append ?_ ?_
  · simp [Fields.Distinct, Fields.keys, Entity.toFields]
  · simp [hlist]

theorem Script.orderly_toJson {s : Script} (h : (Json.obj s.script).Orderly P) : s.toJson.Orderly P := by
  refine .obj ?_ ?_
  · simp [Fields.Distinct, Fields.keys]
  · simp [s.parent.orderly_toJson, h]

namespace MappedContext

section Entities

variable (m : MappedContext)

theorem mem_entities_of_process {p : Process} (h : p ∈ m.processes) : p.toEntity ∈ m.entities := by
  simp only [entities, List.mem_append, List.mem_map]
  exact .inl (.inl (.inl (.inl ⟨p, h, rfl⟩)))

theorem mem_entities_of_activity {a : Activity} (h : a ∈ m.activities) : a.toEntity ∈ m.entities := by
  simp only [entities, List.mem_append, List.mem_map]
  exact .inl (.inl (.inl (.inr ⟨a, h, rfl⟩)))

theorem mem_entities_of_dataObject {d : DataObject} (h : d ∈ m.dataObjects) :
    d.toEntity ∈ m.entities := by
  simp only [entities, List.mem_append, List.mem_map]
  exact .inl (.inl (.inr ⟨d, h, rfl⟩))

theorem mem_entities_of_messageFlow {f : MessageFlow} (h : f ∈ m.messageFlows) :
    f.toEntity ∈ m.entities := by
  simp only [entities, List.mem_append, List.mem_map]
  exact .inl (.inr ⟨f, h, rfl⟩)

theorem mem_entities_of_sequenceFlow {f : SequenceFlow} (h : f ∈ m.sequenceFlows) :
    f.toEntity ∈ m.entities := by
  simp only [entities, List.mem_append, List.mem_map]
  exact .inr ⟨f, h, rfl⟩

end Entities

theorem Orderly.toJson {m : MappedContext} (h : m.Orderly P) : m.toJson.Orderly P := by
  have hactivities : (Json.arr (m.activities.map (·.toJson))).Orderly P :=
    Json.orderly_arr_map fun a ha => (h.entities _ (m.mem_entities_of_activity ha)).toJson
  have hprocesses : (Json.arr (m.processes.map (·.toJson))).Orderly P :=
    Json.orderly_arr_map fun p hp => (h.entities _ (m.mem_entities_of_process hp)).toJson
  have hobjects : (Json.arr (m.dataObjects.map DataObject.toJson)).Orderly P :=
    Json.orderly_arr_map fun d hd =>
      DataObject.orderly_toJson (h.entities _ (m.mem_entities_of_dataObject hd)) (h.references d hd)
  have hmessages : (Json.arr (m.messageFlows.map MessageFlow.toJson)).Orderly P :=
    Json.orderly_arr_map fun f hf =>
      MessageFlow.orderly_toJson (h.entities _ (m.mem_entities_of_messageFlow hf))
  have hsequences : (Json.arr (m.sequenceFlows.map SequenceFlow.toJson)).Orderly P :=
    Json.orderly_arr_map fun f hf =>
      SequenceFlow.orderly_toJson (h.entities _ (m.mem_entities_of_sequenceFlow hf))
  have hscripts : (Json.arr (m.scripts.map Script.toJson)).Orderly P :=
    Json.orderly_arr_map fun s hs => Script.orderly_toJson (h.scripts s hs)
  refine .obj ?_ ?_
  · simp [Fields.Distinct, Fields.keys]
  · simp [Json.orderly_ofText, m.definition.orderly_toJson, hactivities, hobjects, hmessages,
      hprocesses, hsequences, hscripts]

theorem Sound.toJson {m : MappedContext} (h : m.Sound) : m.toJson.Sound :=
  Json.sound_iff.mpr (Orderly.toJson h)

end MappedContext

end Bpmn
