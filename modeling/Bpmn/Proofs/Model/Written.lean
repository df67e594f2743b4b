import Bpmn.Proofs.Model.Orderly
import Bpmn.Query

namespace Bpmn

def DataParameter.written (p : DataParameter) : DataParameter :=
  { p with extras := Json.writtenFields p.extras }

def Resource.written (r : Resource) : Resource :=
  { r with behaviour := Json.writtenFields r.behaviour }

def Attachments.written (a : Attachments) : Attachments where
  resources := a.resources.map (·.map Resource.written)
  attachedTo := a.attachedTo
  dataInputs := a.dataInputs.map (·.map DataParameter.written)
  dataOutputs := a.dataOutputs.map (·.map DataParameter.written)

mutual

/-- A bundle as it is written, at every depth. -/
def Behaviour.written : Behaviour → Behaviour
  | .mk events loop io attachments extras =>
    .mk (writtenOptionalList events) (writtenOptional loop) (writtenOptional io) attachments.written
      (Json.writtenFields extras)

def BehaviourDefinition.written : BehaviourDefinition → BehaviourDefinition
  | .mk binding type behaviour => .mk binding type behaviour.written

def writtenOptional : Option BehaviourDefinition → Option BehaviourDefinition
  | none => none
  | some definition => some definition.written

def writtenOptionalList : Option (List BehaviourDefinition) → Option (List BehaviourDefinition)
  | none => none
  | some definitions => some (writtenEach definitions)

def writtenEach : List BehaviourDefinition → List BehaviourDefinition
  | [] => []
  | definition :: rest => definition.written :: writtenEach rest

end

theorem writtenEach_eq (ds : List BehaviourDefinition) :
    writtenEach ds = ds.map BehaviourDefinition.written := by
  induction ds with
  | nil => rfl
  | cons d rest ih => rw [writtenEach, ih, List.map_cons]

theorem Behaviour.written_eq (b : Behaviour) :
    b.written = mk (b.eventDefinitions.map (·.map BehaviourDefinition.written))
      (b.loopCharacteristics.map BehaviourDefinition.written)
      (b.ioSpecification.map BehaviourDefinition.written) b.attachments.written
      (Json.writtenFields b.extras) := by
  obtain ⟨events, loop, io, attachments, extras⟩ := b
  have single (o : Option BehaviourDefinition) :
      writtenOptional o = o.map BehaviourDefinition.written := by
    cases o <;> rfl
  have several : writtenOptionalList events = events.map (·.map BehaviourDefinition.written) := by
    cases events with
    | none => rfl
    | some ds => rw [writtenOptionalList, writtenEach_eq, Option.map_some]
  simp only [written, single, several, eventDefinitions_mk, loopCharacteristics_mk, ioSpecification_mk,
    attachments_mk, extras_mk]

theorem BehaviourDefinition.behaviour_written (d : BehaviourDefinition) :
    d.written.behaviour = d.behaviour.written := by
  obtain ⟨binding, type, behaviour⟩ := d
  rfl

theorem Behaviour.nested_written (b : Behaviour) :
    b.written.nested = b.nested.map BehaviourDefinition.written := by
  rw [written_eq]
  obtain ⟨events, loop, io, attachments, extras⟩ := b
  simp only [nested, eventDefinitions_mk, loopCharacteristics_mk, ioSpecification_mk, List.map_append]
  cases events <;> cases loop <;> cases io <;> rfl

theorem DataParameter.toJson_written (p : DataParameter) : p.written.toJson = p.toJson.written := by
  have hassociation : p.association.toJson.written = p.association.toJson :=
    p.association.orderly_toJson.written_eq
  simp [toJson, written, hassociation]

theorem Resource.toJson_written (r : Resource) : r.written.toJson = r.toJson.written := by
  simp [toJson, written]

theorem Json.written_ofOption_list {α : Type} {f : α → Json} {g : α → α} (o : Option (List α))
    (h : ∀ l ∈ o, ∀ a ∈ l, f (g a) = (f a).written) :
    (Json.ofOption (.arr <| ·.map f) o).written = .ofOption (.arr <| ·.map f) (o.map (·.map g)) := by
  cases o with
  | none => rfl
  | some l =>
    have hitems : l.map (f ∘ g) = l.map (Json.written ∘ f) := List.map_congr_left (h l rfl)
    simp [Json.ofOption, List.map_map, hitems]

theorem Behaviour.toJson_written (b : Behaviour) : b.written.toJson = b.toJson.written := by
  induction b using Behaviour.induction with
  | step b ih =>
    have below (d : BehaviourDefinition) (hd : d ∈ b.nested) : d.written.toJson = d.toJson.written := by
      obtain ⟨binding, type, behaviour⟩ := d
      have hbehaviour : behaviour.written.toJson = behaviour.toJson.written := ih _ hd
      simp [BehaviourDefinition.written, BehaviourDefinition.toJson, hbehaviour]
    have single (o : Option BehaviourDefinition) (ho : ∀ d, o = some d → d ∈ b.nested) :
        optional (o.map BehaviourDefinition.written) = (optional o).written := by
      cases o with
      | none => rfl
      | some d => exact below d (ho d rfl)
    have member (m : Member) : b.written.member m = (b.member m).written := by
      rw [written_eq]
      cases m with
      | eventDefinitions =>
        simp only [Behaviour.member, eventDefinitions_mk, optionalList_eq]
        refine (Json.written_ofOption_list _ ?_).symm
        intro ds hds d hd
        exact below d (mem_nested.mpr (.inr (.inl ⟨ds, hds, hd⟩)))
      | loopCharacteristics => exact single _ fun d hd => mem_nested.mpr (.inl hd)
      | ioSpecification => exact single _ fun d hd => mem_nested.mpr (.inr (.inr hd))
      | resources => exact (Json.written_ofOption_list _ fun _ _ r _ => r.toJson_written).symm
      | attachedTo => exact (Json.written_ofOption fun r _ => r.orderly_toJson.written_eq).symm
      | dataInputs => exact (Json.written_ofOption_list _ fun _ _ p _ => p.toJson_written).symm
      | dataOutputs => exact (Json.written_ofOption_list _ fun _ _ p _ => p.toJson_written).symm
    rw [Behaviour.toJson_eq, Behaviour.toJson_eq, Json.written_obj, Json.writtenFields_append,
      Json.writtenFields_eq (Member.all.map _), List.map_map, funext member, written_eq]
    rfl

def Entity.written (e : Entity) : Entity :=
  { e with type := e.type.written, behaviour := e.behaviour.written }

def Process.written (p : Process) : Process := ⟨p.toEntity.written⟩

def Activity.written (a : Activity) : Activity := { a with toEntity := a.toEntity.written }

def SequenceFlow.written (f : SequenceFlow) : SequenceFlow := { f with toEntity := f.toEntity.written }

def MessageFlow.written (f : MessageFlow) : MessageFlow := { f with toEntity := f.toEntity.written }

def DataObjectReference.written (r : DataObjectReference) : DataObjectReference :=
  { r with behaviour := Json.writtenFields r.behaviour }

def DataObject.written (d : DataObject) : DataObject :=
  { d with toEntity := d.toEntity.written, references := d.references.map DataObjectReference.written }

def Script.written (s : Script) : Script := { s with script := Json.writtenFields s.script }

namespace Entity

theorem toFields_written (e : Entity) : e.written.toFields = Json.writtenFields e.toFields := by
  have hparent : e.parent.toJson.written = e.parent.toJson := e.parent.orderly_toJson.written_eq
  simp [toFields, written, hparent, e.behaviour.toJson_written]

theorem toJson_written (e : Entity) : e.written.toJson = e.toJson.written := by
  rw [toJson, toFields_written]
  rfl

end Entity

theorem SequenceFlow.toJson_written (f : SequenceFlow) : f.written.toJson = f.toJson.written := by
  have hdefault : (Json.ofOption .bool f.isDefault).written = .ofOption .bool f.isDefault :=
    Json.written_ofOption fun _ _ => rfl
  simp [toJson, written, Entity.toFields_written, hdefault]

theorem MessageFlow.toJson_written (f : MessageFlow) : f.written.toJson = f.toJson.written := by
  have hend (e : MessageFlowEndpoint) : e.toJson.written = e.toJson := e.orderly_toJson.written_eq
  simp [toJson, written, Entity.toFields_written, hend]

theorem DataObjectReference.toJson_written (r : DataObjectReference) :
    r.written.toJson = r.toJson.written := by
  simp [toJson, written]

theorem DataObject.toJson_written (d : DataObject) : d.written.toJson = d.toJson.written := by
  simp [toJson, written, Entity.toFields_written, Function.comp_def, DataObjectReference.toJson_written]

theorem Script.toJson_written (s : Script) : s.written.toJson = s.toJson.written := by
  have hparent : s.parent.toJson.written = s.parent.toJson := s.parent.orderly_toJson.written_eq
  simp [toJson, written, hparent]

namespace MappedContext

/-- The context that a snapshot of it is the dump of. -/
def written (m : MappedContext) : MappedContext :=
  { m with
    activities := m.activities.map Activity.written
    dataObjects := m.dataObjects.map DataObject.written
    messageFlows := m.messageFlows.map MessageFlow.written
    processes := m.processes.map Process.written
    sequenceFlows := m.sequenceFlows.map SequenceFlow.written
    scripts := m.scripts.map Script.written }

theorem toJson_written (m : MappedContext) : m.written.toJson = m.toJson.written := by
  have hdefinition : m.definition.toJson.written = m.definition.toJson :=
    m.definition.orderly_toJson.written_eq
  have hprocess (p : Process) : p.written.toJson = p.toJson.written := p.toEntity.toJson_written
  have hactivity (a : Activity) : a.written.toJson = a.toJson.written := a.toEntity.toJson_written
  simp [toJson, written, hdefinition, Function.comp_def, hprocess, hactivity,
    DataObject.toJson_written, MessageFlow.toJson_written, SequenceFlow.toJson_written,
    Script.toJson_written]

theorem entities_written (m : MappedContext) : m.written.entities = m.entities.map Entity.written := by
  simp [entities, written, Function.comp_def, Process.written, Activity.written, DataObject.written,
    MessageFlow.written, SequenceFlow.written]

end MappedContext

theorem DataParameter.Orderly.sound_written {p : DataParameter} (h : p.Orderly Number.Readable) :
    p.written.Orderly Number.Sound where
  extras := h.extras.sound_written
  apart := by
    rw [DataParameter.written, Json.keys_writtenFields]
    exact h.apart

theorem Attachments.Orderly.sound_written {a : Attachments} (h : a.Orderly Number.Readable) :
    a.written.Orderly Number.Sound := by
  have parameters (o : Option (List DataParameter)) (ho : ∀ ps ∈ o, ∀ p ∈ ps, p.Orderly Number.Readable) :
      ∀ ps ∈ o.map (·.map DataParameter.written), ∀ p ∈ ps, p.Orderly Number.Sound := by
    simp only [Option.mem_def, Option.map_eq_some_iff, forall_exists_index, and_imp]
    rintro _ ps hps rfl
    exact List.forall_mem_map.mpr fun p hp => (ho ps hps p hp).sound_written
  refine ⟨?_, parameters _ h.dataInputs, parameters _ h.dataOutputs⟩
  simp only [Attachments.written, Option.mem_def, Option.map_eq_some_iff, forall_exists_index, and_imp]
  rintro _ rs hrs rfl
  refine List.forall_mem_map.mpr ?_
  intro r hr
  have hraw : (Json.obj r.behaviour).Orderly Number.Readable := h.resources rs hrs r hr
  exact hraw.sound_written

theorem Behaviour.Orderly.sound_written {b : Behaviour} (h : b.Orderly Number.Readable) :
    b.written.Orderly Number.Sound := by
  induction h with
  | @mk b attachments extras apart _ ih =>
    refine .mk ?_ ?_ ?_ ?_
    · rw [written_eq]
      exact attachments.sound_written
    · rw [written_eq]
      exact extras.sound_written
    · rw [written_eq, extras_mk, Json.keys_writtenFields]
      exact apart
    · rw [nested_written]
      refine List.forall_mem_map.mpr ?_
      intro d hd
      rw [BehaviourDefinition.behaviour_written]
      exact ih d hd

theorem Entity.Orderly.sound_written {e : Entity} (h : e.Orderly Number.Readable) :
    e.written.Orderly Number.Sound where
  type := by
    obtain ⟨text, htype⟩ := h.type
    exact ⟨text, by rw [Entity.written, htype, Json.written_ofText]⟩
  behaviour := h.behaviour.sound_written

namespace MappedContext

/-- What is written of a readable context is sound. -/
theorem Orderly.sound_written {m : MappedContext} (h : m.Orderly Number.Readable) : m.written.Sound where
  entities := by
    rw [entities_written]
    exact List.forall_mem_map.mpr fun e he => (h.entities e he).sound_written
  references := by
    refine List.forall_mem_map.mpr ?_
    intro d hd
    exact List.forall_mem_map.mpr fun r hr => (h.references d hd r hr).sound_written
  scripts := by
    exact List.forall_mem_map.mpr fun s hs => (h.scripts s hs).sound_written

/-- The snapshot of an orderly context is its dump without infinite numbers, unless that is nested too deep. -/
theorem Orderly.snapshot_eq {P : Number → Prop} {m : MappedContext} (h : m.Orderly P) (release : Release) :
    m.snapshot release =
      if release.writes m.written.toJson then .ok m.written.toJson else .error .tooDeep := by
  rw [snapshot, Release.dump, h.toJson.dump_eq_written, toJson_written]
  rfl

/-- The snapshot of an orderly context without infinite numbers is its dump. -/
theorem Orderly.snapshot_eq_of_finite {m : MappedContext} (h : m.Orderly Number.Finite) (release : Release) :
    m.snapshot release = if release.writes m.toJson then .ok m.toJson else .error .tooDeep := by
  rw [h.snapshot_eq, toJson_written, h.toJson.written_eq]

/-- What has to hold for a text of a snapshot: the indent can be made, and no integer is too long. -/
theorem serialize_eq_ok {m : MappedContext} {release : Release} {indent : Option Int} {text : String} :
    m.serialize release indent = .ok text ↔ ∃ written, m.snapshot release = .ok written ∧
      Json.Layout.fits indent = true ∧ Json.Layout.isHeld indent = true ∧ written.isShort = true ∧
      text = written.render indent := by
  rw [serialize, ok_bind]
  simp only [ok_unless, ok_pure, eq_comm (a := text)]

end MappedContext

/-- The flag by which a process says that it is executable. -/
def Process.executableFlag (p : Process) : Json := p.behaviour.get "isExecutable" .null

theorem Process.executableFlag_written (p : Process) :
    p.written.executableFlag = p.executableFlag.written := by
  have hkey : Member.ofKey? "isExecutable" = none := by decide
  have hextras : p.written.behaviour.extras = Json.writtenFields p.behaviour.extras := by
    rw [written, Entity.written, Behaviour.written_eq, Behaviour.extras_mk]
  rw [executableFlag, executableFlag, Behaviour.get, Behaviour.get, hextras, Json.get?_writtenFields, hkey]
  cases Fields.get? p.behaviour.extras "isExecutable" <;> rfl

/-- The processes that say that they are executable by a flag that can be written. -/
def MappedContext.flaggedProcesses (m : MappedContext) : List Process :=
  m.executableProcesses.filter fun p => !p.executableFlag.isLost

theorem MappedContext.executableProcesses_written (m : MappedContext) :
    m.written.executableProcesses = m.flaggedProcesses.map Process.written := by
  rw [executableProcesses, flaggedProcesses, executableProcesses, List.filter_filter]
  simp only [written, List.filter_map]
  congr 2
  funext p
  have hflag := p.executableFlag_written
  rw [Function.comp_apply]
  change p.written.executableFlag.truthy = _
  rw [hflag, Json.truthy_written, Bool.and_comm]
  rfl

end Bpmn
