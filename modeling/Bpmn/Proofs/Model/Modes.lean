import Bpmn.Proofs.Model.Listed
import Bpmn.Proofs.Model.Reread

namespace Bpmn

variable {α β γ : Type}

namespace Checked

instance : LawfulApplicative Checked where
  map_const := rfl
  id_map c := by cases c <;> rfl
  seqLeft_eq c d := by cases c <;> rfl
  seqRight_eq c d := by cases c <;> rfl
  pure_seq f c := by cases c <;> rfl
  map_pure f a := rfl
  seq_pure f a := by cases f <;> simp [Seq.seq, apply, Functor.map, map, pure, issues]
  seq_assoc c f g := by
    cases c <;> cases f <;> cases g <;> simp [Seq.seq, apply, Functor.map, map, issues]

theorem under_map (f : α → β) (c : Checked α) (step : Step) : (f <$> c).under step = f <$> c.under step := by
  cases c <;> rfl

theorem items_map (f : α → β) (cs : List (Checked α)) (start : Nat) :
    items start (cs.map (f <$> ·)) = List.map f <$> items start cs := by
  induction cs generalizing start with
  | nil => rfl
  | cons c rest ih =>
    simp only [List.map_cons, items, ih, under_map]
    cases c.under (.item start) <;> cases items (start + 1) rest <;> rfl

end Checked

section Trim

variable (keys : List String)

mutual

/-- A bundle without its raw fields under some keys, at every depth. -/
def Behaviour.trim : Behaviour → Behaviour
  | .mk events loop io attachments extras =>
    .mk (trimOptionalList events) (trimOptional loop) (trimOptional io) attachments
      (Fields.without extras keys)

def BehaviourDefinition.trim : BehaviourDefinition → BehaviourDefinition
  | .mk binding type behaviour => .mk binding type behaviour.trim

def trimOptional : Option BehaviourDefinition → Option BehaviourDefinition
  | none => none
  | some definition => some definition.trim

def trimOptionalList : Option (List BehaviourDefinition) → Option (List BehaviourDefinition)
  | none => none
  | some definitions => some (trimEach definitions)

def trimEach : List BehaviourDefinition → List BehaviourDefinition
  | [] => []
  | definition :: rest => definition.trim :: trimEach rest

end

theorem trimOptional_eq (o : Option BehaviourDefinition) :
    trimOptional keys o = o.map (BehaviourDefinition.trim keys) := by
  cases o <;> rfl

theorem trimOptionalList_eq (o : Option (List BehaviourDefinition)) :
    trimOptionalList keys o = o.map (·.map (BehaviourDefinition.trim keys)) := by
  have each (ds : List BehaviourDefinition) :
      trimEach keys ds = ds.map (BehaviourDefinition.trim keys) := by
    induction ds with
    | nil => rfl
    | cons d rest ih => rw [trimEach, ih, List.map_cons]
  cases o with
  | none => rfl
  | some ds => rw [trimOptionalList, each, Option.map_some]

theorem Behaviour.trim_eq (b : Behaviour) :
    b.trim keys = mk (b.eventDefinitions.map (·.map (BehaviourDefinition.trim keys)))
      (b.loopCharacteristics.map (BehaviourDefinition.trim keys))
      (b.ioSpecification.map (BehaviourDefinition.trim keys)) b.attachments
      (Fields.without b.extras keys) := by
  obtain ⟨events, loop, io, attachments, extras⟩ := b
  rw [trim, trimOptionalList_eq, trimOptional_eq, trimOptional_eq]
  rfl

/-- No bundle in a bundle has a raw field under some keys. -/
def Behaviour.Lacks (b : Behaviour) : Prop := ∀ c ∈ b.bundles, ∀ key ∈ Fields.keys c.extras, key ∉ keys

theorem Behaviour.trim_of_lacks {b : Behaviour} (h : b.Lacks keys) : b.trim keys = b := by
  induction b using Behaviour.induction with
  | step b ih =>
    have below (d : BehaviourDefinition) (hd : d ∈ b.nested) : d.trim keys = d := by
      have hinner := ih d hd fun c hc => h c (mem_bundles_of_nested hd hc)
      obtain ⟨binding, type, behaviour⟩ := d
      rw [BehaviourDefinition.trim]
      exact congrArg _ hinner
    have single (o : Option BehaviourDefinition) (ho : ∀ d, o = some d → d ∈ b.nested) :
        o.map (BehaviourDefinition.trim keys) = o := by
      cases o with
      | none => rfl
      | some d => rw [Option.map_some, below d (ho d rfl)]
    have several (o : Option (List BehaviourDefinition)) (ho : ∀ ds, o = some ds → ∀ d ∈ ds, d ∈ b.nested) :
        o.map (·.map (BehaviourDefinition.trim keys)) = o := by
      cases o with
      | none => rfl
      | some ds =>
        have hds := List.map_congr_left fun d hd => below d (ho ds rfl d hd)
        rw [Option.map_some, hds, List.map_id']
    rw [trim_eq, Fields.without_of_disjoint (h b List.mem_cons_self),
      several _ fun ds hds d hd => mem_nested.mpr (.inr (.inl ⟨ds, hds, hd⟩)),
      single _ fun d hd => mem_nested.mpr (.inl hd), single _ fun d hd => mem_nested.mpr (.inr (.inr hd))]
    cases b
    rfl

def Entity.trim (e : Entity) : Entity := { e with behaviour := e.behaviour.trim keys }

end Trim

namespace MappedContext

variable (f : Entity → Entity) (m : MappedContext)

/-- A context with other entities in place of its own. -/
def mapEntities : MappedContext :=
  { m with
    activities := m.activities.map fun a => { a with toEntity := f a.toEntity }
    dataObjects := m.dataObjects.map fun d => { d with toEntity := f d.toEntity }
    messageFlows := m.messageFlows.map fun s => { s with toEntity := f s.toEntity }
    processes := m.processes.map fun p => { p with toEntity := f p.toEntity }
    sequenceFlows := m.sequenceFlows.map fun s => { s with toEntity := f s.toEntity } }

theorem mapEntities_of_eq {f : Entity → Entity} {m : MappedContext} (h : ∀ e ∈ m.entities, f e = e) :
    m.mapEntities f = m := by
  have listed {α : Type} (l : List α) (g : α → α) (hl : ∀ a ∈ l, g a = a) : l.map g = l := by
    rw [List.map_congr_left hl, List.map_id']
  rw [mapEntities, listed m.activities _ fun a ha => by rw [h _ (m.mem_entities_of_activity ha)],
    listed m.dataObjects _ fun d hd => by rw [h _ (m.mem_entities_of_dataObject hd)],
    listed m.messageFlows _ fun s hs => by rw [h _ (m.mem_entities_of_messageFlow hs)],
    listed m.processes _ fun p hp => by rw [h _ (m.mem_entities_of_process hp)],
    listed m.sequenceFlows _ fun s hs => by rw [h _ (m.mem_entities_of_sequenceFlow hs)]]

end MappedContext

namespace Check

variable {fields : List (String × Json)} {key : String} {j : Json} {f : α → β} {check : Json → Checked α}
  {check' : Json → Checked β}

theorem list_map (h : ∀ items, j = .arr items → ∀ item ∈ items, check' item = f <$> check item) :
    list check' j = List.map f <$> list check j := by
  cases j with
  | arr items =>
    have hitems : items.map check' = (items.map check).map (f <$> ·) := by
      rw [List.map_map]
      exact List.map_congr_left (h items rfl)
    rw [list, list, hitems, Checked.items_map]
  | _ => rfl

theorem optional_map (h : check' j = f <$> check j) : optional check' j = Option.map f <$> optional check j := by
  cases j with
  | null => rfl
  | _ => simp only [optional, h, Functor.map_map, Option.map_some]

theorem defaulted_map {default : α} {default' : β} (hdefault : f default = default')
    (h : ∀ j, Fields.get? fields key = some j → check' j = f <$> check j) :
    defaulted fields key default' check' = f <$> defaulted fields key default check := by
  rw [← hdefault, defaulted, defaulted]
  cases hget : Fields.get? fields key with
  | none => rfl
  | some j => rw [Option.elim_some, Option.elim_some, h j hget, Checked.under_map]

theorem maybe_map (h : ∀ j, Fields.get? fields key = some j → check' j = f <$> check j) :
    maybe fields key check' = Option.map f <$> maybe fields key check :=
  defaulted_map rfl fun j hj => optional_map (h j hj)

theorem model_map {m : Model} {check : List (String × Json) → Checked α}
    {check' : List (String × Json) → Checked β}
    (h : ∀ fields, j = .obj fields → check' fields = f <$> check fields) :
    model m check' j = f <$> model m check j := by
  cases j with
  | obj fields => exact h fields rfl
  | _ => rfl

variable (mode : Mode)

theorem extras_mode (fields : List (String × Json)) :
    extras mode fields = Fields.without (extras .value fields) (dropped mode) := by
  have hdropped : dropped .value = [] := rfl
  rw [extras, extras, hdropped, List.append_nil, Fields.without, Fields.without, Fields.without, List.filter_filter]
  apply List.filter_congr
  intro p _
  simp [Bool.and_comm]

theorem behaviourFields_mode_of (below : ∀ j, sizeOf j < sizeOf fields →
      behaviourDefinition mode j = BehaviourDefinition.trim (dropped mode) <$> behaviourDefinition .value j) :
    behaviourFields mode fields = Behaviour.trim (dropped mode) <$> behaviourFields .value fields := by
  have hevents : member fields .eventDefinitions (list (behaviourDefinition mode)) =
      Option.map (List.map (BehaviourDefinition.trim (dropped mode))) <$>
        member fields .eventDefinitions (list (behaviourDefinition .value)) := by
    refine maybe_map fun j hj => list_map ?_
    rintro items rfl item hitem
    have hsize := List.sizeOf_lt_of_mem hitem
    have hless := sizeOf_get? hj
    simp only [Json.arr.sizeOf_spec] at hless
    exact below item (by omega)
  have hsingle (m : Member) : member fields m (behaviourDefinition mode) =
      Option.map (BehaviourDefinition.trim (dropped mode)) <$> member fields m (behaviourDefinition .value) :=
    maybe_map fun j hj => below j (sizeOf_get? hj)
  have hextras : (Checked.valid (extras mode fields) : Checked (List (String × Json))) =
      (Fields.without · (dropped mode)) <$> .valid (extras .value fields) :=
    congrArg Checked.valid (extras_mode mode fields)
  rw [behaviourFields_eq, behaviourFields_eq, hevents, hsingle, hsingle, hextras]
  simp only [map_seq, seq_map_assoc, Functor.map_map]
  congr 5
  funext events loop io attachments extras
  exact (Behaviour.trim_eq _ (.mk events loop io attachments extras)).symm

theorem behaviourDefinition_mode (j : Json) :
    behaviourDefinition mode j = BehaviourDefinition.trim (dropped mode) <$> behaviourDefinition .value j := by
  -- On the size of what is read: the bundle of a definition and the definitions in it are smaller.
  induction hsize : sizeOf j using Nat.strongRecOn generalizing j with
  | ind size ih =>
  rw [behaviourDefinition_eq, behaviourDefinition_eq]
  refine model_map ?_
  rintro fields rfl
  have hbehaviour : defaulted fields "behaviour" .empty (behaviour mode) =
      Behaviour.trim (dropped mode) <$> defaulted fields "behaviour" .empty (behaviour .value) := by
    refine defaulted_map rfl fun bundle hbundle => model_map ?_
    rintro inner rfl
    refine behaviourFields_mode_of mode fun j hj => ?_
    have hless := sizeOf_get? hbundle
    simp only [Json.obj.sizeOf_spec] at hless hsize
    exact ih (sizeOf j) (by omega) j rfl
  rw [hbehaviour]
  simp only [map_seq, seq_map_assoc, Functor.map_map]
  rfl

/-- A bundle of a text is that of the value, but for the raw fields that the release drops. -/
theorem behaviour_mode (j : Json) :
    behaviour mode j = Behaviour.trim (dropped mode) <$> behaviour .value j :=
  model_map fun _ _ => behaviourFields_mode_of mode fun j _ => behaviourDefinition_mode mode j

theorem entityFields_mode (fields : List (String × Json)) :
    entityFields mode fields = Entity.trim (dropped mode) <$> entityFields .value fields := by
  have hbehaviour : defaulted fields "behaviour" .empty (behaviour mode) =
      Behaviour.trim (dropped mode) <$> defaulted fields "behaviour" .empty (behaviour .value) :=
    defaulted_map rfl fun j _ => behaviour_mode mode j
  rw [entityFields, entityFields, hbehaviour]
  simp only [map_seq, seq_map_assoc, Functor.map_map]
  rfl

theorem process_mode (j : Json) : process mode j =
    (fun p => { p with toEntity := p.toEntity.trim (dropped mode) }) <$> process .value j := by
  refine model_map fun fields _ => ?_
  rw [entityFields_mode, Functor.map_map, Functor.map_map]

theorem activity_mode (j : Json) : activity mode j =
    (fun a => { a with toEntity := a.toEntity.trim (dropped mode) }) <$> activity .value j := by
  refine model_map fun fields _ => ?_
  rw [entityFields_mode, Functor.map_map, Functor.map_map]

theorem dataObject_mode (j : Json) : dataObject mode j =
    (fun d => { d with toEntity := d.toEntity.trim (dropped mode) }) <$> dataObject .value j := by
  refine model_map fun fields _ => ?_
  rw [entityFields_mode]
  simp only [map_seq, Functor.map_map]
  rfl

theorem messageFlow_mode (j : Json) : messageFlow mode j =
    (fun f => { f with toEntity := f.toEntity.trim (dropped mode) }) <$> messageFlow .value j := by
  refine model_map fun fields _ => ?_
  rw [entityFields_mode]
  simp only [map_seq, Functor.map_map]
  rfl

/-- A text and a value agree on whether a number could have been meant as a flag. -/
def FlagAgrees (j : Json) : Prop := ∀ i, j = .num (.int i) → mode.isSmall i = Mode.value.isSmall i

theorem flag_mode {mode : Mode} {j : Json} (h : FlagAgrees mode j) : flag mode j = flag .value j := by
  cases j with
  | num n =>
    cases n with
    | int i => rw [flag, flag, h i rfl]
    | float x => rfl
  | _ => rfl

theorem sequenceFlow_mode {mode : Mode} {j : Json} (h : FlagAgrees mode (j.fieldOrNull "is_default")) :
    sequenceFlow mode j =
      (fun f => { f with toEntity := f.toEntity.trim (dropped mode) }) <$> sequenceFlow .value j := by
  refine model_map ?_
  rintro fields rfl
  have hflag : maybe fields "is_default" (flag mode) = maybe fields "is_default" (flag .value) := by
    have hmaybe : maybe fields "is_default" (flag mode) =
        Option.map id <$> maybe fields "is_default" (flag .value) := by
      refine maybe_map fun j hj => ?_
      rw [Json.fieldOrNull, anything, hj, Option.getD_some] at h
      rw [flag_mode h, id_map]
    rw [hmaybe, Option.map_id, id_map]
  rw [entityFields_mode, hflag]
  simp only [map_seq, Functor.map_map]
  rfl

/-- A context of a text is that of the value, but for the raw fields that the release drops, if they agree on
which numbers could have been meant as flags. -/
theorem mappedContext_mode {mode : Mode} {j : Json}
    (h : ∀ flow ∈ j.itemsUnder "sequence_flows", FlagAgrees mode (flow.fieldOrNull "is_default")) :
    mappedContext mode j =
      (MappedContext.mapEntities (Entity.trim (dropped mode))) <$> mappedContext .value j := by
  refine model_map ?_
  rintro fields rfl
  have hlisted {α : Type} (key : String) (f : α → α) (check check' : Json → Checked α)
      (hitem : ∀ item ∈ (Json.obj fields).itemsUnder key, check' item = f <$> check item) :
      defaulted fields key [] (list check') = List.map f <$> defaulted fields key [] (list check) := by
    refine defaulted_map rfl fun j hj => list_map ?_
    rintro items rfl item hmem
    refine hitem item ?_
    rw [Json.itemsUnder, hj]
    exact hmem
  rw [hlisted "activities" _ _ _ fun j _ => activity_mode mode j,
    hlisted "data_objects" _ _ _ fun j _ => dataObject_mode mode j,
    hlisted "message_flows" _ _ _ fun j _ => messageFlow_mode mode j,
    hlisted "processes" _ _ _ fun j _ => process_mode mode j,
    hlisted "sequence_flows" _ _ _ fun j hj => sequenceFlow_mode (h j hj)]
  simp only [map_seq, seq_map_assoc, Functor.map_map]
  rfl

end Check

namespace MappedContext

variable {release : Release} {m : MappedContext}

/-- No raw field of a context, at any depth, is one that a release drops from a text. -/
def KeptBy (release : Release) (m : MappedContext) : Prop :=
  ∀ b ∈ m.bundles, ∀ key ∈ Fields.keys b.extras, key ∉ Check.dropped (.text release)

theorem keptBy_of_keepsSecond (h : release.keepsSecond = true) : m.KeptBy release := by
  intro b _ key _
  rw [Check.dropped, Mode.keepsSecond, h]
  exact List.not_mem_nil

theorem KeptBy.mapEntities (h : m.KeptBy release) :
    m.mapEntities (Entity.trim (Check.dropped (.text release))) = m := by
  refine mapEntities_of_eq fun e he => ?_
  have htrim : e.behaviour.trim (Check.dropped (.text release)) = e.behaviour :=
    Behaviour.trim_of_lacks _ fun b hb => h b (List.mem_flatMap.mpr ⟨e, he, hb⟩)
  rw [Entity.trim, htrim]

theorem KeptBy.unbound (h : m.KeptBy release) : m.unbound.KeptBy release := by
  have hbundles : m.unbound.bundles = m.bundles.map (Behaviour.relabel fun _ => .null) := by
    rw [bundles, bundles, entities_unbound, List.flatMap_map, List.map_flatMap]
    apply List.flatMap_congr
    intro e _
    rw [Entity.unbound, Behaviour.unbound_eq, Behaviour.bundles_relabel]
  intro b hb key hkey
  rw [hbundles] at hb
  obtain ⟨former, hformer, rfl⟩ := List.mem_map.mp hb
  rw [Behaviour.relabel_extras] at hkey
  exact h former hformer key hkey

end MappedContext

/-- What is read back from the text of a dump is the context without its bindings and without the raw fields that
the release drops. -/
theorem Check.mappedContext_text {m : MappedContext} {P : Number → Prop} (h : m.Orderly P) (release : Release) :
    mappedContext (.text release) m.toJson =
      .valid (m.unbound.mapEntities (Entity.trim (dropped (.text release)))) := by
  have hflags : ∀ flow ∈ m.toJson.itemsUnder "sequence_flows",
      FlagAgrees (.text release) (flow.fieldOrNull "is_default") := by
    intro flow hflow i hi
    obtain ⟨f, -, rfl⟩ := List.mem_map.mp hflow
    have hfield : f.toJson.fieldOrNull "is_default" = .ofOption .bool f.isDefault := rfl
    rw [hfield] at hi
    cases hdefault : f.isDefault <;> rw [hdefault] at hi <;> cases hi
  rw [mappedContext_mode hflags, mappedContext_toJson h]
  rfl

end Bpmn
