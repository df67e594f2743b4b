import Bpmn.Proofs.Model.Orderly

namespace Bpmn

variable {P : Number → Prop}

namespace Check

variable {α β : Type} {fields : List (String × Json)} {key : String} {check : Json → Checked α}

theorem required_of_get? {j : Json} {a : α} (h : Fields.get? fields key = some j)
    (hcheck : check j = .valid a) : required fields key check = .valid a :=
  required_eq_valid.mpr ⟨j, h, hcheck⟩

theorem defaulted_of_get? {j : Json} {default a : α} (h : Fields.get? fields key = some j)
    (hcheck : check j = .valid a) : defaulted fields key default check = .valid a :=
  defaulted_eq_valid.mpr (.inr ⟨j, h, hcheck⟩)

theorem optional_ofOption {f : β → Json} {g : β → α} {o : Option β}
    (h : ∀ b ∈ o, f b ≠ .null ∧ check (f b) = .valid (g b)) :
    optional check (.ofOption f o) = .valid (o.map g) := by
  apply optional_eq_valid.mpr
  cases o with
  | none => exact .inl ⟨rfl, rfl⟩
  | some b =>
    obtain ⟨hnull, hb⟩ := h b rfl
    exact .inr ⟨hnull, g b, hb, rfl⟩

theorem maybe_of_get? {f : β → Json} {g : β → α} {o : Option β}
    (h : Fields.get? fields key = some (.ofOption f o))
    (hcheck : ∀ b ∈ o, f b ≠ .null ∧ check (f b) = .valid (g b)) :
    maybe fields key check = .valid (o.map g) :=
  defaulted_of_get? h (optional_ofOption hcheck)

theorem maybeText_of_get? {text : Option String} (h : Fields.get? fields key = some (.ofText text)) :
    maybeText fields key = .valid text := by
  have hcheck : ∀ s ∈ text, Json.str s ≠ .null ∧ Check.text (.str s) = .valid s := by
    intro s _
    exact ⟨Json.noConfusion, rfl⟩
  have hmaybe := maybe_of_get? h hcheck
  rw [Option.map_id'] at hmaybe
  exact hmaybe

theorem list_of_map {f : β → Json} {g : β → α} {l : List β} (h : ∀ b ∈ l, check (f b) = .valid (g b)) :
    list check (.arr (l.map f)) = .valid (l.map g) := by
  refine list_eq_valid.mpr ⟨_, rfl, ?_⟩
  rw [List.map_map, List.map_map]
  exact List.map_congr_left h

theorem scopeRef_toJson (r : ScopeRef) : scopeRef r.toJson = .valid r := by
  rw [scopeRef, ScopeRef.toJson, model, maybeText_of_get? rfl, maybeText_of_get? rfl]
  rfl

theorem elementRef_toJson (r : ElementRef) : elementRef r.toJson = .valid r := by
  rw [elementRef, ElementRef.toJson, model, maybeText_of_get? rfl, maybeText_of_get? rfl,
    maybeText_of_get? rfl]
  rfl

/-- The fields of a link are read alike whatever comes behind them. -/
theorem referenceLinkFields_append (r : ReferenceLink) (more : List (String × Json)) :
    referenceLinkFields (r.toFields ++ more) = .valid r := by
  have helement : maybe (r.toFields ++ more) "element" elementRef = .valid (r.element.map id) :=
    maybe_of_get? rfl fun e _ => ⟨Json.noConfusion, elementRef_toJson e⟩
  have hproperty : required (r.toFields ++ more) "property" text = .valid r.property :=
    required_of_get? rfl rfl
  rw [Option.map_id, id] at helement
  rw [referenceLinkFields, maybeText_of_get? rfl, hproperty, helement]
  rfl

theorem referenceLink_toJson (r : ReferenceLink) : referenceLink r.toJson = .valid r := by
  have h := referenceLinkFields_append r []
  rw [List.append_nil] at h
  exact h

theorem associationEnd_toJson (r : AssociationEnd) : associationEnd r.toJson = .valid r := by
  have hobject : maybe (r.toFields ++ [("data_object", .ofOption ReferenceLink.toJson r.dataObject)])
      "data_object" referenceLink = .valid (r.dataObject.map id) :=
    maybe_of_get? rfl fun link _ => ⟨Json.noConfusion, referenceLink_toJson link⟩
  rw [Option.map_id, id] at hobject
  rw [associationEnd, AssociationEnd.toJson, model, referenceLinkFields_append, hobject]
  rfl

theorem association_toJson (a : Association) : association a.toJson = .valid a := by
  have hside (fields : List (String × Json)) (key : String) (o : Option AssociationEnd)
      (h : Fields.get? fields key = some (.ofOption AssociationEnd.toJson o)) :
      maybe fields key associationEnd = .valid o := by
    have hmaybe := maybe_of_get? (g := id) h fun r _ => ⟨Json.noConfusion, associationEnd_toJson r⟩
    rw [Option.map_id, id] at hmaybe
    exact hmaybe
  rw [association, Association.toJson, model, hside _ _ a.source rfl, hside _ _ a.target rfl]
  rfl

theorem dataParameter_toJson {p : DataParameter} (h : p.Orderly P) : dataParameter p.toJson = .valid p := by
  have hassociation : parameterBehaviour (.obj [("association", p.association.toJson)]) =
      .valid p.association :=
    defaulted_of_get? rfl (association_toJson p.association)
  have hextras : Fields.without ([("id", .ofText p.id), ("type", .ofText p.type),
      ("name", .ofText p.name), ("behaviour", .obj [("association", p.association.toJson)])] ++
        p.extras) parameterKeys = p.extras := by
    have hrest := Fields.without_of_disjoint h.apart
    rw [Fields.without, List.filter_append] at *
    rw [hrest]
    rfl
  rw [dataParameter, DataParameter.toJson, model, dataParameterWith, hextras, maybeText_of_get? rfl,
    maybeText_of_get? rfl, maybeText_of_get? rfl, defaulted_of_get? rfl hassociation]
  rfl

theorem resource_toJson (r : Resource) : resource r.toJson = .valid r := by
  rw [resource, Resource.toJson, model, maybeText_of_get? rfl, maybeText_of_get? rfl,
    defaulted_of_get? rfl (object_eq_valid.mpr rfl)]
  rfl

section Bundles

variable (b : Behaviour)

theorem get?_member (m : Member) :
    Fields.get? (Member.all.map (fun m => (m.key, b.member m)) ++ b.extras) m.key =
      some (b.member m) := by
  rw [Fields.get?_append]
  cases m <;> rfl

theorem keyIn_members (m : Member) :
    m.keyIn (Member.all.map (fun m => (m.key, b.member m)) ++ b.extras) = m.key := by
  have hhas : Fields.has (Member.all.map (fun m => (m.key, b.member m)) ++ b.extras) m.key = true := by
    rw [Fields.has, List.any_append]
    cases m <;> rfl
  rw [Member.keyIn, if_pos hhas]

theorem extras_members (h : ∀ key ∈ Fields.keys b.extras, key ∉ Member.all.map Member.key) :
    extras .value (Member.all.map (fun m => (m.key, b.member m)) ++ b.extras) = b.extras := by
  have hkeys : Member.all.map
      (·.keyIn (Member.all.map (fun m => (m.key, b.member m)) ++ b.extras)) =
        Member.all.map Member.key := by
    apply List.map_congr_left
    intro m _
    exact keyIn_members b m
  have hrest := Fields.without_of_disjoint h
  have hdropped : dropped .value = [] := rfl
  rw [extras, hkeys, hdropped, List.append_nil]
  rw [Fields.without, List.filter_append] at *
  rw [hrest]
  rfl

end Bundles

/-- A member read from the dump of its bundle. -/
theorem member_of_dump {b : Behaviour} {m : Member} {f : β → Json} {g : β → α} {o : Option β}
    (h : b.member m = .ofOption f o) (hcheck : ∀ x ∈ o, f x ≠ .null ∧ check (f x) = .valid (g x)) :
    member (Member.all.map (fun m => (m.key, b.member m)) ++ b.extras) m check = .valid (o.map g) := by
  rw [member, keyIn_members]
  exact maybe_of_get? ((get?_member b m).trans (congrArg some h)) hcheck

theorem member_of_dump_list {b : Behaviour} {m : Member} {f : β → Json} {g : β → α}
    {o : Option (List β)} (h : b.member m = .ofOption (.arr <| ·.map f) o)
    (hcheck : ∀ l ∈ o, ∀ x ∈ l, check (f x) = .valid (g x)) :
    member (Member.all.map (fun m => (m.key, b.member m)) ++ b.extras) m (list check) =
      .valid (o.map (·.map g)) :=
  member_of_dump h fun l hl => ⟨Json.noConfusion, list_of_map (hcheck l hl)⟩

/-- The bundle of a dump has the same members and nothing bound in it. -/
theorem behaviour_toJson {b : Behaviour} (h : b.Orderly P) : behaviour .value b.toJson = .valid b.unbound := by
  induction h with
  | @mk b attachments extras apart nested ih =>
    let bare := BehaviourDefinition.relabel fun _ => Json.null
    -- A dump has no binding, so null is read for one.
    have below (d : BehaviourDefinition) (hd : d ∈ b.nested) :
        behaviourDefinition .value d.toJson = .valid (bare d) := by
      rw [behaviourDefinition_eq, d.toJson_eq, model, maybeText_of_get? rfl,
        defaulted_of_get? rfl (ih d hd)]
      simp only [bare, d.relabel_eq, Behaviour.unbound_eq]
      rfl
    have single (m : Member) (o : Option BehaviourDefinition) (hm : b.member m = Bpmn.optional o)
        (ho : ∀ d, o = some d → d ∈ b.nested) :
        member (Member.all.map (fun m => (m.key, b.member m)) ++ b.extras) m (behaviourDefinition .value) =
          .valid (o.map bare) := by
      refine member_of_dump (hm.trans (optional_eq o)) ?_
      intro d hd
      exact ⟨by rw [d.toJson_eq]; exact Json.noConfusion, below d (ho d hd)⟩
    have hevents := member_of_dump_list (m := .eventDefinitions) (g := bare)
      (optionalList_eq b.eventDefinitions)
      fun ds hds d hd => below d (Behaviour.mem_nested.mpr (.inr (.inl ⟨ds, hds, hd⟩)))
    have hloop := single .loopCharacteristics b.loopCharacteristics rfl
      fun d hd => Behaviour.mem_nested.mpr (.inl hd)
    have hio := single .ioSpecification b.ioSpecification rfl
      fun d hd => Behaviour.mem_nested.mpr (.inr (.inr hd))
    have hresources := member_of_dump_list (b := b) (m := .resources) (g := id) rfl
      fun rs _ r _ => resource_toJson r
    have hattached := member_of_dump (b := b) (m := .attachedTo) (g := id) rfl
      fun r _ => ⟨Json.noConfusion, elementRef_toJson r⟩
    have hinputs := member_of_dump_list (b := b) (m := .dataInputs) (g := id) rfl
      fun ps hps p hp => dataParameter_toJson (attachments.dataInputs ps hps p hp)
    have houtputs := member_of_dump_list (b := b) (m := .dataOutputs) (g := id) rfl
      fun ps hps p hp => dataParameter_toJson (attachments.dataOutputs ps hps p hp)
    rw [b.toJson_eq, behaviour, model, behaviourFields_eq, hevents, hloop, hio, hresources, hattached,
      hinputs, houtputs, extras_members b apart, b.unbound_eq, b.relabel_eq]
    simp [bare]

/-- The fields of an entity are read alike whatever other fields come behind them. -/
theorem entityFields_append {e : Entity} (h : e.Orderly P) {more : List (String × Json)}
    (hmore : Fields.get? more "binding" = none) :
    entityFields .value (e.toFields ++ more) = .valid e.unbound := by
  obtain ⟨text, htype⟩ := h.type
  have hbinding : anything (e.toFields ++ more) "binding" = .null := by
    rw [anything, Fields.get?_append, hmore]
    rfl
  have htext : maybeText (e.toFields ++ more) "type" = .valid text :=
    maybeText_of_get? (congrArg some htype)
  rw [entityFields, hbinding, htext, maybeText_of_get? rfl, maybeText_of_get? rfl,
    defaulted_of_get? rfl (scopeRef_toJson e.parent),
    defaulted_of_get? rfl (behaviour_toJson h.behaviour), Entity.unbound, htype]
  rfl

theorem entityFields_toFields {e : Entity} (h : e.Orderly P) :
    entityFields .value e.toFields = .valid e.unbound := by
  have hfields := entityFields_append h (Fields.get?_nil "binding")
  rw [List.append_nil] at hfields
  exact hfields

theorem definition_toJson (d : Definition) : definition d.toJson = .valid { d with binding := .null } := by
  rw [definition, Definition.toJson, model, maybeText_of_get? rfl, maybeText_of_get? rfl,
    maybeText_of_get? rfl, maybeText_of_get? rfl, maybeText_of_get? rfl, maybeText_of_get? rfl]
  rfl

theorem process_toJson {p : Process} (h : p.toEntity.Orderly P) : process .value p.toJson = .valid p.unbound := by
  rw [process, Entity.toJson, model, entityFields_toFields h]
  rfl

theorem activity_toJson {a : Activity} (h : a.toEntity.Orderly P) :
    activity .value a.toJson = .valid a.unbound := by
  rw [activity, Entity.toJson, model, entityFields_toFields h]
  rfl

theorem sequenceFlow_toJson {f : SequenceFlow} (h : f.toEntity.Orderly P) :
    sequenceFlow .value f.toJson = .valid f.unbound := by
  have hflag (fields : List (String × Json)) (hget : Fields.get? fields "is_default" =
      some (.ofOption .bool f.isDefault)) : maybe fields "is_default" (flag .value) = .valid f.isDefault := by
    have hmaybe : maybe fields "is_default" (flag .value) = .valid (f.isDefault.map id) :=
      maybe_of_get? hget fun b _ => ⟨Json.noConfusion, rfl⟩
    rw [Option.map_id, id] at hmaybe
    exact hmaybe
  rw [sequenceFlow, SequenceFlow.toJson, model, entityFields_append h rfl, maybeText_of_get? rfl,
    maybeText_of_get? rfl, hflag _ rfl]
  rfl

theorem messageFlowEndpoint_toJson (e : MessageFlowEndpoint) :
    messageFlowEndpoint e.toJson = .valid e := by
  rw [messageFlowEndpoint, MessageFlowEndpoint.toJson, model, maybeText_of_get? rfl,
    maybeText_of_get? rfl]
  rfl

theorem messageFlow_toJson {f : MessageFlow} (h : f.toEntity.Orderly P) :
    messageFlow .value f.toJson = .valid f.unbound := by
  rw [messageFlow, MessageFlow.toJson, model, entityFields_append h rfl,
    defaulted_of_get? rfl (messageFlowEndpoint_toJson f.source),
    defaulted_of_get? rfl (messageFlowEndpoint_toJson f.target)]
  rfl

theorem dataObjectReference_toJson (r : DataObjectReference) :
    dataObjectReference r.toJson = .valid r := by
  rw [dataObjectReference, DataObjectReference.toJson, model, maybeText_of_get? rfl,
    maybeText_of_get? rfl, defaulted_of_get? rfl (object_eq_valid.mpr rfl)]
  rfl

theorem dataObject_toJson {d : DataObject} (h : d.toEntity.Orderly P) :
    dataObject .value d.toJson = .valid d.unbound := by
  have hreferences := list_of_map (g := id) (l := d.references)
    fun r _ => dataObjectReference_toJson r
  rw [List.map_id] at hreferences
  rw [dataObject, DataObject.toJson, model, entityFields_append h rfl,
    defaulted_of_get? rfl hreferences]
  rfl

theorem script_toJson (s : Script) : script s.toJson = .valid s := by
  have hname (fields : List (String × Json)) (h : Fields.get? fields "name" = some (.str s.name)) :
      required fields "name" text = .valid s.name := required_of_get? h rfl
  rw [script, Script.toJson, model, hname _ rfl, required_of_get? rfl (scopeRef_toJson s.parent),
    defaulted_of_get? rfl (object_eq_valid.mpr rfl)]
  rfl

/-- What is read back from the dump of a context is the context without its bindings. -/
theorem mappedContext_toJson {m : MappedContext} (h : m.Orderly P) :
    mappedContext .value m.toJson = .valid m.unbound := by
  have hactivities := list_of_map (l := m.activities) (g := Activity.unbound)
    fun a ha => activity_toJson (h.entities _ (m.mem_entities_of_activity ha))
  have hobjects := list_of_map (l := m.dataObjects) (g := DataObject.unbound)
    fun d hd => dataObject_toJson (h.entities _ (m.mem_entities_of_dataObject hd))
  have hmessages := list_of_map (l := m.messageFlows) (g := MessageFlow.unbound)
    fun f hf => messageFlow_toJson (h.entities _ (m.mem_entities_of_messageFlow hf))
  have hprocesses := list_of_map (l := m.processes) (g := Process.unbound)
    fun p hp => process_toJson (h.entities _ (m.mem_entities_of_process hp))
  have hsequences := list_of_map (l := m.sequenceFlows) (g := SequenceFlow.unbound)
    fun f hf => sequenceFlow_toJson (h.entities _ (m.mem_entities_of_sequenceFlow hf))
  have hscripts := list_of_map (l := m.scripts) (g := id) fun s _ => script_toJson s
  rw [List.map_id] at hscripts
  rw [mappedContext, MappedContext.toJson, model, maybeText_of_get? rfl, maybeText_of_get? rfl,
    maybeText_of_get? rfl, required_of_get? rfl (definition_toJson m.definition),
    defaulted_of_get? rfl hactivities, defaulted_of_get? rfl hobjects,
    defaulted_of_get? rfl hmessages, defaulted_of_get? rfl hprocesses,
    defaulted_of_get? rfl hsequences, defaulted_of_get? rfl hscripts, m.unbound_eq]
  rfl

end Check

/-- The dumps of two contexts differ unless these differ in nothing but their bindings. -/
theorem MappedContext.Orderly.unbound_eq_of_toJson {m n : MappedContext} (hm : m.Orderly P) (hn : n.Orderly P)
    (h : m.toJson = n.toJson) : m.unbound = n.unbound := by
  have hread := Check.mappedContext_toJson hm
  rw [h, Check.mappedContext_toJson hn] at hread
  exact (Checked.valid.inj hread).symm

end Bpmn
