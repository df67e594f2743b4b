import Bpmn.Proofs.Model.Listed
import Bpmn.Proofs.Model.Orderly

namespace Bpmn

variable {P : Number → Prop}

namespace Json

variable {fields : List (String × Json)} {items : List Json} {key : String} {j : Json}

theorem orderly_obj_nil : (Json.obj []).Orderly P := by
  refine .obj Fields.distinct_nil ?_
  intro p hp
  cases hp

theorem Orderly.item (h : (Json.arr items).Orderly P) (hj : j ∈ items) : j.Orderly P := by
  cases h with
  | arr each => exact each j hj

theorem Orderly.get? (h : (Json.obj fields).Orderly P) (hj : Fields.get? fields key = some j) : j.Orderly P := by
  cases h with
  | obj _ each => exact each (key, j) (Fields.mem_of_get? hj)

theorem Orderly.itemsUnder (h : (Json.obj fields).Orderly P) (hj : j ∈ (Json.obj fields).itemsUnder key) :
    j.Orderly P := by
  rw [Json.itemsUnder] at hj
  split at hj
  · next items hitems => exact (h.get? hitems).item hj
  · cases hj

theorem Orderly.without (h : (Json.obj fields).Orderly P) (names : List String) :
    (Json.obj (Fields.without fields names)).Orderly P := by
  cases h with
  | obj distinct each =>
  refine .obj (distinct.without names) ?_
  intro p hp
  exact each p (Fields.mem_without.mp hp).1

theorem Orderly.put {value : Json} (h : (Json.obj fields).Orderly P) (hvalue : value.Orderly P) :
    (Json.obj (Fields.put fields key value)).Orderly P := by
  cases h with
  | obj distinct each =>
  refine .obj distinct.put ?_
  intro p hp
  rcases Fields.mem_put hp with hp | rfl
  · exact each p hp
  · exact hvalue

theorem Orderly.update {other : List (String × Json)} (h : (Json.obj fields).Orderly P)
    (hother : ∀ p ∈ other, p.2.Orderly P) : (Json.obj (Fields.update fields other)).Orderly P := by
  cases h with
  | obj distinct each =>
  refine .obj (distinct.update other) ?_
  intro p hp
  rcases Fields.mem_update hp with hp | hp
  · exact each p hp
  · exact hother p hp

theorem Orderly.of_mem (h : (Json.obj fields).Orderly P) : ∀ p ∈ fields, p.2.Orderly P := by
  cases h with
  | obj _ each => exact each

end Json

namespace Check

variable {α : Type} {mode : Mode} {fields : List (String × Json)} {key : String} {j : Json}
  {check : Json → Checked α}

theorem exists_of_list {as : List α} (horderly : j.Orderly P) (h : list check j = .valid as) :
    ∀ a ∈ as, ∃ item : Json, item.Orderly P ∧ check item = .valid a := by
  obtain ⟨items, rfl, hitems⟩ := list_eq_valid.mp h
  intro a ha
  have hmem : Checked.valid a ∈ items.map check := by
    rw [hitems]
    exact List.mem_map_of_mem ha
  obtain ⟨item, hitem, hcheck⟩ := List.mem_map.mp hmem
  exact ⟨item, horderly.item hitem, hcheck⟩

theorem exists_of_maybe {o : Option α} (horderly : (Json.obj fields).Orderly P)
    (h : maybe fields key check = .valid o) :
    ∀ a ∈ o, ∃ j : Json, j.Orderly P ∧ check j = .valid a := by
  intro a ha
  obtain rfl : o = some a := ha
  obtain ⟨j, hj, hcheck⟩ := maybe_eq_some h
  exact ⟨j, horderly.get? hj, hcheck⟩

theorem exists_of_maybe_list {o : Option (List α)} (horderly : (Json.obj fields).Orderly P)
    (h : maybe fields key (list check) = .valid o) :
    ∀ as ∈ o, ∀ a ∈ as, ∃ item : Json, item.Orderly P ∧ check item = .valid a := by
  intro as has
  obtain ⟨j, hj, hlist⟩ := exists_of_maybe horderly h as has
  exact exists_of_list hj hlist

theorem orderly_of_record {inner : List (String × Json)} (horderly : (Json.obj fields).Orderly P)
    (h : defaulted fields key [] object = .valid inner) : (Json.obj inner).Orderly P := by
  rcases defaulted_eq_valid.mp h with ⟨-, rfl⟩ | ⟨j, hj, hobject⟩
  · exact Json.orderly_obj_nil
  · rw [← object_eq_valid.mp hobject]
    exact horderly.get? hj

theorem fields_of_model {m : Model} {check : List (String × Json) → Checked α} {a : α}
    (horderly : j.Orderly P) (h : model m check j = .valid a) :
    ∃ fields, (Json.obj fields).Orderly P ∧ check fields = .valid a := by
  obtain ⟨fields, rfl, hcheck⟩ := model_eq_valid.mp h
  exact ⟨fields, horderly, hcheck⟩

theorem orderly_of_resource {r : Resource} (horderly : j.Orderly P) (h : resource j = .valid r) : r.Orderly P := by
  obtain ⟨fields, hfields, h⟩ := fields_of_model horderly h
  simp only [Checked.seq_eq_valid, Checked.map_eq_valid] at h
  obtain ⟨_, inner, ⟨_, expression, ⟨type, -, rfl⟩, -, rfl⟩, hinner, rfl⟩ := h
  exact orderly_of_record hfields hinner

theorem orderly_of_dataParameterWith {association : Checked Association} {p : DataParameter}
    (horderly : (Json.obj fields).Orderly P) (h : dataParameterWith association fields = .valid p) :
    p.Orderly P := by
  simp only [dataParameterWith, Checked.seq_eq_valid, Checked.map_eq_valid] at h
  obtain ⟨_, extras, ⟨_, a, ⟨_, name, ⟨_, type, ⟨id, -, rfl⟩, -, rfl⟩, -, rfl⟩, -, rfl⟩, hextras, rfl⟩ := h
  obtain rfl : Fields.without fields parameterKeys = extras := Checked.valid.inj hextras
  refine ⟨horderly.without parameterKeys, ?_⟩
  intro key hkey hnamed
  exact Fields.notMem_keys_without hnamed hkey

theorem orderly_of_dataParameter {p : DataParameter} (horderly : j.Orderly P)
    (h : dataParameter j = .valid p) : p.Orderly P := by
  obtain ⟨fields, hfields, h⟩ := fields_of_model horderly h
  exact orderly_of_dataParameterWith hfields h

/-- The members that hold no bundle, whatever has been given for the resources. -/
theorem orderly_of_attachments {a : Attachments} {given : Checked (Option (List Resource))}
    (horderly : (Json.obj fields).Orderly P)
    (hgiven : ∀ o, given = .valid o → ∀ rs ∈ o, ∀ r ∈ rs, r.Orderly P)
    (h : Attachments.mk <$> given <*> member fields .attachedTo elementRef
      <*> member fields .dataInputs (list dataParameter)
      <*> member fields .dataOutputs (list dataParameter) = .valid a) : a.Orderly P := by
  simp only [Checked.seq_eq_valid, Checked.map_eq_valid] at h
  obtain ⟨_, outputs, ⟨_, inputs, ⟨_, attached, ⟨resources, hresources, rfl⟩, -, rfl⟩, hinputs, rfl⟩,
    houtputs, rfl⟩ := h
  have parameters (m : Member) (o : Option (List DataParameter))
      (ho : member fields m (list dataParameter) = .valid o) : ∀ ps ∈ o, ∀ p ∈ ps, p.Orderly P := by
    intro ps hps p hp
    obtain ⟨j, hj, hparameter⟩ := exists_of_maybe_list horderly ho ps hps p hp
    exact orderly_of_dataParameter hj hparameter
  exact ⟨hgiven resources hresources, parameters .dataInputs inputs hinputs,
    parameters .dataOutputs outputs houtputs⟩

/-- A key that is no key under which a member has been read is no key a member is written under. -/
theorem keyIn_of_mem {key : String} {m : Member} (h : key ∈ Fields.keys fields) (hkey : m.key = key) :
    m.keyIn fields = key := by
  obtain ⟨p, hp, rfl⟩ := List.mem_map.mp h
  have hhas : Fields.has fields m.key = true := by
    rw [Fields.has, List.any_eq_true]
    exact ⟨p, hp, by simp [hkey]⟩
  rw [Member.keyIn, if_pos hhas, hkey]

theorem apart_of_without {names : List String} (h : ∀ m : Member, m.keyIn fields ∈ names ∨ m.key ∈ names) :
    ∀ key ∈ Fields.keys (Fields.without fields names), key ∉ Member.all.map Member.key := by
  intro key hkey hmember
  obtain ⟨m, -, hm⟩ := List.mem_map.mp hmember
  have hfields : key ∈ Fields.keys fields := by
    obtain ⟨p, hp, rfl⟩ := List.mem_map.mp hkey
    exact List.mem_map_of_mem (Fields.mem_without.mp hp).1
  have hname : key ∈ names := by
    rcases h m with hread | hgiven
    · rw [keyIn_of_mem hfields hm] at hread
      exact hread
    · rw [hm] at hgiven
      exact hgiven
  exact Fields.notMem_keys_without hname hkey

/-- The bundle of an accepted definition is empty or read from orderly fields. -/
theorem fields_of_behaviourDefinition {d : BehaviourDefinition} (horderly : j.Orderly P)
    (h : behaviourDefinition mode j = .valid d) :
    d.behaviour = .empty ∨
      ∃ fields, (Json.obj fields).Orderly P ∧ behaviourFields mode fields = .valid d.behaviour := by
  rw [behaviourDefinition_eq] at h
  obtain ⟨fields, hfields, h⟩ := fields_of_model horderly h
  obtain ⟨_, inner, h₁, hinner, rfl⟩ := Checked.seq_eq_valid.mp h
  obtain ⟨type, -, rfl⟩ := Checked.map_eq_valid.mp h₁
  rcases defaulted_eq_valid.mp hinner with ⟨-, rfl⟩ | ⟨j, hj, hbehaviour⟩
  · exact .inl rfl
  · exact .inr (fields_of_model (hfields.get? hj) hbehaviour)

theorem fields_of_nested {events : Option (List BehaviourDefinition)}
    {loop io : Option BehaviourDefinition} {attachments : Attachments} {extras : List (String × Json)}
    {d : BehaviourDefinition} (horderly : (Json.obj fields).Orderly P)
    (hevents : member fields .eventDefinitions (list (behaviourDefinition mode)) = .valid events)
    (hloop : member fields .loopCharacteristics (behaviourDefinition mode) = .valid loop)
    (hio : member fields .ioSpecification (behaviourDefinition mode) = .valid io)
    (hd : d ∈ (Behaviour.mk events loop io attachments extras).nested) :
    ∃ j : Json, j.Orderly P ∧ behaviourDefinition mode j = .valid d := by
  rcases Behaviour.mem_nested.mp hd with hd | ⟨ds, hds, hd⟩ | hd
  · exact exists_of_maybe horderly hloop d hd
  · exact exists_of_maybe_list horderly hevents ds hds d hd
  · exact exists_of_maybe horderly hio d hd

/-- An accepted bundle is orderly: it is read from orderly fields, and so is each bundle in it. -/
theorem orderly_of_behaviourFields {b : Behaviour} (horderly : (Json.obj fields).Orderly P)
    (h : behaviourFields mode fields = .valid b) : b.Orderly P := by
  -- On the bundle that is made: the bundles in it are read from fields further down.
  induction b using Behaviour.induction generalizing fields with
  | step b ih =>
    rw [behaviourFields_eq] at h
    obtain ⟨_, rest, h₁, hrest, rfl⟩ := Checked.seq_eq_valid.mp h
    obtain ⟨_, attachments, h₂, hattachments, rfl⟩ := Checked.seq_eq_valid.mp h₁
    obtain ⟨_, io, h₃, hio, rfl⟩ := Checked.seq_eq_valid.mp h₂
    obtain ⟨_, loop, h₄, hloop, rfl⟩ := Checked.seq_eq_valid.mp h₃
    obtain ⟨events, hevents, rfl⟩ := Checked.map_eq_valid.mp h₄
    obtain rfl : extras mode fields = rest := Checked.valid.inj hrest
    refine .mk (orderly_of_attachments horderly ?_ hattachments) (horderly.without _) ?_ ?_
    · intro o ho rs hrs r hr
      obtain ⟨j, hj, hresource⟩ := exists_of_maybe_list horderly ho rs hrs r hr
      exact orderly_of_resource hj hresource
    · apply apart_of_without
      intro m
      left
      exact List.mem_append_left _ (List.mem_map_of_mem (by cases m <;> decide))
    · intro d hd
      obtain ⟨j, hj, hdefinition⟩ := fields_of_nested horderly hevents hloop hio hd
      rcases fields_of_behaviourDefinition hj hdefinition with hempty | ⟨inner, hinner, hbehaviour⟩
      · rw [hempty]
        exact Behaviour.orderly_empty
      · exact ih d hd hinner hbehaviour

theorem orderly_of_behaviour {b : Behaviour} (horderly : j.Orderly P) (h : behaviour mode j = .valid b) :
    b.Orderly P := by
  obtain ⟨fields, hfields, h⟩ := fields_of_model horderly h
  exact orderly_of_behaviourFields hfields h

/-- A bundle with given members is orderly if these are. -/
theorem orderly_of_behaviourWith {events : Option (List BehaviourDefinition)}
    {loop io : Option BehaviourDefinition} {resources : Option (List Resource)} {b : Behaviour}
    (horderly : (Json.obj fields).Orderly P) (hevents : ∀ ds ∈ events, ∀ d ∈ ds, d.behaviour.Orderly P)
    (hloop : ∀ d ∈ loop, d.behaviour.Orderly P) (hio : ∀ d ∈ io, d.behaviour.Orderly P)
    (hresources : ∀ rs ∈ resources, ∀ r ∈ rs, r.Orderly P)
    (h : behaviourWith events loop io resources fields = .valid b) : b.Orderly P := by
  obtain ⟨_, rest, h₁, hrest, rfl⟩ := Checked.seq_eq_valid.mp h
  obtain ⟨attachments, hattachments, rfl⟩ := Checked.map_eq_valid.mp h₁
  obtain rfl := Checked.valid.inj hrest
  refine .mk ?_ (horderly.without _) ?_ ?_
  · have hgiven (o : Option (List Resource)) (ho : Checked.valid resources = .valid o) :
        ∀ rs ∈ o, ∀ r ∈ rs, r.Orderly P := by
      obtain rfl := Checked.valid.inj ho
      exact hresources
    have hmk : Attachments.mk <$> Checked.valid resources <*> member fields .attachedTo elementRef
        <*> member fields .dataInputs (list dataParameter)
        <*> member fields .dataOutputs (list dataParameter) = .valid attachments := hattachments
    exact orderly_of_attachments horderly hgiven hmk
  · apply apart_of_without
    intro m
    cases m <;> simp [givenMembers, readMembers]
  · intro d hd
    rcases Behaviour.mem_nested.mp hd with hd | ⟨ds, hds, hd⟩ | hd
    · exact hloop d hd
    · exact hevents ds hds d hd
    · exact hio d hd

theorem orderly_of_entityFields {e : Entity} (horderly : (Json.obj fields).Orderly P)
    (h : entityFields mode fields = .valid e) : e.Orderly P := by
  obtain ⟨htype, hinner⟩ := parts_of_entityFields h
  refine ⟨htype, ?_⟩
  rcases defaulted_eq_valid.mp hinner with ⟨-, hempty⟩ | ⟨j, hj, hbehaviour⟩
  · rw [hempty]
    exact Behaviour.orderly_empty
  · exact orderly_of_behaviour (horderly.get? hj) hbehaviour

theorem orderly_of_dataObjectReference {r : DataObjectReference} (horderly : j.Orderly P)
    (h : dataObjectReference j = .valid r) : (Json.obj r.behaviour).Orderly P := by
  obtain ⟨fields, hfields, h⟩ := fields_of_model horderly h
  obtain ⟨_, inner, h₁, hinner, rfl⟩ := Checked.seq_eq_valid.mp h
  obtain ⟨_, type, h₂, -, rfl⟩ := Checked.seq_eq_valid.mp h₁
  obtain ⟨id, -, rfl⟩ := Checked.map_eq_valid.mp h₂
  exact orderly_of_record hfields hinner

theorem orderly_of_script {s : Script} (horderly : j.Orderly P) (h : script j = .valid s) :
    (Json.obj s.script).Orderly P := by
  obtain ⟨fields, hfields, h⟩ := fields_of_model horderly h
  obtain ⟨_, inner, h₁, hinner, rfl⟩ := Checked.seq_eq_valid.mp h
  obtain ⟨_, parent, h₂, -, rfl⟩ := Checked.seq_eq_valid.mp h₁
  obtain ⟨name, -, rfl⟩ := Checked.map_eq_valid.mp h₂
  exact orderly_of_record hfields hinner

/-- A context that is accepted from an orderly value is orderly. -/
theorem orderly_of_mappedContext {m : MappedContext} (horderly : j.Orderly P)
    (h : mappedContext mode j = .valid m) : m.Orderly P := by
  obtain ⟨fields, rfl, hreads⟩ := reads_of_mappedContext h
  constructor
  · intro e he
    obtain ⟨key, inner, hinner, hentity⟩ := hreads.entities e he
    exact orderly_of_entityFields (horderly.itemsUnder hinner) hentity
  · intro d hd r hr
    obtain ⟨item, hitem, hobject⟩ := exists_itemsUnder hreads.dataObjects d hd
    obtain ⟨inner, rfl, -, hreferences⟩ := entity_of_dataObject hobject
    obtain ⟨reference, hreference, hcheck⟩ := exists_itemsUnder hreferences r hr
    exact orderly_of_dataObjectReference ((horderly.itemsUnder hitem).itemsUnder hreference) hcheck
  · intro s hs
    obtain ⟨item, hitem, hcheck⟩ := exists_itemsUnder hreads.scripts s hs
    exact orderly_of_script (horderly.itemsUnder hitem) hcheck

end Check

end Bpmn
