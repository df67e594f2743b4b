import Bpmn.Resolution.Binding
import Mathlib.Data.List.Basic

namespace Bpmn

namespace BehaviourDefinition

theorem sizeOf_behaviour (d : BehaviourDefinition) : sizeOf d.behaviour < sizeOf d := by
  obtain ⟨binding, type, behaviour⟩ := d
  simp only [mk.sizeOf_spec, BehaviourDefinition.behaviour]
  omega

/-- Replaces the bindings of a definition and all below it. -/
def relabel (f : BehaviourDefinition → Json) (d : BehaviourDefinition) : BehaviourDefinition :=
  Id.run (d.mapBindings fun d => pure (f d))

end BehaviourDefinition

namespace Behaviour

section Parts

variable (events : Option (List BehaviourDefinition)) (loop io : Option BehaviourDefinition)
  (attachments : Attachments) (extras : List (String × Json))

@[simp] theorem eventDefinitions_mk :
    (mk events loop io attachments extras).eventDefinitions = events := rfl

@[simp] theorem loopCharacteristics_mk :
    (mk events loop io attachments extras).loopCharacteristics = loop := rfl

@[simp] theorem ioSpecification_mk :
    (mk events loop io attachments extras).ioSpecification = io := rfl

@[simp] theorem attachments_mk :
    (mk events loop io attachments extras).attachments = attachments := rfl

@[simp] theorem extras_mk : (mk events loop io attachments extras).extras = extras := rfl

end Parts

/-- The definitions that stand directly in a bundle, in the order in which they are resolved. -/
def nested (b : Behaviour) : List BehaviourDefinition :=
  b.loopCharacteristics.toList ++ b.eventDefinitions.getD [] ++ b.ioSpecification.toList

theorem mem_nested {b : Behaviour} {d : BehaviourDefinition} :
    d ∈ b.nested ↔ b.loopCharacteristics = some d ∨ (∃ ds, b.eventDefinitions = some ds ∧ d ∈ ds) ∨
      b.ioSpecification = some d := by
  cases he : b.eventDefinitions <;> simp [nested, he]

theorem sizeOf_nested {b : Behaviour} {d : BehaviourDefinition} (h : d ∈ b.nested) :
    sizeOf d.behaviour < sizeOf b := by
  obtain ⟨events, loop, io, attachments, extras⟩ := b
  have inner := d.sizeOf_behaviour
  simp only [mem_nested, loopCharacteristics_mk, eventDefinitions_mk, ioSpecification_mk] at h
  simp only [mk.sizeOf_spec]
  rcases h with rfl | ⟨ds, rfl, hd⟩ | rfl
  · simp only [Option.some.sizeOf_spec]
    omega
  · have hm := List.sizeOf_lt_of_mem hd
    simp only [Option.some.sizeOf_spec]
    omega
  · simp only [Option.some.sizeOf_spec]
    omega

/-- What holds of a bundle once it holds of the bundles directly below it holds of every bundle. -/
theorem induction {P : Behaviour → Prop}
    (step : ∀ b : Behaviour, (∀ d ∈ b.nested, P d.behaviour) → P b) (b : Behaviour) : P b :=
  step b fun d _h => induction step d.behaviour
termination_by sizeOf b
decreasing_by exact sizeOf_nested _h

end Behaviour

theorem BehaviourDefinition.definitions_eq (d : BehaviourDefinition) :
    d.definitions = d :: d.behaviour.definitions := by
  obtain ⟨binding, type, behaviour⟩ := d
  rfl

theorem ofEach_eq (ds : List BehaviourDefinition) :
    ofEach ds = ds.flatMap BehaviourDefinition.definitions := by
  induction ds with
  | nil => rfl
  | cons d rest ih => rw [ofEach, ih, List.flatMap_cons]

theorem Behaviour.definitions_eq (b : Behaviour) :
    b.definitions = b.nested.flatMap BehaviourDefinition.definitions := by
  obtain ⟨events, loop, io, attachments, extras⟩ := b
  have single (o : Option BehaviourDefinition) :
      ofOptional o = o.toList.flatMap BehaviourDefinition.definitions := by
    cases o <;> simp [ofOptional]
  have several (o : Option (List BehaviourDefinition)) :
      ofOptionalList o = (o.getD []).flatMap BehaviourDefinition.definitions := by
    cases o <;> simp [ofOptionalList, ofEach_eq]
  simp only [definitions, single, several, nested, loopCharacteristics_mk, eventDefinitions_mk,
    ioSpecification_mk, List.flatMap_append]

/-- A bundle and all bundles in it. -/
def Behaviour.bundles (b : Behaviour) : List Behaviour := b :: b.definitions.map (·.behaviour)

theorem Behaviour.mem_bundles_of_nested {b c : Behaviour} {d : BehaviourDefinition} (hd : d ∈ b.nested)
    (hc : c ∈ d.behaviour.bundles) : c ∈ b.bundles := by
  refine List.mem_cons_of_mem _ (List.mem_map.mpr ?_)
  simp only [definitions_eq, List.mem_flatMap]
  rcases List.mem_cons.mp hc with rfl | hbelow
  · exact ⟨d, ⟨d, hd, by rw [d.definitions_eq]; exact List.mem_cons_self⟩, rfl⟩
  · obtain ⟨inner, hinner, rfl⟩ := List.mem_map.mp hbelow
    exact ⟨inner, ⟨d, hd, by rw [d.definitions_eq]; exact List.mem_cons_of_mem _ hinner⟩, rfl⟩

theorem each_eq (ds : List BehaviourDefinition) : each ds = ds.map BehaviourDefinition.toJson := by
  induction ds with
  | nil => rfl
  | cons d rest ih => rw [each, ih, List.map_cons]

theorem optional_eq (o : Option BehaviourDefinition) :
    optional o = .ofOption BehaviourDefinition.toJson o := by
  cases o <;> rfl

theorem optionalList_eq (o : Option (List BehaviourDefinition)) :
    optionalList o = .ofOption (.arr <| ·.map BehaviourDefinition.toJson) o := by
  cases o with
  | none => rfl
  | some ds => rw [optionalList, each_eq]; rfl

/-- A bundle is written as its typed members and then its other fields. -/
theorem Behaviour.toJson_eq (b : Behaviour) :
    b.toJson = .obj (Member.all.map (fun m => (m.key, b.member m)) ++ b.extras) := by
  obtain ⟨events, loop, io, attachments, extras⟩ := b
  rfl

theorem BehaviourDefinition.toJson_eq (d : BehaviourDefinition) :
    d.toJson = .obj [("type", .ofText d.type), ("behaviour", d.behaviour.toJson)] := by
  obtain ⟨binding, type, behaviour⟩ := d
  rfl

namespace Behaviour

variable (f : BehaviourDefinition → Json)

/-- Replaces the bindings of all definitions in a bundle. -/
def relabel (b : Behaviour) : Behaviour := Id.run (b.mapBindings fun d => pure (f d))

theorem mapEach_relabel (ds : List BehaviourDefinition) :
    Id.run (mapEach (fun d => pure (f d)) ds) = ds.map (BehaviourDefinition.relabel f) := by
  induction ds with
  | nil => rfl
  | cons d rest ih => rw [List.map_cons, ← ih]; rfl

theorem relabel_eq (b : Behaviour) :
    b.relabel f = mk (b.eventDefinitions.map (·.map (BehaviourDefinition.relabel f)))
      (b.loopCharacteristics.map (BehaviourDefinition.relabel f))
      (b.ioSpecification.map (BehaviourDefinition.relabel f)) b.attachments b.extras := by
  obtain ⟨events, loop, io, attachments, extras⟩ := b
  have single (o : Option BehaviourDefinition) :
      Id.run (mapOptional (fun d => pure (f d)) o) = o.map (BehaviourDefinition.relabel f) := by
    cases o <;> rfl
  have several : Id.run (mapOptionalList (fun d => pure (f d)) events) =
      events.map (·.map (BehaviourDefinition.relabel f)) := by
    cases events with
    | none => rfl
    | some ds => rw [Option.map_some, ← mapEach_relabel]; rfl
  simp only [eventDefinitions_mk, loopCharacteristics_mk, ioSpecification_mk, ← several, ← single]
  rfl

@[simp] theorem relabel_extras (b : Behaviour) : (b.relabel f).extras = b.extras := by
  rw [relabel_eq]; rfl

@[simp] theorem relabel_attachments (b : Behaviour) :
    (b.relabel f).attachments = b.attachments := by
  rw [relabel_eq]; rfl

theorem relabel_nested (b : Behaviour) :
    (b.relabel f).nested = b.nested.map (BehaviourDefinition.relabel f) := by
  rw [relabel_eq]
  obtain ⟨events, loop, io, attachments, extras⟩ := b
  simp only [nested, eventDefinitions_mk, loopCharacteristics_mk, ioSpecification_mk,
    List.map_append]
  cases events <;> cases loop <;> cases io <;> rfl

end Behaviour

namespace BehaviourDefinition

variable (f : BehaviourDefinition → Json)

theorem relabel_eq (d : BehaviourDefinition) :
    d.relabel f = mk (f d) d.type (d.behaviour.relabel f) := by
  obtain ⟨binding, type, behaviour⟩ := d
  rfl

@[simp] theorem relabel_type (d : BehaviourDefinition) : (d.relabel f).type = d.type := by
  rw [relabel_eq]; rfl

@[simp] theorem relabel_binding (d : BehaviourDefinition) : (d.relabel f).binding = f d := by
  rw [relabel_eq]; rfl

@[simp] theorem relabel_behaviour (d : BehaviourDefinition) :
    (d.relabel f).behaviour = d.behaviour.relabel f := by
  rw [relabel_eq]; rfl

end BehaviourDefinition

namespace Behaviour

variable (f : BehaviourDefinition → Json)

/-- Every definition of a relabelled bundle comes from one of the bundle. -/
theorem relabel_definitions (b : Behaviour) :
    (b.relabel f).definitions = b.definitions.map (BehaviourDefinition.relabel f) := by
  induction b using Behaviour.induction with
  | step b ih =>
    rw [definitions_eq, definitions_eq, relabel_nested, List.flatMap_map, List.map_flatMap]
    apply List.flatMap_congr
    intro d hd
    rw [BehaviourDefinition.definitions_eq, BehaviourDefinition.definitions_eq, List.map_cons,
      BehaviourDefinition.relabel_behaviour, ih d hd]

theorem bundles_relabel (b : Behaviour) : (b.relabel f).bundles = b.bundles.map (relabel f) := by
  rw [bundles, bundles, relabel_definitions, List.map_cons, List.map_map, List.map_map]
  congr 1
  exact List.map_congr_left fun d _ => BehaviourDefinition.relabel_behaviour f d

theorem toJson_relabel (b : Behaviour) : (b.relabel f).toJson = b.toJson := by
  induction b using Behaviour.induction with
  | step b ih =>
    have below (d : BehaviourDefinition) (hd : d ∈ b.nested) : (d.relabel f).toJson = d.toJson := by
      rw [BehaviourDefinition.toJson_eq, BehaviourDefinition.toJson_eq,
        BehaviourDefinition.relabel_type, BehaviourDefinition.relabel_behaviour, ih d hd]
    obtain ⟨events, loop, io, attachments, extras⟩ := b
    simp only [mem_nested, loopCharacteristics_mk, eventDefinitions_mk, ioSpecification_mk] at below
    have single (o : Option BehaviourDefinition) (h : ∀ d, o = some d → (d.relabel f).toJson = d.toJson) :
        optional (o.map (BehaviourDefinition.relabel f)) = optional o := by
      cases o with
      | none => rfl
      | some d => exact h d rfl
    have several : optionalList (events.map (·.map (BehaviourDefinition.relabel f))) =
        optionalList events := by
      cases events with
      | none => rfl
      | some ds =>
        simp only [Option.map_some, optionalList, each_eq, List.map_map]
        congr 1
        exact List.map_congr_left fun d hd => below d (.inr (.inl ⟨ds, rfl, hd⟩))
    rw [relabel_eq]
    simp only [eventDefinitions_mk, loopCharacteristics_mk, ioSpecification_mk,
      attachments_mk, extras_mk, toJson, several, single loop fun d h => below d (.inl h),
      single io fun d h => below d (.inr (.inr h))]

theorem member_relabel (b : Behaviour) (m : Member) : (b.relabel f).member m = b.member m := by
  have h := toJson_relabel f b
  simp only [toJson_eq, Member.all, List.map_cons, List.map_nil, List.cons_append, Json.obj.injEq,
    List.cons.injEq, Prod.mk.injEq, true_and] at h
  obtain ⟨h1, h2, h3, h4, h5, h6, h7, -⟩ := h
  cases m <;> assumption

theorem get_relabel (b : Behaviour) (key : String) (default : Json) :
    (b.relabel f).get key default = b.get key default := by
  simp only [get, relabel_extras, member_relabel]

theorem hasImplementation_relabel (b : Behaviour) :
    (b.relabel f).hasImplementation = b.hasImplementation := by
  rw [hasImplementation, get_relabel]; rfl

/-- Of two labellings in turn only the last counts, if it goes by types. -/
theorem relabel_relabel (g : BehaviourDefinition → Json)
    (hg : ∀ d : BehaviourDefinition, g (d.relabel f) = g d) (b : Behaviour) :
    (b.relabel f).relabel g = b.relabel g := by
  induction b using Behaviour.induction with
  | step b ih =>
    have below (d : BehaviourDefinition) (hd : d ∈ b.nested) :
        (d.relabel f).relabel g = d.relabel g := by
      rw [BehaviourDefinition.relabel_eq, hg, BehaviourDefinition.relabel_behaviour, ih d hd,
        BehaviourDefinition.relabel_type, BehaviourDefinition.relabel_eq]
    obtain ⟨events, loop, io, attachments, extras⟩ := b
    simp only [mem_nested, loopCharacteristics_mk, eventDefinitions_mk, ioSpecification_mk] at below
    simp only [relabel_eq, eventDefinitions, loopCharacteristics, ioSpecification,
      Behaviour.attachments, Behaviour.extras, Option.map_map, mk.injEq, and_true]
    refine ⟨?_, ?_, ?_⟩
    · cases events with
      | none => rfl
      | some ds =>
        simp only [Option.map_some, Function.comp_apply, List.map_map, Option.some.injEq]
        exact List.map_congr_left fun d hd => below d (.inr (.inl ⟨ds, rfl, hd⟩))
    · exact Option.map_congr fun d hd => below d (.inl hd)
    · exact Option.map_congr fun d hd => below d (.inr (.inr hd))

end Behaviour

end Bpmn
