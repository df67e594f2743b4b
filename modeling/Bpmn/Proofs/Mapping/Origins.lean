import Bpmn.Proofs.Mapping.Yield
import Bpmn.Proofs.Model.Unbound

namespace Bpmn

namespace Survey

variable (s : Survey)

/-- A script of the document, or one that has been registered on a visit. -/
def Writes (script : Script) : Prop :=
  (∃ place, s.taskScript place = .ok script) ∨
    (∃ place scripts, s.flowScripts place = .ok scripts ∧ script ∈ scripts) ∨
    ∃ place d scripts d', (s.visit place).Gives d scripts d' ∧ script ∈ scripts

/-- The origins of flattened entities. -/
structure Makes (f : Flattened) : Prop where
  processes : ∀ p ∈ f.processes, ∃ parent place,
    s.graph.IsA place Kind.process ∧ s.process parent place = .ok p
  activities : ∀ a ∈ f.activities, ∃ parent place,
    s.activity parent [] place = .ok a ∨ s.boundaryEvent parent place = .ok a
  dataObjects : ∀ d ∈ f.dataObjects, ∃ parent place,
    s.graph.IsA place Kind.dataObject ∧ s.dataObject parent place = .ok d
  sequenceFlows : ∀ e ∈ f.sequenceFlows, ∃ parent edge place,
    s.graph.IsA place Kind.sequenceFlow ∧ s.sequenceFlow parent edge place = .ok e
  messageFlows : ∀ e ∈ f.messageFlows, ∃ parent place,
    s.graph.IsA place Kind.messageFlow ∧ s.messageFlow parent place = .ok e
  scripts : ∀ script ∈ f.scripts, s.Writes script

variable {s}

namespace Makes

variable {f f' : Flattened}

theorem empty : s.Makes .empty := by
  constructor <;> simp [Flattened.empty]

theorem ofScripts {scripts : List Script} (h : ∀ script ∈ scripts, s.Writes script) :
    s.Makes (Flattened.ofScripts scripts) :=
  { empty with scripts := h }

theorem append (h : s.Makes f) (h' : s.Makes f') : s.Makes (f ++ f') where
  processes := List.forall_mem_append.mpr ⟨h.processes, h'.processes⟩
  activities := List.forall_mem_append.mpr ⟨h.activities, h'.activities⟩
  dataObjects := List.forall_mem_append.mpr ⟨h.dataObjects, h'.dataObjects⟩
  sequenceFlows := List.forall_mem_append.mpr ⟨h.sequenceFlows, h'.sequenceFlows⟩
  messageFlows := List.forall_mem_append.mpr ⟨h.messageFlows, h'.messageFlows⟩
  scripts := List.forall_mem_append.mpr ⟨h.scripts, h'.scripts⟩

theorem carried (h : s.Makes f) : s.Makes f.carried :=
  { h with processes := empty.processes, messageFlows := empty.messageFlows }

theorem messages (h : s.Makes f) : s.Makes f.messages := { empty with messageFlows := h.messageFlows }

end Makes

variable {parent scope : ScopeRef} {place : Nat} {own : Flattened}

theorem makes_leaf (h : s.leaf parent (s.graph.field place "$type") place = .ok own) :
    s.Makes own := by
  have single {a : Activity} {scripts : List Script}
      (ha : s.activity parent [] place = .ok a ∨ s.boundaryEvent parent place = .ok a)
      (hscripts : ∀ script ∈ scripts, s.Writes script) :
      s.Makes { Flattened.empty with activities := [a], scripts } := by
    exact { Makes.empty with
      activities := List.forall_mem_singleton.mpr ⟨parent, place, ha⟩
      scripts := hscripts }
  simp only [leaf, Value.isText_iff] at h
  split at h
  · next kind =>
    simp only [ok_bind, ok_pure] at h
    obtain ⟨flow, hflow, rfl⟩ := h
    exact { Makes.empty with
      messageFlows := List.forall_mem_singleton.mpr ⟨parent, place, kind, hflow⟩ }
  split at h
  · next kind =>
    simp only [ok_bind, ok_pure] at h
    obtain ⟨object, hobject, rfl⟩ := h
    exact { Makes.empty with
      dataObjects := List.forall_mem_singleton.mpr ⟨parent, place, kind, hobject⟩ }
  split at h
  · next kind =>
    simp only [ok_bind, ok_pure] at h
    obtain ⟨edge, -, scripts, hscripts, flow, hflow, rfl⟩ := h
    exact { Makes.empty with
      sequenceFlows := List.forall_mem_singleton.mpr ⟨parent, edge, place, kind, hflow⟩
      scripts := fun script hscript => .inr (.inl ⟨place, scripts, hscripts, hscript⟩) }
  split at h
  · simp only [ok_bind, ok_pure] at h
    obtain ⟨event, hevent, rfl⟩ := h
    exact single (.inr hevent) Makes.empty.scripts
  rw [ok_bind] at h
  obtain ⟨activity, hactivity, h⟩ := h
  split at h
  · simp only [ok_bind, ok_pure] at h
    obtain ⟨script, hscript, _, rfl, rfl⟩ := h
    exact single (.inl hactivity) (List.forall_mem_singleton.mpr (.inl ⟨place, hscript⟩))
  · simp only [ok_bind, ok_pure] at h
    obtain ⟨_, rfl, rfl⟩ := h
    exact single (.inl hactivity) Makes.empty.scripts

theorem makes_container
    (h : s.container parent (s.graph.field place "$type") place = .ok (own, scope)) :
    s.Makes own := by
  simp only [container, Value.isText_iff] at h
  split at h
  · next kind =>
    simp only [ok_bind, ok_pure, Prod.mk.injEq] at h
    obtain ⟨p, hp, _, -, rfl, -⟩ := h
    exact { Makes.empty with
      processes := List.forall_mem_singleton.mpr ⟨parent, place, kind, hp⟩ }
  · simp only [ok_bind, ok_pure, Prod.mk.injEq] at h
    obtain ⟨a, ha, _, -, rfl, -⟩ := h
    exact { Makes.empty with
      activities := List.forall_mem_singleton.mpr ⟨parent, place, .inl ha⟩ }

theorem Makes.visit {d d' : Diary} {scripts : List Script} (h : (s.visit place).Gives d scripts d') :
    s.Makes (Flattened.ofScripts scripts) :=
  .ofScripts fun _ hscript => .inr (.inr ⟨place, d, scripts, d', h, hscript⟩)

/-- Everything that a walk yields has been made of an element. -/
theorem Yields.makes {items : List Value} {d d' : Diary} {f : Flattened}
    (h : s.Yields parent items d f d') : s.Makes f := by
  induction h with
  | nil => exact .empty
  | skipped _ _ ih => exact ih
  | collaboration _ _ _ _ ihb ihl => exact ihb.messages.append ihl
  | scope _ made seen _ _ _ ihb ihl =>
    exact (((makes_container made).append (.visit seen)).append ihb.carried).append ihl
  | leaf _ _ made seen _ ih => exact ((makes_leaf made).append (.visit seen)).append ih

theorem parts_of_entity {behaviour : Behaviour} {e : Entity}
    (h : s.entity parent place behaviour = .valid e) :
    (∃ text, e.type = .ofText text) ∧ e.behaviour = behaviour := by
  obtain ⟨_, _, h₁, -, rfl⟩ := Checked.seq_eq_valid.mp h
  obtain ⟨_, type, h₂, htype, rfl⟩ := Checked.seq_eq_valid.mp h₁
  obtain ⟨_, -, rfl⟩ := Checked.map_eq_valid.mp h₂
  obtain ⟨text, -, rfl⟩ := Checked.map_eq_valid.mp htype
  exact ⟨⟨text, rfl⟩, rfl⟩

/-- An element as an entity, with any bundle. -/
def Draws (s : Survey) (e : Entity) : Prop :=
  ∃ parent place behaviour, s.entity parent place behaviour = .valid e

theorem Draws.type {e : Entity} (h : s.Draws e) : ∃ text, e.type = .ofText text := by
  obtain ⟨parent, place, behaviour, h⟩ := h
  exact (parts_of_entity h).1

theorem Makes.drawn_activity {f : Flattened} (h : s.Makes f) :
    ∀ a ∈ f.activities, s.Draws a.toEntity ∧ a.serviceBinding = .null := by
  have drawn {a : Activity} {extra : List (String × Json)} {parent : ScopeRef} {place : Nat}
      (ha : s.activity parent extra place = .ok a) :
      s.Draws a.toEntity ∧ a.serviceBinding = .null := by
    obtain ⟨b, -, he, hservice⟩ := entity_of_activity ha
    exact ⟨⟨parent, place, b, he⟩, hservice⟩
  intro a ha
  obtain ⟨parent, place, hactivity | hevent⟩ := h.activities a ha
  · exact drawn hactivity
  · obtain ⟨_, -, hactivity⟩ := activity_of_boundaryEvent hevent
    exact drawn hactivity

end Survey

namespace MappedContext

variable {g : Graph} {document : Value} {extension : Option Extension} {m : MappedContext} {diary : Diary}

/-- Every entity of a document is an element of it. -/
theorem drawn_of_ofDocument (h : (ofDocument g document extension).result = .ok (m, diary)) :
    ∃ s : Survey, ∀ e ∈ m.entities, s.Draws e := by
  obtain ⟨root, definition, links, items, f, -, -, hyields, rfl⟩ := yields_of_ofDocument h
  have hf := hyields.makes
  refine ⟨g.survey links root extension, ?_⟩
  intro e he
  simp only [entities, ofFlattened, List.mem_append, List.mem_map] at he
  rcases he with (((⟨p, hp, rfl⟩ | ⟨a, ha, rfl⟩) | ⟨d, hd, rfl⟩) | ⟨e, he, rfl⟩) | ⟨e, he, rfl⟩
  · obtain ⟨_, _, -, hp⟩ := hf.processes p hp
    obtain ⟨b, -, he⟩ := Survey.entity_of_process hp
    exact ⟨_, _, b, he⟩
  · exact (hf.drawn_activity a ha).1
  · obtain ⟨_, _, -, hd⟩ := hf.dataObjects d hd
    obtain ⟨⟨b, -, he⟩, -⟩ := Survey.entity_of_dataObject hd
    exact ⟨_, _, b, he⟩
  · obtain ⟨_, _, -, he⟩ := hf.messageFlows e he
    obtain ⟨b, -, he⟩ := Survey.entity_of_messageFlow he
    exact ⟨_, _, b, he⟩
  · obtain ⟨_, _, _, -, he⟩ := hf.sequenceFlows e he
    obtain ⟨b, -, he⟩ := Survey.entity_of_sequenceFlow he
    exact ⟨_, _, b, he⟩

/-- No activity of a document has a service. -/
theorem services_of_ofDocument (h : (ofDocument g document extension).result = .ok (m, diary)) :
    ∀ a ∈ m.activities, a.serviceBinding = .null := by
  obtain ⟨root, definition, links, items, f, -, -, hyields, rfl⟩ := yields_of_ofDocument h
  intro a ha
  exact (hyields.makes.drawn_activity a ha).2

end MappedContext

end Bpmn
