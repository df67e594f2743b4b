import Bpmn.Proofs.Mapping.Origins
import Bpmn.Proofs.Model.Listed
import Bpmn.Proofs.Resolution.Sites

namespace Bpmn

/-- The faults that reading back a context declares. -/
def Fault.isDeclared : Fault → Bool
  | unreadable .. | unknownType _ => true
  | _ => false

theorem Resolver.fault?_eq_some {r : Resolver} {s : Site} {fault : Fault}
    (htype : ∃ text, s.type = .ofText text) (h : r.fault? s = some fault) :
    fault = .unknownType s.type ∨
      fault = .noField s.model "service_binding" ∧ r.Knows s.type ∧ s.IsRefused := by
  obtain ⟨text, htext⟩ := htype
  rcases Option.or_eq_some_iff.mp h with hfault | ⟨hknown, hservice⟩
  · rw [typeFault?] at hfault
    rcases r.lookup_cases s.type with ⟨behaviour, hlookup, -⟩ | hlookup | ⟨hother, -⟩
    · rw [hlookup] at hfault
      cases hfault
    · rw [hlookup] at hfault
      exact .inl (Option.some.inj hfault).symm
    · -- Only what is neither a text nor null cannot be looked up at all.
      exact absurd htext (hother text)
  · split at hservice
    · next hrefused =>
      exact .inr ⟨(Option.some.inj hservice).symm, r.typeFault?_eq_none.mp hknown, hrefused⟩
    · cases hservice

theorem Resolver.fault?_of_refused {r : Resolver} {s : Site} (hknown : r.Knows s.type)
    (h : s.IsRefused) : r.fault? s = some (.noField s.model "service_binding") := by
  rw [fault?, r.typeFault?_eq_none.mpr hknown, if_pos h, Option.none_or]

namespace MappedContext

variable {release : Release} {m : MappedContext} {r : Resolver}

/-- The context of a document or of a snapshot, before it is resolved. -/
inductive Presented : MappedContext → Prop where
  | mapped {g document extension m diary}
      (made : (ofDocument g document extension).result = .ok (m, diary)) : Presented m
  | accepted {release : Release} {s : Snapshot} {m} (made : s.check release = .valid m) : Presented m

theorem type_of_check {s : Snapshot} (h : s.check release = .valid m) :
    ∀ e ∈ m.entities, ∃ text, e.type = .ofText text := by
  rw [Snapshot.check] at h
  split at h
  · obtain ⟨fields, -, hreads⟩ := Check.reads_of_mappedContext h
    intro e he
    obtain ⟨key, inner, -, hentity⟩ := hreads.entities e he
    exact (Check.parts_of_entityFields hentity).1
  · cases h

theorem Presented.type (h : m.Presented) : ∀ e ∈ m.entities, ∃ text, e.type = .ofText text := by
  cases h with
  | mapped made =>
    obtain ⟨survey, hdraws⟩ := drawn_of_ofDocument made
    exact fun e he => (hdraws e he).type
  | accepted made => exact type_of_check made

theorem mem_sites {s : Site} (h : s ∈ m.sites) :
    s = .ofRoot m.definition ∨ ∃ model, ∃ e ∈ m.entities, s ∈ Site.ofEntity model e := by
  simp only [sites, List.mem_cons, List.mem_append, List.mem_flatMap] at h
  simp only [entities, List.mem_append, List.mem_map]
  rcases h with rfl | (((⟨p, hp, h⟩ | ⟨a, ha, h⟩) | ⟨d, hd, h⟩) | ⟨f, hf, h⟩) | ⟨f, hf, h⟩
  · exact .inl rfl
  · exact .inr ⟨.process, p.toEntity, .inl (.inl (.inl (.inl ⟨p, hp, rfl⟩))), h⟩
  · exact .inr ⟨.activity, a.toEntity, .inl (.inl (.inl (.inr ⟨a, ha, rfl⟩))), h⟩
  · exact .inr ⟨.dataObject, d.toEntity, .inl (.inl (.inr ⟨d, hd, rfl⟩)), h⟩
  · exact .inr ⟨.messageFlow, f.toEntity, .inl (.inr ⟨f, hf, rfl⟩), h⟩
  · exact .inr ⟨.sequenceFlow, f.toEntity, .inr ⟨f, hf, rfl⟩, h⟩

theorem Presented.type_site (h : m.Presented) {s : Site} (hs : s ∈ m.sites) :
    ∃ text, s.type = .ofText text := by
  rcases mem_sites hs with rfl | ⟨model, e, he, hmem⟩
  · exact ⟨m.definition.type, rfl⟩
  · rcases List.mem_cons.mp hmem with rfl | hnested
    · exact h.type e he
    · obtain ⟨d, -, rfl⟩ := List.mem_map.mp hnested
      exact ⟨d.type, rfl⟩

/-- The first site that cannot be bound is one of a model without services whose type is known and calls
for one. -/
def Refuses (m : MappedContext) (r : Resolver) (model : Model) : Prop :=
  ∃ before s after, m.sites = before ++ s :: after ∧ (∀ t ∈ before, r.Knows t.type ∧ ¬ t.IsRefused) ∧
    r.Knows s.type ∧ s.IsRefused ∧ s.model = model

theorem Refuses.resolve {model : Model} (h : m.Refuses r model) :
    (m.resolve (some r)).outcome.result = .error (.noField model "service_binding") := by
  obtain ⟨before, s, after, hsites, hbefore, hknown, hrefused, rfl⟩ := h
  refine (m.result_resolve_eq_error r).mpr
    ⟨before, s, after, hsites, r.fault?_of_refused hknown hrefused, ?_⟩
  intro t ht
  exact r.fault?_eq_none.mpr (hbefore t ht)

theorem Presented.resolve_eq_error (h : m.Presented) {fault : Fault}
    (hfault : (m.resolve (some r)).outcome.result = .error fault) :
    (∃ type, fault = .unknownType type) ∨
      ∃ model, fault = .noField model "service_binding" ∧ m.Refuses r model := by
  obtain ⟨before, s, after, hsites, hs, hbefore⟩ := (m.result_resolve_eq_error r).mp hfault
  have hmem : s ∈ m.sites := by simp [hsites]
  rcases r.fault?_eq_some (h.type_site hmem) hs with rfl | ⟨rfl, hknown, hrefused⟩
  · exact .inl ⟨s.type, rfl⟩
  · refine .inr ⟨s.model, rfl, before, s, after, hsites, ?_, hknown, hrefused, rfl⟩
    intro t ht
    exact r.fault?_eq_none.mp (hbefore t ht)

theorem resolved_eq_error {fault : Fault} : (m.resolved (some r)).result = .error fault ↔
    (m.resolve (some r)).outcome.result = .error fault := by
  rw [resolved, Traced.result_bind, error_bind]
  simp [Traced.result_pure]

theorem restore_eq_error {s : Snapshot} {fault : Fault} :
    (restore release s (some r)).result = .error fault ↔
      (∃ issues, s.check release = .invalid issues ∧ fault = .unreadable s.origin issues) ∨
        ∃ given, s.check release = .valid given ∧ (given.resolve (some r)).outcome.result = .error fault := by
  rw [restore, Traced.result_bind, error_bind, ofSnapshot]
  simp only [resolved_eq_error]
  cases s.check release with
  | invalid issues => simp [eq_comm]
  | valid given => simp [Traced.result_pure]

/-- A release has no part in what a value is read as. -/
theorem restore_value (release : Release) (j : Json) (resolver : Option Resolver) :
    restore release (.value j) resolver = restore .keeping (.value j) resolver := rfl

/-- Resolving the context of a document or a snapshot fails for an unknown type alone, and reading back for
that or a bad snapshot, exactly if no service is refused.  A refused service is an undeclared fault. -/
theorem declared_iff (r : Resolver) :
    (∀ m : MappedContext, m.Presented →
      ((∀ fault, (m.resolve (some r)).outcome.result = .error fault → ∃ type, fault = .unknownType type) ↔
        ∀ model, ¬ m.Refuses r model)) ∧
    (∀ release s, (∀ fault, (restore release s (some r)).result = .error fault → fault.isDeclared) ↔
      ∀ given, s.check release = .valid given → ∀ model, ¬ given.Refuses r model) ∧
    ∀ (m : MappedContext) (model : Model), m.Refuses r model →
      (m.resolve (some r)).outcome.result = .error (.noField model "service_binding") := by
  refine ⟨?_, ?_, fun m model h => h.resolve⟩
  · intro m hm
    constructor
    · intro hdeclared model hrefuses
      obtain ⟨type, htype⟩ := hdeclared _ hrefuses.resolve
      cases htype
    · intro hserves fault hfault
      rcases hm.resolve_eq_error hfault with hunknown | ⟨model, -, hrefuses⟩
      · exact hunknown
      · exact absurd hrefuses (hserves model)
  · intro release s
    constructor
    · intro hdeclared given hcheck model hrefuses
      have hfault := hdeclared _ (restore_eq_error.mpr (.inr ⟨given, hcheck, hrefuses.resolve⟩))
      cases hfault
    · intro hserves fault hfault
      rcases restore_eq_error.mp hfault with ⟨issues, -, rfl⟩ | ⟨given, hcheck, hresolve⟩
      · rfl
      · rcases (Presented.accepted hcheck).resolve_eq_error hresolve with
          ⟨type, rfl⟩ | ⟨model, -, hrefuses⟩
        · rfl
        · exact absurd hrefuses (hserves given hcheck model)

/-- A task with an event that calls for a service, as a document may have it. -/
def calling : Graph where
  contents := #[
    .object [("$type", .str "bpmn:SendTask"), ("implementation", .str "x")],
    .list [.node 0],
    .object [("$type", .str "bpmn:Task"), ("eventDefinitions", .list 1)],
    .list [.node 2],
    .object [("$type", .str Kind.process), ("flowElements", .list 3)],
    .list [.node 4],
    .object [("$type", .str "bpmn:Definitions"), ("rootElements", .list 5)],
    .object [("rootElement", .node 6)]]

def tasks : Resolver :=
  Resolver.ofTypes [("Definition", .str "D"), ("Process", .str "P"), ("Task", .str "T"),
    ("SendTask", .str "T"), ("ServiceTask", .str "T")]

theorem declared_iff_calling :
    ∃ m : MappedContext, m.Presented ∧ ∃ model, m.Refuses tasks model ∧
      (m.resolve (some tasks)).outcome.result = .error (.noField model "service_binding") := by
  have hruns : ((ofDocument calling (.node 7) none).result.toOption.map fun made =>
      match (made.1.resolve (some tasks)).outcome.result with
      | .error fault => fault.isDeclared
      | .ok _ => true) = some false := by
    decide +kernel
  cases hmapped : (ofDocument calling (.node 7) none).result with
  | error fault =>
    rw [hmapped] at hruns
    cases hruns
  | ok made =>
    obtain ⟨m, diary⟩ := made
    obtain ⟨hresolve, -, hrefused⟩ := declared_iff tasks
    have hm : m.Presented := .mapped hmapped
    have hundeclared : ¬ ∀ fault, (m.resolve (some tasks)).outcome.result = .error fault →
        ∃ type, fault = .unknownType type := by
      intro hdeclared
      rw [hmapped, Except.toOption, Option.map_some] at hruns
      dsimp only at hruns
      cases hresult : (m.resolve (some tasks)).outcome.result with
      | ok u =>
        rw [hresult] at hruns
        cases hruns
      | error fault =>
        obtain ⟨type, rfl⟩ := hdeclared fault hresult
        rw [hresult] at hruns
        cases hruns
    rw [hresolve m hm, not_forall] at hundeclared
    obtain ⟨model, hnot⟩ := hundeclared
    have hmodel : m.Refuses tasks model := not_not.mp hnot
    exact ⟨m, hm, model, hmodel, hrefused m model hmodel⟩

theorem exists_undeclared {x : Except Fault MappedContext} (h : (match x with
      | .error fault => fault.isDeclared
      | .ok _ => true) = false) : ∃ fault, x = .error fault ∧ fault.isDeclared = false := by
  cases x with
  | error fault => exact ⟨fault, rfl, h⟩
  | ok m => cases h

/-- A snapshot may have the type of a task with a service at a process, which is refused one. -/
theorem restore_undeclared :
    let process : Json := .obj [("type", .str "bpmn:ServiceTask"),
      ("behaviour", .obj [("implementation", .str "x")])]
    let snapshot : Json := .obj [("definition", .obj [("type", .str "bpmn:Definitions")]),
      ("processes", .arr [process])]
    ∀ release, ∃ fault, (restore release (.value snapshot) (some tasks)).result = .error fault ∧
      fault.isDeclared = false := by
  intro process snapshot release
  rw [restore_value]
  exact exists_undeclared (by decide +kernel)

end MappedContext

end Bpmn
