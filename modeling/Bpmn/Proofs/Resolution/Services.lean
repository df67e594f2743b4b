import Bpmn.Proofs.Mapping.Origins
import Bpmn.Proofs.Model.Listed
import Bpmn.Proofs.Resolution.Bound

namespace Bpmn.MappedContext

variable {m : MappedContext} {r : Resolver}

/-- The activities that call for a service have that of a resolver, and all others have none. -/
def ServedBy (m : MappedContext) (r : Resolver) : Prop :=
  ∀ a ∈ m.activities, a.serviceBinding = if callsService a.type a.behaviour then r.service else .null

theorem services_boundContext (m : MappedContext) (r : Resolver) :
    (r.boundContext m).activities.map (·.serviceBinding) = m.activities.map fun a =>
      if callsService a.type a.behaviour then r.service else a.serviceBinding := by
  simp [Resolver.boundContext, Resolver.boundActivity]

theorem servedBy_boundContext : (r.boundContext m).ServedBy r ↔ m.Unserved := by
  have hactivity (a : Activity) : (r.boundActivity a).serviceBinding =
      (if callsService (r.boundActivity a).type (r.boundActivity a).behaviour then r.service
        else .null) ↔ (callsService a.type a.behaviour = false → a.serviceBinding = .null) := by
    -- The bound activity calls for a service if the former one does.
    have hcalls : callsService (r.boundActivity a).type (r.boundActivity a).behaviour =
        callsService a.type a.behaviour := r.callsService_bound a.type a.behaviour
    rw [hcalls, Resolver.boundActivity]
    cases callsService a.type a.behaviour <;> simp
  simp only [ServedBy, Unserved, Resolver.boundContext, List.forall_mem_map, hactivity]

/-- What the activities of a snapshot say of their services. -/
def Snapshot.services (s : Snapshot) : List Json :=
  match s.value? with
  | some j => (j.itemsUnder "activities").map (·.fieldOrNull "service_binding")
  | none => []

theorem Snapshot.services_of_check {release : Release} {s : Snapshot} (h : s.check release = .valid m) :
    m.activities.map (·.serviceBinding) = s.services := by
  rw [check] at h
  split at h
  · next j hj =>
    rw [services, hj]
    exact Check.services_of_mappedContext h
  · cases h

/-- What is built has the services that its resolver gives.  What is restored has them exactly if the
snapshot has named no service for an activity that calls for none: such a service is kept. -/
theorem servedBy_iff (r : Resolver) :
    (∀ g document extension m, (build g document (some r) extension).result = .ok m → m.ServedBy r) ∧
    ∀ release s m, (restore release s (some r)).result = .ok m →
      ∃ given, s.check release = .valid given ∧ given.activities.map (·.serviceBinding) = s.services ∧
        m.activities.map (·.serviceBinding) = given.activities.map (fun a =>
          if callsService a.type a.behaviour then r.service else a.serviceBinding) ∧
        (m.ServedBy r ↔ given.Unserved) := by
  constructor
  · intro g document extension m hbuild
    obtain ⟨mapped, diary, hmapped, hresolved⟩ := build_eq_ok.mp hbuild
    obtain ⟨-, rfl⟩ := resolved_eq_ok.mp hresolved
    have hnone := services_of_ofDocument hmapped
    exact servedBy_boundContext.mpr fun a ha _ => hnone a ha
  · intro release s m hrestore
    obtain ⟨given, hcheck, hresolved⟩ := restore_eq_ok.mp hrestore
    obtain ⟨-, rfl⟩ := resolved_eq_ok.mp hresolved
    exact ⟨given, hcheck, Snapshot.services_of_check hcheck, services_boundContext given r,
      servedBy_boundContext⟩

/-- A service task and a plain one, both with a service. -/
def serving : Json :=
  let task (type : String) (behaviour : Json) : Json :=
    .obj [("type", .str type), ("behaviour", behaviour), ("service_binding", .str "old")]
  .obj [("definition", .obj [("type", .str "bpmn:Definitions")]),
    ("activities", .arr [task "bpmn:ServiceTask" (.obj [("implementation", .str "x")]),
      task "bpmn:Task" (.obj [])])]

def withService : Resolver :=
  Resolver.ofTypes [("Definition", .str "D"), ("ServiceTask", .str "T"), ("Task", .str "T"),
    ("ServiceImplementation", .str "S")]

theorem servedBy_iff_serving :
    ∃ m given, (restore .keeping (.value serving) (some withService)).result = .ok m ∧
      (Snapshot.value serving).check .keeping = .valid given ∧
      given.activities.map (·.serviceBinding) = [.str "old", .str "old"] ∧
      (m.ServedBy withService ↔ given.Unserved) := by
  have hsome : (restore .keeping (.value serving) (some withService)).result.toOption.isSome = true := by
    decide +kernel
  cases hrun : (restore .keeping (.value serving) (some withService)).result with
  | error fault =>
    rw [hrun] at hsome
    cases hsome
  | ok m =>
    obtain ⟨given, hcheck, hservices, -, hserved⟩ := (servedBy_iff withService).2 .keeping (.value serving) m hrun
    exact ⟨m, given, rfl, hcheck, hservices, hserved⟩

/-- A task that calls for no service keeps the one that a snapshot names for it. -/
theorem service_kept :
    let task : Json := .obj [("type", .str "bpmn:Task"), ("service_binding", .str "x")]
    let snapshot : Json := .obj [("definition", .obj [("type", .str "bpmn:Definitions")]),
      ("activities", .arr [task])]
    ∃ m, (restore .keeping (.value snapshot) (some withService)).result = .ok m ∧ ¬ m.ServedBy withService := by
  intro task snapshot
  refine ⟨_, rfl, ?_⟩
  intro hserved
  cases hserved _ (List.mem_singleton_self _)

end Bpmn.MappedContext
