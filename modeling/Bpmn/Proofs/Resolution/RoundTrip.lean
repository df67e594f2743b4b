import Bpmn.Proofs.Json.Limits
import Bpmn.Proofs.Json.RoundTrip
import Bpmn.Proofs.Mapping.Orderly
import Bpmn.Proofs.Model.Modes
import Bpmn.Proofs.Model.Written
import Bpmn.Proofs.Resolution.Bound
import Bpmn.Proofs.Resolution.Frame
import Mathlib.Algebra.Group.Int.Defs

namespace Bpmn

namespace Resolver

variable (r : Resolver)

theorem entities_boundContext (m : MappedContext) :
    (r.boundContext m).entities = m.entities.map r.boundEntity := by
  simp [MappedContext.entities, boundContext, boundActivity, Function.comp_def]

theorem bundles_boundContext (m : MappedContext) :
    (r.boundContext m).bundles = m.bundles.map r.bound := by
  rw [MappedContext.bundles, MappedContext.bundles, entities_boundContext, List.flatMap_map,
    List.map_flatMap]
  apply List.flatMap_congr
  intro e _
  exact e.behaviour.bundles_relabel _

/-- A bundle in a restored context shows what the same bundle shows in the former one. -/
theorem get_bundles_boundContext (m : MappedContext) (key : String) (default : Json) :
    (r.boundContext m.unbound).bundles.map (·.get key default) =
      m.bundles.map (·.get key default) := by
  have hbundles : (r.boundContext m.unbound).bundles = m.bundles.map r.bound := by
    rw [← bundles_boundContext, MappedContext.bundles, MappedContext.bundles, entities_boundContext,
      entities_boundContext, MappedContext.entities_unbound, List.map_map]
    congr 1
    apply List.map_congr_left
    intro e _
    exact r.boundEntity_unbound e
  rw [hbundles, List.map_map]
  apply List.map_congr_left
  intro b _
  exact b.get_relabel _ key default

end Resolver

namespace MappedContext

/-- A snapshot without infinite numbers that is a text or a JSON value.  The integers of a value may be of any
length, and a value may be nested to any depth. -/
def Snapshot.IsJson (s : Snapshot) : Prop :=
  ∀ j, s.value? = some j → j.Finite ∧ (s = .value j → j.Orderly Number.Finite)

/-- A context has been mapped from a JSON document or accepted from a snapshot by some release, neither of them
with infinite numbers, and may have been resolved since, with success or without. -/
inductive Arises : MappedContext → Prop where
  | mapped {j : Json} {extension m diary} (isJson : j.Orderly Number.Finite)
      (made : (ofDocument (Graph.ofJson j).1 (Graph.ofJson j).2 extension).result = .ok (m, diary)) :
      Arises m
  | accepted {release : Release} {s : Snapshot} {m} (isJson : s.IsJson) (made : s.check release = .valid m) :
      Arises m
  | resolved {m r} (former : Arises m) : Arises (m.resolve r).context

theorem Snapshot.IsJson.orderly {s : Snapshot} (hs : s.IsJson) {j : Json} (hj : s.value? = some j) :
    j.Orderly Number.Finite := by
  obtain ⟨hfinite, hvalue⟩ := hs j hj
  have htext {t : String} (ht : Json.read? t = some j) : j.Orderly Number.Finite :=
    (Json.sound_iff.mp (Json.sound_read? ht hfinite)).mono fun _ => Number.Sound.finite
  cases s with
  | text t => exact htext hj
  | bytes b =>
    obtain ⟨t, -, ht⟩ := Option.bind_eq_some_iff.mp hj
    exact htext ht
  | value j' =>
    obtain rfl := Option.some.inj hj
    exact hvalue rfl

theorem Snapshot.orderly_of_check {release : Release} {s : Snapshot} {m : MappedContext} (hs : s.IsJson)
    (h : s.check release = .valid m) : m.Orderly Number.Finite := by
  rw [check] at h
  split at h
  · next j hj => exact Check.orderly_of_mappedContext (hs.orderly hj) h
  · cases h

theorem Arises.orderly {m : MappedContext} (h : m.Arises) : m.Orderly Number.Finite := by
  induction h with
  | mapped isJson made => exact orderly_ofDocument (Graph.layered_ofJson isJson) made
  | accepted isJson made => exact Snapshot.orderly_of_check isJson made
  | @resolved m r _ ih =>
    rw [← orderly_unbound, m.unbound_resolve r, orderly_unbound]
    exact ih

theorem arises_of_build {j : Json} {extension : Option Extension} {m : MappedContext} {r : Resolver}
    (hj : j.Orderly Number.Finite)
    (h : (build (Graph.ofJson j).1 (Graph.ofJson j).2 (some r) extension).result = .ok m) :
    m.Arises := by
  obtain ⟨mapped, diary, hmapped, hresolved⟩ := build_eq_ok.mp h
  rw [resolved, Traced.result_bind] at hresolved
  obtain ⟨_, -, hcontext⟩ := ok_bind.mp hresolved
  obtain rfl : (mapped.resolve (some r)).context = m := Except.ok.inj hcontext
  exact .resolved (.mapped hj hmapped)

/-- What is built from a document is mapped from it and then resolved. -/
theorem boundContext_of_build {g : Graph} {document : Value} {extension : Option Extension}
    {m : MappedContext} {r : Resolver} (h : (build g document (some r) extension).result = .ok m) :
    ∃ mapped : MappedContext, mapped.Unserved ∧ m = r.boundContext mapped := by
  obtain ⟨mapped, diary, hmapped, hresolved⟩ := build_eq_ok.mp h
  have hservices := services_of_ofDocument hmapped
  exact ⟨mapped, fun a ha _ => hservices a ha, (resolved_eq_ok.mp hresolved).2⟩

/-- What is read as a context without its bindings is restored with new ones. -/
theorem restore_unbound {release : Release} {m : MappedContext} {s : Snapshot} {r : Resolver}
    (hcheck : s.check release = .valid m.unbound) (hbinds : r.BindsContext m) :
    (restore release s (some r)).result = .ok (r.boundContext m.unbound) :=
  restore_eq_ok.mpr ⟨m.unbound, hcheck, resolved_eq_ok.mpr ⟨r.bindsContext_unbound hbinds, rfl⟩⟩

/-- The text of a snapshot is read as the context without its bindings, and without the raw fields that the
release drops. -/
theorem check_text_of_serialize {release : Release} {m : MappedContext} {indent : Option Int} {text : String}
    (h : m.Orderly Number.Finite) (hdepth : m.toJson.depth ≤ Json.snapshotDepth)
    (htext : m.serialize release indent = .ok text) :
    (Snapshot.text text).check release =
      .valid (m.unbound.mapEntities (Entity.trim (Check.dropped (.text release)))) := by
  obtain ⟨written, hsnapshot, -, -, hshort, rfl⟩ := serialize_eq_ok.mp htext
  rw [h.snapshot_eq_of_finite, if_pos (release.writes_of_depth_le _ hdepth)] at hsnapshot
  obtain rfl := Except.ok.inj hsnapshot
  have hsound : m.toJson.Sound := h.toJson.sound_of_isShort hshort
  rw [Snapshot.check, Snapshot.value?, Json.read?_render hsound hdepth indent]
  exact Check.mappedContext_text h release

theorem writes_keeping (j : Json) : Release.keeping.writes j = decide (j.depth ≤ 255) := rfl

/-- A power of ten is short while its exponent is below the limit of digits. -/
theorem isShort_power (k : Nat) : (Json.num (.int (10 ^ k))).isShort = decide (k < digitLimit) := by
  have hpower : (10 ^ k : Int).natAbs = 10 ^ k := Int.natAbs_pow 10 k
  rw [Json.isShort, hpower, decide_eq_decide, digitCount_le_iff (by decide)]
  exact Nat.pow_lt_pow_iff_right (by decide)

/-- A context of one process, and perhaps a raw field under the second key of a member. -/
def bearing (raw : Option Json) : MappedContext where
  id := none
  type := none
  name := none
  definition := ⟨.null, none, some "bpmn:Definitions", none, none, none, none⟩
  activities := []
  dataObjects := []
  messageFlows := []
  processes := [⟨⟨.null, none, .str "bpmn:Process", none, .unknown,
    .mk none none none .none (raw.toList.map ("event_definitions", ·))⟩⟩]
  sequenceFlows := []
  scripts := []

/-- A resolver that knows what is in such a context. -/
def bearer : Resolver := Resolver.ofTypes [("Definition", .str "D"), ("Process", .str "P")]

section Bearing

variable {raw : Option Json} {x : Json}

theorem resolved_bearing : ((bearing raw).resolved (some bearer)).result =
    .ok (bearer.boundContext (bearing raw)) := by
  refine resolved_eq_ok.mpr ⟨?_, rfl⟩
  exact {
    definition := ⟨.str "D", rfl⟩
    processes := List.forall_mem_singleton.mpr ⟨⟨⟨.str "P", rfl⟩, List.forall_mem_nil _⟩, rfl⟩
    activities := List.forall_mem_nil _
    dataObjects := List.forall_mem_nil _
    messageFlows := List.forall_mem_nil _
    sequenceFlows := List.forall_mem_nil _ }

theorem orderly_bearing (hraw : ∀ x ∈ raw, x.Orderly Number.Finite) :
    (bearing raw).Orderly Number.Finite where
  entities := by
    refine List.forall_mem_singleton.mpr ⟨⟨some "bpmn:Process", rfl⟩, .mk Attachments.orderly_none ?_ ?_ ?_⟩
    · cases raw <;> simp_all [Fields.Distinct, Fields.keys]
    · cases raw <;> simp [Fields.keys, Member.all, Member.key]
    · exact List.forall_mem_nil _
  references := List.forall_mem_nil _
  scripts := List.forall_mem_nil _

theorem orderly_bearing_some (hx : x.Orderly Number.Finite) : (bearing (some x)).Orderly Number.Finite :=
  orderly_bearing fun _ h => Option.some.inj h ▸ hx

theorem arises_bearing (hx : x.Orderly Number.Finite) : (bearing (some x)).Arises := by
  have horderly := orderly_bearing_some hx
  have hcheck : (Snapshot.value (bearing (some x)).toJson).check .keeping = .valid (bearing (some x)) :=
    Check.mappedContext_toJson horderly
  refine .accepted ?_ hcheck
  rintro _ ⟨⟩
  exact ⟨horderly.toJson.finite, fun _ => horderly.toJson⟩

theorem measures_bearing : (bearing (some x)).toJson.isShort = x.isShort ∧
    (bearing (some x)).toJson.depth = x.depth + 4 := by
  simp [bearing, toJson, Json.isShort, Json.fieldsAreShort, Json.areShort, Json.depth, Json.depthOfFields,
    Json.depthOfItems, Json.ofText, Json.ofOption, Definition.toJson, ScopeRef.toJson, ScopeRef.unknown,
    Entity.toJson, Entity.toFields, Behaviour.toJson_eq, Behaviour.member, Member.all, optional, optionalList,
    Attachments.none]

/-- A text of a shallow value is made if its indent can be and the value is short. -/
theorem serialize_bearing (hx : x.Orderly Number.Finite) (hdepth : x.depth ≤ 196) (release : Release)
    (indent : Option Int) :
    (bearing (some x)).serialize release indent =
      if !Json.Layout.fits indent then .error .unfitIndent
      else if !Json.Layout.isHeld indent then .error .noMemory
      else if !x.isShort then .error .tooLong
      else .ok ((bearing (some x)).toJson.render indent) := by
  have hwrites : release.writes (bearing (some x)).toJson = true := by
    apply release.writes_of_depth_le
    rw [measures_bearing.2]
    exact Nat.add_le_add_right hdepth 4
  rw [serialize, (orderly_bearing_some hx).snapshot_eq_of_finite, if_pos hwrites]
  simp only [bind, Except.bind, pure, Except.pure, throw, throwThe, MonadExceptOf.throw, measures_bearing.1]

end Bearing

end MappedContext

end Bpmn
