import Bpmn.Proofs.Document.Clean
import Bpmn.Proofs.Mapping.Yield
import Bpmn.Proofs.Model.Checks

namespace Bpmn

/-- A key of several references, of a reference by a plain name, or an internal one. -/
def Key.IsDropped (key : String) : Prop :=
  isRefList key = true ∨ key ∈ ["default", "incoming", "outgoing"] ∨
    (key.toList.head? = some '$' ∧ key ≠ "$type")

/-- What a single reference is kept as. -/
def Graph.described (g : Graph) : Value → Json
  | .node place => g.descriptor place
  | _ => .null

namespace Bundle

/-- A type of definition, a field that is computed for it, and the field of the wrapper. -/
inductive Computes : String → String → String → Prop where
  | expression : Computes "bpmn:ConditionalEventDefinition" "expression" "condition"
  | loopCardinality : Computes "bpmn:MultiInstanceLoopCharacteristics" "loopCardinality" "loopCardinality"
  | completionCondition :
    Computes "bpmn:MultiInstanceLoopCharacteristics" "completionCondition" "completionCondition"
  | timeDuration : Computes "bpmn:TimerEventDefinition" "timeDuration" "timeDuration"
  | timeCycle : Computes "bpmn:TimerEventDefinition" "timeCycle" "timeCycle"
  | timeDate : Computes "bpmn:TimerEventDefinition" "timeDate" "timeDate"

/-- A field is computed for the type of a definition from a wrapper. -/
def ComputedFrom (g : Graph) (place : Nat) (key wrapper : String) : Prop :=
  ∃ type, g.field place "$type" = .str type ∧ Computes type key wrapper

/-- A key that is neither that of a typed member nor computed. -/
structure IsRaw (g : Graph) (place : Nat) (key : String) : Prop where
  untyped : Member.ofKey? key = none
  uncomputed : ∀ wrapper, ¬ ComputedFrom g place key wrapper

/-- What a definition keeps, besides its typed members, of an object with some own fields. -/
structure Keeps (g : Graph) (place : Nat) (own extras : List (String × Json)) : Prop where
  described : ∀ key v, (key, v) ∈ g.fields place → IsRaw g place key → Key.isRef key = true →
    Fields.get? extras key = some (g.described v)
  dropped : ∀ key, IsRaw g place key → Key.isRef key = false → Key.IsDropped key →
    key ∉ Fields.keys extras
  copied : ∀ key ∈ Fields.keys (g.fields place), IsRaw g place key → Key.isRef key = false →
    ¬ Key.IsDropped key → ∃ j, Fields.get? own key = some j ∧ Fields.get? extras key = some j
  body : ∀ key wrapper, ComputedFrom g place key wrapper →
    ∀ q, g.field place wrapper = .node q → Fields.get? extras key = some (g.unfold (g.field q "body"))
  unwrapped : ∀ key wrapper, ComputedFrom g place key wrapper →
    (∀ q, g.field place wrapper ≠ .node q) → Fields.get? extras key = some .null
  only : ∀ key ∈ Fields.keys extras,
    key ∈ Fields.keys (g.fields place) ∨ ∃ wrapper, ComputedFrom g place key wrapper

end Bundle

theorem Key.isOwn_iff_not_isDropped {key : String} :
    isOwn key = true ↔ isRef key = false ∧ ¬ IsDropped key := by
  rw [isOwn_iff, IsDropped, isReference]
  by_cases htype : key = "$type"
  · subst htype
    decide
  · simp [htype, plainReferences]
    tauto

namespace Graph

variable {g : Graph} {place : Nat}

/-- A reference is described by what stands in the object that it names. -/
theorem described_of_spread {v : Value} {j : Json} (h : g.spread v = .ok j) : j = g.described v := by
  obtain ⟨ref, href, h⟩ := ok_bind.mp h
  obtain rfl := ok_pure.mp h
  cases v with
  | node q =>
    obtain ⟨r, hr, href⟩ := ok_bind.mp href
    obtain rfl := ok_pure.mp href
    obtain ⟨_, name, h₁, hname, rfl⟩ := Checked.seq_eq_valid.mp (Checked.as_eq_ok.mp hr)
    obtain ⟨_, type, h₂, htype, rfl⟩ := Checked.seq_eq_valid.mp h₁
    obtain ⟨id, hid, rfl⟩ := Checked.map_eq_valid.mp h₂
    have hid := Value.text_eq_valid.mp hid
    have htype := Value.text_eq_valid.mp htype
    have hname := Value.text_eq_valid.mp hname
    rw [described, descriptor, hid, htype, hname]
    rfl
  | _ =>
    obtain rfl := ok_pure.mp href
    rfl

/-- A copy has no keys but the own ones of its object. -/
theorem mem_keys_of_ownFieldsAt {own : List (String × Json)} {key : String} (h : g.ownFieldsAt place = .ok own) :
    key ∈ Fields.keys own ↔ key ∈ Fields.keys (g.fields place) ∧ Key.isOwn key = true := by
  rw [← (Fields.ok_mapM_values.mp h).keys_eq, keys_ownEntries, List.mem_filter]

/-- Own fields with described references hold under a key of a single reference what it names, and under
every other key what a copy holds. -/
theorem get?_spreadFields {fields : List (String × Json)} (hdistinct : (g.fields place).Distinct)
    (h : g.spreadFields place = .ok fields) :
    ∃ own, g.ownFieldsAt place = .ok own ∧ ∀ key, Fields.get? fields key =
      if Key.isRef key = true then (Fields.get? (g.fields place) key).map g.described
      else Fields.get? own key := by
  obtain ⟨own, hown, h⟩ := ok_bind.mp h
  obtain ⟨spread, hspread, h⟩ := ok_bind.mp h
  obtain rfl := ok_pure.mp h
  have hmatch := Fields.ok_mapM_values.mp hspread
  have hspreadDistinct : Fields.Distinct spread := by
    rw [Fields.Distinct, ← hmatch.keys_eq]
    exact hdistinct.sublist (List.filter_sublist.map _)
  refine ⟨own, hown, ?_⟩
  intro key
  rw [Fields.get?_update hspreadDistinct]
  split
  · next href =>
    have hnotOwn : Fields.get? own key = none := by
      rw [Fields.get?_eq_none, mem_keys_of_ownFieldsAt hown, Key.isOwn_iff_not_isDropped]
      simp [href]
    have hrel := hmatch.get? key
    rw [Fields.get?_filter Key.isRef href] at hrel
    rw [hnotOwn, Option.or_none]
    generalize Fields.get? (g.fields place) key = value at hrel
    generalize Fields.get? spread key = described at hrel
    cases hrel with
    | none => rfl
    | some hj => rw [Option.map_some, described_of_spread hj]
  · next href =>
    have hnone : Fields.get? spread key = none := by
      rw [Fields.get?_eq_none, ← hmatch.keys_eq]
      intro hmem
      obtain ⟨p, hp, rfl⟩ := List.mem_map.mp hmem
      exact href (List.mem_filter.mp hp).2
    rw [hnone, Option.none_or]

end Graph

namespace Bundle

variable {g : Graph} {links : Links} {place : Nat}

theorem mem_computed {key wrapper : String} :
    (key, wrapper) ∈ computed (g.field place "$type") ↔ ComputedFrom g place key wrapper := by
  constructor
  · intro h
    rw [computed] at h
    split at h
    · next htype =>
      obtain ⟨rfl, rfl⟩ : key = "expression" ∧ wrapper = "condition" := by simpa using h
      exact ⟨_, Value.isText_iff.mp htype, .expression⟩
    split at h
    · next htype =>
      have hpair : (key = "loopCardinality" ∧ wrapper = "loopCardinality") ∨
          (key = "completionCondition" ∧ wrapper = "completionCondition") := by simpa using h
      rcases hpair with ⟨rfl, rfl⟩ | ⟨rfl, rfl⟩
      · exact ⟨_, Value.isText_iff.mp htype, .loopCardinality⟩
      · exact ⟨_, Value.isText_iff.mp htype, .completionCondition⟩
    split at h
    · next htype =>
      have hpair : (key = "timeDuration" ∧ wrapper = "timeDuration") ∨
          (key = "timeCycle" ∧ wrapper = "timeCycle") ∨ (key = "timeDate" ∧ wrapper = "timeDate") := by
        simpa using h
      rcases hpair with ⟨rfl, rfl⟩ | ⟨rfl, rfl⟩ | ⟨rfl, rfl⟩
      · exact ⟨_, Value.isText_iff.mp htype, .timeDuration⟩
      · exact ⟨_, Value.isText_iff.mp htype, .timeCycle⟩
      · exact ⟨_, Value.isText_iff.mp htype, .timeDate⟩
    · cases h
  · rintro ⟨type, htype, hcomputes⟩
    rw [htype]
    cases hcomputes <;> decide

theorem distinct_computed (type : Value) : Fields.Distinct (computed type) := by
  rw [Fields.Distinct, computed]
  split
  · decide
  split
  · decide
  split <;> decide

/-- No typed member is computed. -/
theorem ComputedFrom.untyped {key wrapper : String} (h : ComputedFrom g place key wrapper) :
    Member.ofKey? key = none := by
  obtain ⟨type, -, hcomputes⟩ := h
  cases hcomputes <;> decide

theorem get?_extras {fields : List (String × Json)} {key : String} (h : Member.ofKey? key = none) :
    Fields.get? (Check.extras .value fields) key = Fields.get? fields key := by
  apply Fields.get?_without
  intro hmem
  -- A value loses the fields of its members only.
  have hdropped : Check.dropped .value = [] := rfl
  rw [hdropped, List.append_nil] at hmem
  obtain ⟨m, hm, rfl⟩ := List.mem_map.mp hmem
  have hfound := List.find?_eq_none.mp h m hm
  rw [Member.keyIn] at hfound
  split at hfound <;> simp at hfound

theorem extras_of_behaviourFields {mode : Mode} {fields : List (String × Json)} {b : Behaviour}
    (h : Check.behaviourFields mode fields = .valid b) : b.extras = Check.extras mode fields := by
  rw [Check.behaviourFields_eq] at h
  obtain ⟨_, _, h₁, hextras, rfl⟩ := Checked.seq_eq_valid.mp h
  obtain ⟨_, _, h₂, -, rfl⟩ := Checked.seq_eq_valid.mp h₁
  obtain ⟨_, _, h₃, -, rfl⟩ := Checked.seq_eq_valid.mp h₂
  obtain ⟨_, _, h₄, -, rfl⟩ := Checked.seq_eq_valid.mp h₃
  obtain ⟨_, -, rfl⟩ := Checked.map_eq_valid.mp h₄
  exact (Checked.valid.inj hextras).symm

/-- The bundle of a definition that is no I/O specification holds bodies in place of their wrappers, and
under every other key what the own fields with described references hold. -/
theorem get?_of_ofDefinition {b : Behaviour} (h : ofDefinition g links place = .ok b)
    (htype : g.field place "$type" ≠ .str "bpmn:InputOutputSpecification") :
    ∃ fields, g.spreadFields place = .ok fields ∧
      (∀ key, IsRaw g place key → Fields.get? b.extras key = Fields.get? fields key) ∧
      (∀ key wrapper, ComputedFrom g place key wrapper →
        Fields.get? b.extras key = some (g.bodyAt place wrapper)) ∧
      ∀ key ∈ Fields.keys b.extras,
        key ∈ Fields.keys fields ∨ ∃ wrapper, ComputedFrom g place key wrapper := by
  rw [ofDefinition, if_neg (htype ∘ Value.isText_iff.mp)] at h
  obtain ⟨fields, hfields, h⟩ := ok_bind.mp h
  rw [extras_of_behaviourFields (Checked.as_eq_ok.mp h)]
  generalize hbodies : ((computed (g.field place "$type")).map fun p => (p.1, g.bodyAt place p.2)) = bodies
  have hkeys : Fields.keys bodies = Fields.keys (computed (g.field place "$type")) := by
    rw [← hbodies]
    exact Fields.keys_map _
  have hdistinct : Fields.Distinct bodies := by
    rw [Fields.Distinct, hkeys]
    exact distinct_computed _
  have hmem {key : String} : key ∈ Fields.keys bodies ↔ ∃ wrapper, ComputedFrom g place key wrapper := by
    rw [hkeys, Fields.keys, List.mem_map]
    simp [mem_computed]
  refine ⟨fields, hfields, ?_, ?_, ?_⟩
  · intro key hraw
    have hnone : Fields.get? bodies key = none := by
      rw [Fields.get?_eq_none, hmem]
      rintro ⟨wrapper, hcomputed⟩
      exact hraw.uncomputed wrapper hcomputed
    rw [get?_extras hraw.untyped, Fields.get?_update hdistinct, hnone, Option.none_or]
  · intro key wrapper hcomputed
    have hbody : (key, g.bodyAt place wrapper) ∈ bodies := by
      rw [← hbodies]
      exact List.mem_map.mpr ⟨(key, wrapper), mem_computed.mpr hcomputed, rfl⟩
    rw [get?_extras hcomputed.untyped, Fields.get?_update hdistinct, Fields.get?_of_mem hdistinct hbody,
      Option.some_or]
  · intro key hkey
    obtain ⟨p, hp, rfl⟩ := List.mem_map.mp hkey
    rcases Fields.mem_update (Fields.mem_without.mp hp).1 with hp | hp
    · exact .inl (List.mem_map_of_mem hp)
    · exact .inr (hmem.mp (List.mem_map_of_mem hp))

/-- Each field of a definition that is no I/O specification is described, dropped, copied or computed by the
rule for its key, and there are no others. -/
theorem keeps_of_definition {o : Option BehaviourDefinition} (h : definition g links (.node place) = .ok o)
    (hfilled : g.fields place ≠ []) (hdistinct : (g.fields place).Distinct)
    (htype : g.field place "$type" ≠ .str "bpmn:InputOutputSpecification") :
    ∃ d own, o = some d ∧ g.ownFields (.node place) = .ok own ∧ Keeps g place own d.behaviour.extras := by
  have hpresent : g.orAbsent (.node place) = some (.node place) := by
    simp [Graph.orAbsent, Graph.truthy, hfilled]
  rw [definition, hpresent] at h
  simp only [ok_bind, ok_pure] at h
  obtain ⟨place', hplace, b, hb, type, -, rfl⟩ := h
  obtain rfl : place = place' := Except.ok.inj hplace
  obtain ⟨fields, hfields, hraw, hcomputed, honly⟩ := get?_of_ofDefinition hb htype
  obtain ⟨own, hown, hget⟩ := Graph.get?_spreadFields hdistinct hfields
  refine ⟨.mk .null type b, own, rfl, (Graph.ownFields_node place).trans hown, ?_⟩
  change Keeps g place own b.extras
  constructor
  case described =>
    intro key v hv hkey href
    rw [hraw key hkey, hget, if_pos href, Fields.get?_of_mem hdistinct hv, Option.map_some]
  case dropped =>
    intro key hkey href hdropped
    rw [← Fields.get?_eq_none, hraw key hkey, hget, if_neg (by simp [href]), Fields.get?_eq_none,
      Graph.mem_keys_of_ownFieldsAt hown, Key.isOwn_iff_not_isDropped]
    exact fun hmem => hmem.2.2 hdropped
  case copied =>
    intro key hmem hkey href hdropped
    have hkept : key ∈ Fields.keys own :=
      (Graph.mem_keys_of_ownFieldsAt hown).mpr ⟨hmem, Key.isOwn_iff_not_isDropped.mpr ⟨href, hdropped⟩⟩
    obtain ⟨j, hj⟩ := Fields.mem_keys_iff.mp hkept
    refine ⟨j, hj, ?_⟩
    rw [hraw key hkey, hget, if_neg (by simp [href]), hj]
  case body =>
    intro key wrapper hkey q hq
    rw [hcomputed key wrapper hkey, Graph.bodyAt, hq]
    rfl
  case unwrapped =>
    intro key wrapper hkey hnone
    rw [hcomputed key wrapper hkey, Graph.bodyAt]
    cases hv : g.field place wrapper with
    | node q => exact absurd hv (hnone q)
    | _ => rfl
  case only =>
    intro key hkey
    rcases honly key hkey with hmem | hmem
    · left
      obtain ⟨j, hj⟩ := Fields.mem_keys_iff.mp hmem
      rw [hget] at hj
      split at hj
      · obtain ⟨v, hv, -⟩ := Option.map_eq_some_iff.mp hj
        exact Fields.mem_keys_iff.mpr ⟨v, hv⟩
      · exact ((Graph.mem_keys_of_ownFieldsAt hown).mp (Fields.mem_keys_iff.mpr ⟨j, hj⟩)).1
    · exact .inr hmem

/-- A timer with a wrapped duration, a date without a wrapper, and references of each kind. -/
def timerEvent : Graph where
  contents := #[
    .object [("$type", .str "bpmn:TimerEventDefinition"), ("$parent", .node 1), ("id", .str "t"),
      ("timeDuration", .node 2), ("timeDate", .str "tomorrow"), ("operationRef", .node 1),
      ("signalRef", .str "s"), ("errorRefs", .list 3), ("incoming", .list 3), ("note", .str "wait")],
    .object [("$type", .str "bpmn:Operation"), ("id", .str "o")],
    .object [("$type", .str "bpmn:FormalExpression"), ("body", .str "PT1H")],
    .list [.node 1]]

theorem keeps_of_definition_timerEvent :
    ∃ o, definition timerEvent ⟨[], [], [], []⟩ (.node 0) = .ok o ∧ timerEvent.fields 0 ≠ [] ∧
      Fields.Distinct (timerEvent.fields 0) ∧
      timerEvent.field 0 "$type" ≠ .str "bpmn:InputOutputSpecification" ∧
      ∃ d own, o = some d ∧ timerEvent.ownFields (.node 0) = .ok own ∧
        Keeps timerEvent 0 own d.behaviour.extras := by
  have hsome : (definition timerEvent ⟨[], [], [], []⟩ (.node 0)).toOption.isSome = true := by
    decide +kernel
  have hfilled : timerEvent.fields 0 ≠ [] := List.cons_ne_nil _ _
  have hdistinct : Fields.Distinct (timerEvent.fields 0) := by
    rw [Fields.Distinct]
    decide
  have htype : timerEvent.field 0 "$type" ≠ .str "bpmn:InputOutputSpecification" := by decide
  obtain ⟨o, ho⟩ := exists_ok_of_isSome hsome
  exact ⟨o, ho, hfilled, hdistinct, htype, keeps_of_definition ho hfilled hdistinct htype⟩

end Bundle

end Bpmn
