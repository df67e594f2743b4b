import Bpmn.Proofs.Mapping.Definitions
import Bpmn.Proofs.Model.Accepted
import Bpmn.Proofs.Model.Reread

namespace Bpmn.Bundle

section Rules

variable (own extra : List (String × Json))

/-- What stands under a key: the own field if there is one, else the extra one. -/
def ownOrExtra (key : String) : Option Json := (Fields.get? own key).or (Fields.get? extra key)

/-- The key under which a member is read. -/
def readUnder (m : Member) : String :=
  if m.key ∈ Fields.keys own ∨ m.key ∈ Fields.keys extra then m.key else m.secondKey

/-- A key whose field is kept as it is: one of no member, the second one of a member that is given, or the
second one of a member that is read under its first. -/
inductive IsKept (key : String) : Prop
  | untyped (h : Member.ofKey? key = none)
  | given (m : Member) (hm : m ∈ [.eventDefinitions, .loopCharacteristics, .ioSpecification])
      (hkey : key = m.secondKey)
  | second (m : Member) (hm : m ∈ [.attachedTo, .dataInputs, .dataOutputs])
      (hread : readUnder own extra m = m.key) (hkey : key = m.secondKey)

/-- A member is what is checked under its key, none if that is null or nothing stands there. -/
def ReadFrom {α : Type} (check : Json → Checked α) (m : Member) (o : Option α) : Prop :=
  (ownOrExtra own extra (readUnder own extra m)).elim (.valid none) (Check.optional check) = .valid o

end Rules

/-- What a list is read as, item by item: each that counts for something gives one object. -/
inductive ReadEach {α : Type} (g : Graph) (read : Value → Except Fault (Option α)) :
    Value → Option (List α) → Prop
  | none : ReadEach g read .null none
  | some (v : Value) (items : List Value) (made : List α) (hv : v ≠ .null) (hitems : g.items v = .ok items)
      (hmade : List.Forall₂ (fun item a => read item = .ok (some a)) (items.filter g.truthy) made) :
      ReadEach g read v (some made)

/-- What the bundle of an object holds, given its own fields and extra ones. -/
structure Holds (g : Graph) (links : Links) (place : Nat) (own extra : List (String × Json))
    (b : Behaviour) : Prop where
  kept : ∀ key, IsKept own extra key → Fields.get? b.extras key = ownOrExtra own extra key
  apart : ∀ m : Member, m.key ∉ Fields.keys b.extras
  eventDefinitions :
    ReadEach g (definition g links) (g.field place "eventDefinitions") b.eventDefinitions
  loopCharacteristics :
    definition g links (g.field place "loopCharacteristics") = .ok b.loopCharacteristics
  ioSpecification : definition g links (g.field place "ioSpecification") = .ok b.ioSpecification
  resources : ReadEach g (resource g) (g.field place "resources") b.attachments.resources
  attachedTo : ReadFrom own extra Check.elementRef .attachedTo b.attachments.attachedTo
  dataInputs : ReadFrom own extra (Check.list Check.dataParameter) .dataInputs b.attachments.dataInputs
  dataOutputs : ReadFrom own extra (Check.list Check.dataParameter) .dataOutputs b.attachments.dataOutputs

/-- What the dump of a bundle holds: its typed members, and a dump of each field that is kept. -/
structure Dumped (own extra : List (String × Json)) (b : Behaviour) (fields : List (String × Json)) :
    Prop where
  kept : ∀ key, IsKept own extra key →
    Option.Rel (fun j w => j.dump = .ok w) (ownOrExtra own extra key) (Fields.get? fields key)
  members : ∀ m : Member, ∃ w, (b.member m).dump = .ok w ∧ Fields.get? fields m.key = some w

/-- What fields the values of an index are as extra fields. -/
structure Gives (g : Graph) (index : Index) (own extra : List (String × Json)) : Prop where
  keys : index.map (·.1) = (Fields.keys extra).map .str
  kept : ∀ key, IsKept own extra key →
    Fields.get? extra key = (index.lookup (.str key)).map g.unfold
  read : ∀ m ∈ Check.readMembers, Fields.get? extra (readUnder own extra m) =
    (index.lookup (.str (readUnder own extra m))).map (g.unfoldMember m)

section Keys

variable {own extra : List (String × Json)} {key : String}

theorem readUnder_cases (own extra : List (String × Json)) (m : Member) :
    readUnder own extra m = m.key ∨ readUnder own extra m = m.secondKey := by
  rw [readUnder]
  split
  · exact .inl rfl
  · exact .inr rfl

theorem get?_update_own (hown : Fields.Distinct own) :
    Fields.get? (Fields.update extra own) key = ownOrExtra own extra key :=
  Fields.get?_update hown key

theorem keyIn_update (hown : Fields.Distinct own) (m : Member) :
    m.keyIn (Fields.update extra own) = readUnder own extra m := by
  have hhas : (Fields.update extra own).has m.key = true ↔
      m.key ∈ Fields.keys own ∨ m.key ∈ Fields.keys extra := by
    rw [Fields.has_eq, get?_update_own hown, ownOrExtra, Option.isSome_or, Bool.or_eq_true,
      Option.isSome_iff_exists, Option.isSome_iff_exists, Fields.mem_keys_iff, Fields.mem_keys_iff]
  simp only [Member.keyIn, readUnder, hhas]

theorem ne_key_of_untyped (h : Member.ofKey? key = none) (m : Member) : key ≠ m.key ∧ key ≠ m.secondKey := by
  have hall : m ∈ Member.all := by cases m <;> decide
  have hm := List.find?_eq_none.mp h m hall
  simp only [Bool.or_eq_true, beq_iff_eq, not_or] at hm
  exact ⟨Ne.symm hm.1, Ne.symm hm.2⟩

/-- A key that is kept is no first key, and no member is read under it. -/
theorem IsKept.ne_key (h : IsKept own extra key) (m : Member) : key ≠ m.key := by
  cases h with
  | untyped h => exact (ne_key_of_untyped h m).1
  | given m' hm' hkey =>
    have hne : ∀ m' ∈ [Member.eventDefinitions, .loopCharacteristics, .ioSpecification],
        m'.secondKey ≠ m.key := by cases m <;> decide
    exact hkey ▸ hne m' hm'
  | second m' hm' _ hkey =>
    have hne : ∀ m' ∈ [Member.attachedTo, .dataInputs, .dataOutputs], m'.secondKey ≠ m.key := by
      cases m <;> decide
    exact hkey ▸ hne m' hm'

theorem IsKept.ne_readUnder (h : IsKept own extra key) {m : Member} (hm : m ∈ Check.readMembers) :
    key ≠ readUnder own extra m := by
  rcases readUnder_cases own extra m with hread | hread
  · rw [hread]
    exact h.ne_key m
  · rw [hread]
    cases h with
    | untyped h => exact (ne_key_of_untyped h m).2
    | given m' hm' hkey =>
      have hne : ∀ m' ∈ [Member.eventDefinitions, .loopCharacteristics, .ioSpecification],
          ∀ m ∈ Check.readMembers, m'.secondKey ≠ m.secondKey := by decide
      exact hkey ▸ hne m' hm' m hm
    | second m' hm' hfirst hkey =>
      intro hsame
      have hinj : ∀ m' ∈ [Member.attachedTo, .dataInputs, .dataOutputs], ∀ m ∈ Check.readMembers,
          m'.secondKey = m.secondKey → m' = m := by decide
      have hne : ∀ m ∈ Check.readMembers, m.secondKey ≠ m.key := by decide
      -- A member that is read under its first key is not read under its second one too.
      obtain rfl := hinj m' hm' m hm (hkey ▸ hsame)
      exact hne m' hm (hread ▸ hfirst)

end Keys

variable {g : Graph} {links : Links} {place : Nat}

theorem isSome_orAbsent (v : Value) : (g.orAbsent v).isSome = g.truthy v := by
  rw [Graph.orAbsent]
  cases g.truthy v <;> rfl

theorem isSome_of_definition {v : Value} {o : Option BehaviourDefinition}
    (h : definition g links v = .ok o) : o.isSome = g.truthy v := by
  rw [← isSome_orAbsent]
  rw [definition] at h
  cases hv : g.orAbsent v with
  | none =>
    rw [hv] at h
    obtain rfl := ok_pure.mp h
    rfl
  | some w =>
    simp only [hv, ok_bind, ok_pure] at h
    obtain ⟨-, -, -, -, -, -, rfl⟩ := h
    rfl

theorem isSome_of_resource {v : Value} {o : Option Resource} (h : resource g v = .ok o) :
    o.isSome = g.truthy v := by
  rw [← isSome_orAbsent]
  rw [resource] at h
  cases hv : g.orAbsent v with
  | none =>
    rw [hv] at h
    obtain rfl := ok_pure.mp h
    rfl
  | some w =>
    rw [hv] at h
    obtain ⟨place, -, h⟩ := ok_bind.mp h
    cases hassignment : g.orAbsent (g.field place "resourceAssignmentExpression") <;>
      simp only [hassignment, ok_bind, ok_pure] at h
    · obtain ⟨-, -, -, -, -, -, rfl⟩ := h
      rfl
    · obtain ⟨-, -, -, -, -, -, rfl⟩ := h
      rfl

/-- Where just the items that count for something give objects, the objects belong to these items. -/
theorem forall₂_filterMap {α : Type} {read : Value → Except Fault (Option α)} {items : List Value}
    {results : List (Option α)} (hsome : ∀ {v o}, read v = .ok o → o.isSome = g.truthy v)
    (h : List.Forall₂ (fun item o => read item = .ok o) items results) :
    List.Forall₂ (fun item a => read item = .ok (some a)) (items.filter g.truthy)
      (results.filterMap id) := by
  induction h with
  | nil => exact .nil
  | @cons item o _ results hread _ ih =>
    have htruthy := hsome hread
    cases o with
    | none =>
      rw [List.filter_cons_of_neg (by simp [← htruthy]), List.filterMap_cons_none rfl]
      exact ih
    | some a =>
      have hmade : (some a :: results).filterMap id = a :: results.filterMap id :=
        List.filterMap_cons_some rfl
      rw [List.filter_cons_of_pos (by simp [← htruthy]), hmade]
      exact .cons hread ih

theorem readEach_of_each {α : Type} {read : Value → Except Fault (Option α)} {v : Value}
    {made : Option (List α)} (hsome : ∀ {v o}, read v = .ok o → o.isSome = g.truthy v)
    (h : each g v read = .ok made) : ReadEach g read v made := by
  rw [each] at h
  cases hv : v.nonNull? with
  | none =>
    rw [hv] at h
    obtain rfl := ok_pure.mp h
    obtain rfl : v = .null := by cases v <;> trivial
    exact .none
  | some w =>
    rw [hv] at h
    obtain ⟨hne, rfl⟩ := Value.nonNull?_eq_some.mp hv
    obtain ⟨items, hitems, h⟩ := ok_bind.mp h
    obtain ⟨results, hresults, h⟩ := ok_bind.mp h
    obtain rfl := ok_pure.mp h
    exact .some v items _ hne hitems (forall₂_filterMap hsome (ok_mapM.mp hresults))

/-- How the bundle of an element comes apart. -/
theorem parts_of_checkElement {fields : List (String × Json)} {b : Behaviour}
    (h : checkElement g links fields place = .ok (.valid b)) :
    each g (g.field place "eventDefinitions") (definition g links) = .ok b.eventDefinitions ∧
      definition g links (g.field place "loopCharacteristics") = .ok b.loopCharacteristics ∧
      definition g links (g.field place "ioSpecification") = .ok b.ioSpecification ∧
      each g (g.field place "resources") (resource g) = .ok b.attachments.resources ∧
      Check.member fields .attachedTo Check.elementRef = .valid b.attachments.attachedTo ∧
      Check.member fields .dataInputs (Check.list Check.dataParameter) =
        .valid b.attachments.dataInputs ∧
      Check.member fields .dataOutputs (Check.list Check.dataParameter) =
        .valid b.attachments.dataOutputs ∧
      b.extras = Fields.without fields
        (Check.givenMembers.map (·.key) ++ Check.readMembers.map (·.keyIn fields)) := by
  obtain ⟨events, hevents, h⟩ := ok_bind.mp h
  obtain ⟨loop, hloop, h⟩ := ok_bind.mp h
  obtain ⟨io, hio, h⟩ := ok_bind.mp h
  obtain ⟨resources, hresources, h⟩ := ok_bind.mp h
  obtain ⟨_, extras, h₁, hextras, rfl⟩ := Checked.seq_eq_valid.mp (ok_pure.mp h)
  obtain ⟨attachments, hattachments, rfl⟩ := Checked.map_eq_valid.mp h₁
  obtain ⟨_, outputs, h₂, houtputs, rfl⟩ := Checked.seq_eq_valid.mp hattachments
  obtain ⟨_, inputs, h₃, hinputs, rfl⟩ := Checked.seq_eq_valid.mp h₂
  obtain ⟨attachedTo, hattachedTo, rfl⟩ := Checked.map_eq_valid.mp h₃
  exact ⟨hevents, hloop, hio, hresources, hattachedTo, hinputs, houtputs, (Checked.valid.inj hextras).symm⟩

theorem readFrom_of_member {own extra : List (String × Json)} {α : Type} {check : Json → Checked α}
    {m : Member} {o : Option α} (hown : Fields.Distinct own)
    (h : Check.member (Fields.update extra own) m check = .valid o) :
    ReadFrom own extra check m o := by
  rw [Check.member, Check.maybe, Check.defaulted, Checked.under_eq_valid, keyIn_update hown,
    get?_update_own hown] at h
  exact h

/-- A bundle of own and extra fields holds what the rules say. -/
theorem holds_of_checkElement {own extra : List (String × Json)} {b : Behaviour}
    (hown : Fields.Distinct own)
    (h : checkElement g links (Fields.update extra own) place = .ok (.valid b)) :
    Holds g links place own extra b := by
  obtain ⟨hevents, hloop, hio, hresources, hattachedTo, hinputs, houtputs, hextras⟩ :=
    parts_of_checkElement h
  refine ⟨?_, ?_, readEach_of_each isSome_of_definition hevents, hloop, hio,
    readEach_of_each isSome_of_resource hresources, readFrom_of_member hown hattachedTo,
    readFrom_of_member hown hinputs, readFrom_of_member hown houtputs⟩
  · -- What a bundle keeps are the fields under no key that a member is given or read under.
    intro key hkey
    have hfree : key ∉ Check.givenMembers.map (·.key) ++
        Check.readMembers.map (·.keyIn (Fields.update extra own)) := by
      rw [List.mem_append, List.mem_map, List.mem_map, not_or]
      constructor
      · rintro ⟨m, -, hm⟩
        exact hkey.ne_key m hm.symm
      · rintro ⟨m, hmem, hm⟩
        rw [keyIn_update hown] at hm
        exact hkey.ne_readUnder hmem hm.symm
    rw [hextras, Fields.get?_without hfree, get?_update_own hown]
  · intro m hmem
    rw [hextras] at hmem
    refine Check.apart_of_without ?_ m.key hmem (List.mem_map_of_mem (by cases m <;> decide))
    intro m
    cases m <;> simp [Check.givenMembers, Check.readMembers]

theorem distinct_of_ownFieldsAt {own : List (String × Json)} (hdistinct : (g.fields place).Distinct)
    (h : g.ownFieldsAt place = .ok own) : Fields.Distinct own := by
  rw [Fields.Distinct, ← (Fields.ok_mapM_values.mp h).keys_eq, Graph.keys_ownEntries]
  exact hdistinct.sublist List.filter_sublist

theorem match_of_dumpFields {fields others : List (String × Json)}
    (h : Json.dumpFields fields = .ok others) :
    Fields.Match (fun j w => j.dump = .ok w) fields others := by
  induction fields generalizing others with
  | nil =>
    obtain rfl := Except.ok.inj h
    exact .nil
  | cons field rest ih =>
    obtain ⟨key, j⟩ := field
    obtain ⟨w, hw, h⟩ := ok_bind.mp h
    obtain ⟨ws, hws, h⟩ := ok_bind.mp h
    obtain rfl := ok_pure.mp h
    exact .cons ⟨rfl, hw⟩ (ih hws)

theorem Holds.dumped {own extra : List (String × Json)} {b : Behaviour} {w : Json}
    (h : Holds g links place own extra b) (hw : b.toJson.dump = .ok w) :
    ∃ fields, w = .obj fields ∧ Dumped own extra b fields := by
  rw [b.toJson_eq, Json.dump, ok_map] at hw
  obtain ⟨fields, hfields, rfl⟩ := hw
  have hmatch := match_of_dumpFields hfields
  refine ⟨fields, rfl, ?_, ?_⟩
  · intro key hkey
    have hnone : Fields.get? (Member.all.map fun m => (m.key, b.member m)) key = none := by
      rw [Fields.get?_eq_none]
      intro hmem
      obtain ⟨p, hp, hpkey⟩ := List.mem_map.mp hmem
      obtain ⟨m, -, rfl⟩ := List.mem_map.mp hp
      exact hkey.ne_key m hpkey.symm
    have hrel := hmatch.get? key
    rw [Fields.get?_append, hnone, Option.none_or, h.kept key hkey] at hrel
    exact hrel
  · intro m
    have hrel := hmatch.get? m.key
    rw [Check.get?_member] at hrel
    generalize Fields.get? fields m.key = found at hrel
    cases hrel with
    | some hdump => exact ⟨_, hdump, rfl⟩

section Index

variable {index : Index} {own : List (String × Json)}

/-- The fields of an index under the keys that are texts. -/
def named (index : Index) : Fields Value := index.filterMap fun (key, v) => key.text?.map (·, v)

theorem named_cons (key : String) (v : Value) (rest : Index) :
    named ((.str key, v) :: rest) = (key, v) :: named rest := rfl

theorem texts_of_checkKeys (h : index.checkKeys = .valid ()) :
    ∀ entry ∈ index, ∃ key, entry.1 = .str key := by
  intro entry hentry
  have hnone : index.filter (·.1.text?.isNone) = [] := by
    rw [Index.checkKeys] at h
    split at h
    · assumption
    · cases h
  have htext := List.filter_eq_nil_iff.mp hnone entry hentry
  cases hkey : entry.1 with
  | str key => exact ⟨key, rfl⟩
  | _ => simp [hkey, Value.text?] at htext

theorem keys_named (htexts : ∀ entry ∈ index, ∃ key, entry.1 = .str key) :
    index.map (·.1) = (named index).keys.map .str := by
  induction index with
  | nil => rfl
  | cons entry rest ih =>
    obtain ⟨⟨key, hkey⟩, hrest⟩ := List.forall_mem_cons.mp htexts
    obtain ⟨_, v⟩ := entry
    obtain rfl : _ = Value.str key := hkey
    rw [named_cons, List.map_cons, ih hrest]
    rfl

theorem get?_named (htexts : ∀ entry ∈ index, ∃ key, entry.1 = .str key) (key : String) :
    (named index).get? key = index.lookup (.str key) := by
  induction index with
  | nil => rfl
  | cons entry rest ih =>
    obtain ⟨⟨k, hk⟩, hrest⟩ := List.forall_mem_cons.mp htexts
    obtain ⟨_, v⟩ := entry
    obtain rfl : _ = Value.str k := hk
    rw [named_cons, Fields.get?_cons, List.lookup_cons, ih hrest]
    by_cases hkey : key = k
    · simp [hkey]
    · have hne : (Value.str key == Value.str k) = false := by simpa using hkey
      rw [if_neg hkey, hne]

/-- No two members that are read are read under one key. -/
theorem readUnder_injective {own extra : List (String × Json)} {m m' : Member}
    (h : readUnder own extra m' = readUnder own extra m) : m' = m := by
  have hfirst : ∀ m m' : Member, m'.key = m.key → m' = m := by
    intro m
    cases m <;> intro m' <;> cases m' <;> decide
  have hmixed : ∀ m m' : Member, m'.key = m.secondKey → m' = m := by
    intro m
    cases m <;> intro m' <;> cases m' <;> decide
  have hsecond : ∀ m m' : Member, m'.secondKey = m.secondKey → m' = m := by
    intro m
    cases m <;> intro m' <;> cases m' <;> decide
  rcases readUnder_cases own extra m with hm | hm <;>
    rcases readUnder_cases own extra m' with hm' | hm' <;> rw [hm, hm'] at h
  · exact hfirst m m' h
  · exact (hmixed m' m h.symm).symm
  · exact hmixed m m' h
  · exact hsecond m m' h

theorem keyIn_both (own : List (String × Json)) {extra : List (String × Json)} {names : List String}
    (hnames : Fields.keys extra = names) (m : Member) :
    m.keyIn ((names ++ Fields.keys own).map fun key => (key, ())) = readUnder own extra m := by
  have hhas : Fields.has ((names ++ Fields.keys own).map fun key => (key, ())) m.key = true ↔
      m.key ∈ Fields.keys own ∨ m.key ∈ Fields.keys extra := by
    simp [Fields.has, hnames, or_comm]
  simp only [Member.keyIn, readUnder, hhas]

/-- The extra fields that an index gives beside some own fields. -/
def givenBy (g : Graph) (index : Index) (own : List (String × Json)) : List (String × Json) :=
  let keys := ((named index).keys ++ Fields.keys own).map fun key => (key, ())
  (named index).map fun (key, v) => (key, unfoldExtra g keys key v)

theorem gives_givenBy (htexts : ∀ entry ∈ index, ∃ key, entry.1 = .str key) :
    Gives g index own (givenBy g index own) := by
  have hkeys : Fields.keys (givenBy g index own) = (named index).keys := Fields.keys_map _
  have hread (m : Member) := keyIn_both own hkeys m
  have hget (key : String) : Fields.get? (givenBy g index own) key = (index.lookup (.str key)).map
      (unfoldExtra g (((named index).keys ++ Fields.keys own).map fun key => (key, ())) key) := by
    rw [← get?_named htexts]
    exact Fields.get?_map _ key
  refine ⟨?_, ?_, ?_⟩
  · rw [hkeys]
    exact keys_named htexts
  · intro key hkey
    rw [hget]
    congr 1
    funext v
    have hnone : Check.readMembers.find? (fun m =>
        m.keyIn (((named index).keys ++ Fields.keys own).map fun key => (key, ())) == key) = none := by
      rw [List.find?_eq_none]
      intro m hm hsame
      rw [beq_iff_eq, hread] at hsame
      exact hkey.ne_readUnder hm hsame.symm
    rw [unfoldExtra, hnone]
  · intro m hm
    rw [hget]
    congr 1
    funext v
    rw [unfoldExtra]
    split
    · next m' hfind =>
      have hsame := List.find?_some hfind
      rw [beq_iff_eq, hread] at hsame
      rw [readUnder_injective hsame]
    · next hnone =>
      have hother := List.find?_eq_none.mp hnone m hm
      rw [beq_iff_eq, hread] at hother
      exact absurd rfl hother

end Index

/-- The bundle of an element, given extra fields or an index of them, holds a copy of every field that is
kept, own ones before extra ones, and its other members are made of the element. -/
theorem holds_of_element (links : Links) (hdistinct : (g.fields place).Distinct) :
    (∀ extra b, ofElement g links extra place = .ok b →
      ∃ own, g.ownFields (.node place) = .ok own ∧ Holds g links place own extra b ∧
        ∀ w, b.toJson.dump = .ok w → ∃ fields, w = .obj fields ∧ Dumped own extra b fields) ∧
    (∀ index b, ofElementWith g links index place = .ok b →
      ∃ own extra, g.ownFields (.node place) = .ok own ∧ Gives g index own extra ∧
        Holds g links place own extra b ∧
        ∀ w, b.toJson.dump = .ok w → ∃ fields, w = .obj fields ∧ Dumped own extra b fields) := by
  constructor
  · intro extra b h
    obtain ⟨own, hown, h⟩ := ok_bind.mp h
    obtain ⟨checked, hchecked, h⟩ := ok_bind.mp h
    rw [Checked.as_eq_ok.mp h] at hchecked
    have hholds := holds_of_checkElement (distinct_of_ownFieldsAt hdistinct hown) hchecked
    exact ⟨own, (Graph.ownFields_node place).trans hown, hholds, fun w hw => hholds.dumped hw⟩
  · intro index b h
    obtain ⟨own, hown, h⟩ := ok_bind.mp h
    obtain ⟨checked, hchecked, h⟩ := ok_bind.mp h
    obtain ⟨hb, _, hkeys⟩ := Checked.seqLeft_eq_valid.mp (Checked.as_eq_ok.mp h)
    rw [hb] at hchecked
    have hholds : Holds g links place own (givenBy g index own) b :=
      holds_of_checkElement (distinct_of_ownFieldsAt hdistinct hown) hchecked
    exact ⟨own, givenBy g index own, (Graph.ownFields_node place).trans hown,
      gives_givenBy (texts_of_checkKeys hkeys), hholds, fun w hw => hholds.dumped hw⟩

/-- An event with raw fields under the second keys of members, and with an empty event definition. -/
def posing : Graph where
  contents := #[
    .object [("$type", .str "bpmn:BoundaryEvent"), ("id", .str "e"), ("name", .str "own"),
      ("event_definitions", .str "raw"), ("attachedTo", .node 1), ("eventDefinitions", .list 2)],
    .object [("id", .str "a")],
    .list [.node 3, .node 4],
    .object [],
    .object [("$type", .str "bpmn:TimerEventDefinition"), ("id", .str "t")]]

/-- Extra fields that pose as members of the event. -/
def posed : List (String × Json) :=
  [("name", .str "extra"), ("note", .str "extra"), ("loopCharacteristics", .str "raw"),
    ("attachedTo", .null), ("data_inputs", .arr [])]

/-- The same by an index. -/
def posedIndex : Index :=
  [(.str "name", .str "extra"), (.str "note", .str "extra"), (.str "loopCharacteristics", .node 1),
    (.str "attachedTo", .null), (.str "data_inputs", .list 2)]

theorem holds_of_element_posing :
    (posing.fields 0).Distinct ∧
      (∃ own b fields, ofElement posing .none posed 0 = .ok b ∧ posing.ownFields (.node 0) = .ok own ∧
        Holds posing .none 0 own posed b ∧ b.toJson.dump = .ok (.obj fields) ∧
        Dumped own posed b fields) ∧
      ∃ own extra b, ofElementWith posing .none posedIndex 0 = .ok b ∧
        posing.ownFields (.node 0) = .ok own ∧ Gives posing posedIndex own extra ∧
        Holds posing .none 0 own extra b := by
  have hdistinct : (posing.fields 0).Distinct := by
    rw [Fields.Distinct]
    decide
  obtain ⟨helement, hindex⟩ := holds_of_element .none hdistinct
  have hdump : ((ofElement posing .none posed 0) >>= fun b => b.toJson.dump).toOption.isSome = true := by
    decide +kernel
  have hsome : (ofElementWith posing .none posedIndex 0).toOption.isSome = true := by
    decide +kernel
  obtain ⟨w, hw⟩ := exists_ok_of_isSome hdump
  obtain ⟨b, hb, hw⟩ := ok_bind.mp hw
  obtain ⟨b', hb'⟩ := exists_ok_of_isSome hsome
  obtain ⟨own, hown, hholds, hdumped⟩ := helement posed b hb
  obtain ⟨fields, rfl, hfields⟩ := hdumped w hw
  obtain ⟨own', extra, hown', hgives, hholds', -⟩ := hindex posedIndex b' hb'
  exact ⟨hdistinct, ⟨own, b, fields, hb, hown, hholds, hw, hfields⟩,
    own', extra, b', hb', hown', hgives, hholds'⟩

end Bpmn.Bundle
