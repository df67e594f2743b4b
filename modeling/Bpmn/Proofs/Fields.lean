import Bpmn.Fields
import Bpmn.Proofs.Checked
import Mathlib.Data.List.Forall2
import Mathlib.Data.List.Induction
import Mathlib.Data.List.Nodup
import Mathlib.Data.Option.Basic

namespace Bpmn

section FirstMention

variable {α : Type} [BEq α] [LawfulBEq α]

theorem eraseDups_snoc (l : List α) (a : α) :
    (l ++ [a]).eraseDups = if a ∈ l then l.eraseDups else l.eraseDups ++ [a] := by
  rw [List.eraseDups_append, List.removeAll, List.filter_singleton]
  split
  · next hmem => simp [hmem]
  · next hmem => simp [hmem, List.eraseDups_cons]

theorem nodup_eraseDups (l : List α) : l.eraseDups.Nodup := by
  induction l using List.reverseRecOn with
  | nil => exact List.nodup_nil
  | append_singleton l a ih =>
    rw [eraseDups_snoc]
    split
    · exact ih
    · next hnew =>
      have hfresh : a ∉ l.eraseDups := fun hmem => hnew (List.mem_eraseDups.mp hmem)
      exact List.nodup_append_comm.mp (List.nodup_cons.mpr ⟨hfresh, ih⟩)

end FirstMention

end Bpmn

namespace Bpmn.Fields

variable {α β : Type} {fields other : Fields α} {key : String} {value : α}

/-- No key is given twice. -/
def Distinct (fields : Fields α) : Prop := fields.keys.Nodup

theorem distinct_nil : Distinct ([] : Fields α) := List.nodup_nil

theorem keys_map (f : String × α → β) : Fields.keys (fields.map fun p => (p.1, f p)) = fields.keys := by
  simp [keys, Function.comp_def]

theorem put_of_notMem (h : key ∉ fields.keys) : fields.put key value = fields ++ [(key, value)] := by
  induction fields with
  | nil => rfl
  | cons field rest ih =>
    obtain ⟨k, v⟩ := field
    have hk : k ≠ key := fun hk => h (by simp [keys, hk])
    have hrest : key ∉ Fields.keys rest := fun hr => h (List.mem_cons_of_mem _ hr)
    rw [put, if_neg hk, ih hrest]
    rfl

theorem keys_put_of_mem (h : key ∈ fields.keys) : (fields.put key value).keys = fields.keys := by
  induction fields with
  | nil => cases h
  | cons field rest ih =>
    obtain ⟨k, v⟩ := field
    by_cases hk : k = key
    · rw [put, if_pos hk]
      rfl
    · have hrest : key ∈ Fields.keys rest := by
        rcases List.mem_cons.mp h with h | h
        · exact absurd h.symm hk
        · exact h
      rw [put, if_neg hk]
      exact congrArg (k :: ·) (ih hrest)

theorem Distinct.put (h : fields.Distinct) : (fields.put key value).Distinct := by
  by_cases hk : key ∈ fields.keys
  · rw [Distinct, keys_put_of_mem hk]
    exact h
  · rw [put_of_notMem hk, Distinct, keys, List.map_append, List.nodup_append]
    refine ⟨h, by simp, ?_⟩
    intro a ha b hb
    obtain rfl : b = key := by simpa using hb
    rintro rfl
    exact hk ha

/-- What is there after putting has been there before or has been put. -/
theorem mem_put {p : String × α} (h : p ∈ fields.put key value) : p ∈ fields ∨ p = (key, value) := by
  induction fields with
  | nil => exact .inr (by simpa [put] using h)
  | cons field rest ih =>
    obtain ⟨k, v⟩ := field
    rw [put] at h
    split at h
    · next hk =>
      rcases List.mem_cons.mp h with h | h
      · right
        rw [h, hk]
      · exact .inl (List.mem_cons_of_mem _ h)
    · rcases List.mem_cons.mp h with h | h
      · exact .inl (h ▸ List.mem_cons_self)
      · rcases ih h with h | h
        · exact .inl (List.mem_cons_of_mem _ h)
        · exact .inr h

theorem mem_update {p : String × α} (h : p ∈ fields.update other) : p ∈ fields ∨ p ∈ other := by
  induction other generalizing fields with
  | nil => exact .inl h
  | cons field rest ih =>
    rcases ih h with h | h
    · rcases mem_put h with h | h
      · exact .inl h
      · exact .inr (h ▸ List.mem_cons_self)
    · exact .inr (List.mem_cons_of_mem _ h)

theorem Distinct.update (h : fields.Distinct) (other : Fields α) : (fields.update other).Distinct := by
  induction other generalizing fields with
  | nil => exact h
  | cons field rest ih => exact ih h.put

theorem distinct_ofPairs (pairs : List (String × α)) : (ofPairs pairs).Distinct :=
  distinct_nil.update pairs

theorem mem_ofPairs {pairs : List (String × α)} {p : String × α} (h : p ∈ ofPairs pairs) :
    p ∈ pairs := by
  rcases mem_update h with h | h
  · cases h
  · exact h

theorem update_of_distinct (h : (fields ++ other).Distinct) : fields.update other = fields ++ other := by
  induction other generalizing fields with
  | nil => simp [update]
  | cons field rest ih =>
    obtain ⟨k, v⟩ := field
    have hk : k ∉ fields.keys := by
      intro hk
      have hnodup := h
      rw [Distinct, keys, List.map_append, List.nodup_append] at hnodup
      exact hnodup.2.2 k hk k (by simp) rfl
    have hput : fields.put k v = fields ++ [(k, v)] := put_of_notMem hk
    change (fields.put k v).update rest = _
    rw [hput, ih]
    · simp
    · rw [List.append_assoc]
      exact h

/-- Fields are kept as they are when no key is given twice. -/
theorem ofPairs_of_distinct {pairs : List (String × α)} (h : Distinct pairs) : ofPairs pairs = pairs :=
  update_of_distinct h

theorem mem_without {p : String × α} {names : List String} :
    p ∈ fields.without names ↔ p ∈ fields ∧ p.1 ∉ names := by
  simp [without]

theorem Distinct.without (h : fields.Distinct) (names : List String) :
    (fields.without names).Distinct :=
  h.sublist (List.filter_sublist.map _)

theorem without_of_disjoint {names : List String} (h : ∀ key ∈ fields.keys, key ∉ names) :
    fields.without names = fields := by
  rw [Fields.without, List.filter_eq_self]
  intro p hp
  simpa using h p.1 (List.mem_map_of_mem hp)

theorem notMem_keys_without {names : List String} (h : key ∈ names) :
    key ∉ (fields.without names).keys := by
  intro hk
  obtain ⟨p, hp, rfl⟩ := List.mem_map.mp hk
  exact (mem_without.mp hp).2 h

theorem get?_append (a b : Fields α) (key : String) :
    Fields.get? (a ++ b) key = (a.get? key).or (b.get? key) := by
  induction a with
  | nil => rfl
  | cons field rest ih =>
    obtain ⟨k, v⟩ := field
    rw [List.cons_append, get?_cons, get?_cons]
    split
    · rfl
    · exact ih

theorem get?_map (f : String → α → β) (key : String) :
    Fields.get? (fields.map fun p => (p.1, f p.1 p.2)) key = (fields.get? key).map (f key) := by
  induction fields with
  | nil => rfl
  | cons field rest ih =>
    obtain ⟨k, v⟩ := field
    rw [List.map_cons, get?_cons, get?_cons, ih]
    split
    · next hk => rw [hk, Option.map_some]
    · rfl

theorem get?_filter (keep : String → Bool) (h : keep key = true) :
    Fields.get? (List.filter (fun p => keep p.1) fields) key = fields.get? key := by
  induction fields with
  | nil => rfl
  | cons field rest ih =>
    obtain ⟨k, v⟩ := field
    rw [List.filter_cons]
    by_cases hk : key = k
    · subst hk
      rw [if_pos h, get?_cons, get?_cons, if_pos rfl, if_pos rfl]
    · split
      · rw [get?_cons, get?_cons, if_neg hk, if_neg hk, ih]
      · rw [get?_cons, if_neg hk, ih]

theorem get?_eq_none : fields.get? key = none ↔ key ∉ fields.keys := by
  induction fields with
  | nil => simp [keys]
  | cons field rest ih =>
    obtain ⟨k, v⟩ := field
    rw [get?_cons, keys, List.map_cons, List.mem_cons, not_or]
    split
    · next hk => simp [hk]
    · next hk => exact ih.trans (and_iff_right hk).symm

theorem mem_keys_iff : key ∈ fields.keys ↔ ∃ value, fields.get? key = some value := by
  rw [← Option.ne_none_iff_exists', ne_eq, get?_eq_none, not_not]

theorem has_eq (fields : Fields α) (key : String) : fields.has key = (fields.get? key).isSome := by
  rw [Bool.eq_iff_iff, Option.isSome_iff_exists, ← mem_keys_iff, has, keys, List.any_eq_true,
    List.mem_map]
  simp

theorem get?_of_mem (h : fields.Distinct) (hmem : (key, value) ∈ fields) :
    fields.get? key = some value := by
  induction fields with
  | nil => cases hmem
  | cons field rest ih =>
    obtain ⟨k, v⟩ := field
    obtain ⟨hfresh, hrest⟩ := List.nodup_cons.mp h
    rw [get?_cons]
    rcases List.mem_cons.mp hmem with hhead | htail
    · obtain ⟨rfl, rfl⟩ := Prod.mk.inj hhead
      exact if_pos rfl
    · have hheld : key ∈ keys rest := List.mem_map_of_mem htail
      rw [if_neg fun hk : key = k => hfresh (hk ▸ hheld)]
      exact ih hrest htail

/-- Of what is held under a key, that of the other fields counts. -/
theorem get?_update (h : other.Distinct) (key : String) :
    (fields.update other).get? key = (other.get? key).or (fields.get? key) := by
  induction other generalizing fields with
  | nil => rfl
  | cons field rest ih =>
    obtain ⟨k, v⟩ := field
    obtain ⟨hfresh, hrest⟩ := List.nodup_cons.mp h
    change ((fields.put k v).update rest).get? key = _
    rw [ih hrest, get?_put, get?_cons]
    split
    · next hk =>
      subst hk
      rw [get?_eq_none.mpr hfresh]
      rfl
    · rfl

theorem get?_without {names : List String} (h : key ∉ names) :
    (fields.without names).get? key = fields.get? key :=
  get?_filter (fun key => !names.contains key) (by simpa using h)

/-- The same keys in the same order, with values that belong together. -/
def Match (R : α → β → Prop) (fields : Fields α) (others : Fields β) : Prop :=
  List.Forall₂ (fun p q => p.1 = q.1 ∧ R p.2 q.2) fields others

section Match

variable {R : α → β → Prop} {others : Fields β}

theorem Match.keys_eq (h : Match R fields others) : fields.keys = others.keys := by
  induction h with
  | nil => rfl
  | cons hp _ ih => exact congrArg₂ List.cons hp.1 ih

theorem Match.get? (h : Match R fields others) (key : String) :
    Option.Rel R (fields.get? key) (others.get? key) := by
  induction h with
  | nil => exact .none
  | @cons p q rest rest' hp _ ih =>
    obtain ⟨k, v⟩ := p
    obtain ⟨k', w⟩ := q
    obtain ⟨rfl, hvw⟩ : k = k' ∧ R v w := hp
    rw [get?_cons, get?_cons]
    split
    · exact .some hvw
    · exact ih

theorem Match.filter (h : Match R fields others) (keep : String → Bool) :
    Match R (List.filter (fun p => keep p.1) fields) (List.filter (fun p => keep p.1) others) := by
  induction h with
  | nil => exact .nil
  | @cons p q rest rest' hp _ ih =>
    rw [List.filter_cons, List.filter_cons, ← hp.1]
    split
    · exact .cons hp ih
    · exact ih

end Match

/-- Values of fields that are computed one by one. -/
theorem ok_mapM_values {f : α → Except Fault β} {others : Fields β} :
    (fields.mapM fun (key, v) => return (key, ← f v)) = .ok others ↔
      Match (fun v w => f v = .ok w) fields others := by
  rw [ok_mapM, Match]
  constructor
  · intro h
    refine h.imp ?_
    intro p q hpq
    obtain ⟨w, hw, hpair⟩ := ok_bind.mp hpq
    obtain rfl := ok_pure.mp hpair
    exact ⟨rfl, hw⟩
  · intro h
    refine h.imp ?_
    rintro ⟨k, v⟩ ⟨k', w⟩ ⟨rfl, hw⟩
    exact ok_bind.mpr ⟨w, hw, rfl⟩

end Bpmn.Fields
