import Bpmn.Proofs.Fields
import Bpmn.Proofs.Observe.Attending
import Mathlib.Algebra.GroupWithZero.Nat

namespace Bpmn

namespace Attributes

theorem alike_text (s s' : String) : (Json.str s).alike (.str s') = (s == s') := by
  simp [Json.alike, Json.agree, Json.sameForm, Json.number?, Json.sameKey]

/-- Texts under names are alike only to themselves. -/
theorem alike_ofTexts (texts texts' : List (String × String)) :
    (ofTexts texts).toJson.alike (ofTexts texts').toJson = (texts == texts') := by
  rw [toJson, toJson, Json.alike, Json.agree]
  induction texts generalizing texts' with
  | nil => cases texts' <;> rfl
  | cons p rest ih =>
    cases texts' with
    | nil => rfl
    | cons p' rest' =>
      obtain ⟨name, text⟩ := p
      obtain ⟨name', text'⟩ := p'
      have hname := alike_text name name'
      have htext := alike_text text text'
      rw [Json.alike] at hname htext
      simp only [ofTexts, List.map_cons, Json.agreeItems, Json.agree, Bool.and_true] at ih hname htext ⊢
      rw [ih, hname, htext]
      rfl

end Attributes

/-- What is to be counted, and the texts under which it is. -/
abbrev Posting := List (String × String) × Nat

namespace Totals

/-- The sum of what postings have under some texts. -/
def sumOf (postings : List Posting) (texts : List (String × String)) : Nat :=
  ((postings.filter (·.1 == texts)).map (·.2)).sum

def ofPostings (postings : List Posting) : Totals :=
  (postings.map (·.1)).eraseDups.map fun texts => (.ofTexts texts, .int (sumOf postings texts))

theorem sumOf_snoc (postings : List Posting) (posting : Posting) (texts : List (String × String)) :
    sumOf (postings ++ [posting]) texts =
      sumOf postings texts + if posting.1 = texts then posting.2 else 0 := by
  rw [sumOf, List.filter_append, List.map_append, List.sum_append, List.filter_singleton]
  by_cases h : posting.1 = texts
  · simp [h, sumOf]
  · rw [beq_eq_false_iff_ne.mpr h, if_neg h]
    rfl

section Add

variable {texts : List (String × String)} {known : List (List (String × String))} (amount : Nat)
  (total : List (String × String) → Nat)

theorem add_of_mem (hnodup : known.Nodup) (h : texts ∈ known) :
    add (.ofTexts texts) (.int amount) (known.map fun other => (.ofTexts other, .int (total other))) =
      known.map fun other =>
        (.ofTexts other, .int ((total other + if texts = other then amount else 0 : Nat))) := by
  induction known with
  | nil => cases h
  | cons first rest ih =>
    rw [List.nodup_cons] at hnodup
    rw [List.map_cons, List.map_cons, add, Attributes.alike_ofTexts]
    by_cases hfirst : texts = first
    · subst hfirst
      have hrest : ∀ other ∈ rest, texts ≠ other := by
        rintro other hother rfl
        exact hnodup.1 hother
      rw [beq_self_eq_true, if_pos rfl, if_pos rfl]
      refine congrArg₂ List.cons rfl (List.map_congr_left fun other hother => ?_)
      rw [if_neg (hrest other hother), Nat.add_zero]
    · have hmem := (List.mem_cons.mp h).resolve_left hfirst
      rw [beq_eq_false_iff_ne.mpr (Ne.symm hfirst), if_neg hfirst, Nat.add_zero]
      exact congrArg (List.cons _) (ih hnodup.2 hmem)

theorem add_of_notMem (h : texts ∉ known) :
    add (.ofTexts texts) (.int amount) (known.map fun other => (.ofTexts other, .int (total other))) =
      (known.map fun other => (.ofTexts other, .int (total other))) ++
        [(.ofTexts texts, .int amount)] := by
  induction known with
  | nil => simp [add, Number.add]
  | cons first rest ih =>
    rw [List.mem_cons, not_or] at h
    rw [List.map_cons, add, Attributes.alike_ofTexts, beq_eq_false_iff_ne.mpr (Ne.symm h.1)]
    exact congrArg (List.cons _) (ih h.2)

end Add

theorem sumOf_eq_zero {postings : List Posting} {texts : List (String × String)}
    (h : texts ∉ postings.map (·.1)) : sumOf postings texts = 0 := by
  have hnone : postings.filter (·.1 == texts) = [] := by
    rw [List.filter_eq_nil_iff]
    intro posting hposting hsame
    exact h (eq_of_beq hsame ▸ List.mem_map_of_mem hposting)
  rw [sumOf, hnone]
  rfl

/-- To add an amount is to have one posting more. -/
theorem add_ofPostings (postings : List Posting) (posting : Posting) :
    add (.ofTexts posting.1) (.int posting.2) (ofPostings postings) = ofPostings (postings ++ [posting]) := by
  rw [ofPostings, ofPostings, List.map_append, List.map_singleton, eraseDups_snoc]
  simp only [sumOf_snoc]
  split
  · next hmem => exact add_of_mem _ _ (nodup_eraseDups _) (List.mem_eraseDups.mpr hmem)
  · next hmem =>
    have hnew : posting.1 ∉ (postings.map (·.1)).eraseDups := fun h => hmem (List.mem_eraseDups.mp h)
    rw [add_of_notMem _ _ hnew, List.map_append, List.map_singleton, sumOf_eq_zero hmem, if_pos rfl,
      Nat.zero_add]
    refine congrArg (· ++ _) (List.map_congr_left fun other hother => ?_)
    have hother : posting.1 ≠ other := by
      rintro rfl
      exact hnew hother
    rw [if_neg hother, Nat.add_zero]

end Totals

namespace Metrics

variable (postings : List Posting) (totals : Totals)

theorem add_stage (name : String) : add ⟨totals, .ofPostings postings⟩ (.stage (.str name)) =
    ⟨totals, .ofPostings (postings ++ [([("stage", name)], 1)])⟩ :=
  congrArg (Metrics.mk totals) (Totals.add_ofPostings postings ([("stage", name)], 1))

theorem add_count {list size definition : Json} {text : String} {amount : Number}
    (h : judge size = .counted amount) (m : Metrics) : m.add (.count list size definition text) =
      { m with counts := m.counts.add (Attributes.kept (countAttributes list definition)) amount } := by
  simp only [add, attributesOf_count h, h]

theorem add_size (list : String) {size : Nat} (definition : Option String) (h : countable size = true) :
    add ⟨.ofPostings postings, totals⟩ (.ofSize list size definition) =
      ⟨.ofPostings (postings ++ [(sizeLabels list definition, size)]), totals⟩ := by
  have hjudge : judge (.ofNat size) = .counted (.int size) := by rw [judge_size, if_pos h]
  rw [Event.ofSize, add_count hjudge, countAttributes_ofText, Attributes.kept_ofTexts]
  exact congrArg (Metrics.mk · totals) (Totals.add_ofPostings postings (sizeLabels list definition, size))

end Metrics

end Bpmn
