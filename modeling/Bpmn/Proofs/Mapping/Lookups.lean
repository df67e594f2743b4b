import Bpmn.Query
import Bpmn.Mapping.Context
import Bpmn.Proofs.Checked

namespace Bpmn

namespace MappedContext

/-- What a list has first under a key: an item that no item with the key precedes, or none if no item has
the key. -/
inductive First {α : Type} (key : α → Option String) (id : Option String) (items : List α) :
    Option α → Prop
  | none (hnone : ∀ a ∈ items, key a ≠ id) : First key id items none
  | some (before after : List α) (a : α) (hsplit : items = before ++ a :: after) (hkey : key a = id)
      (hbefore : ∀ b ∈ before, key b ≠ id) : First key id items (some a)

section First

variable {α : Type} {key : α → Option String} {id : Option String} {items : List α}

theorem first_find? : First key id items (items.find? fun a => key a == id) := by
  cases hfind : items.find? fun a => key a == id with
  | none =>
    refine .none ?_
    intro a ha
    simpa using List.find?_eq_none.mp hfind a ha
  | some a =>
    obtain ⟨hkey, before, after, hsplit, hbefore⟩ := List.find?_eq_some_iff_append.mp hfind
    refine .some before after a hsplit (by simpa using hkey) ?_
    intro b hb
    simpa using hbefore b hb

theorem First.eq_find? {found : Option α} (h : First key id items found) :
    found = items.find? fun a => key a == id := by
  symm
  cases h with
  | none hnone =>
    apply List.find?_eq_none.mpr
    intro a ha
    simpa using hnone a ha
  | some before after a hsplit hkey hbefore =>
    refine List.find?_eq_some_iff_append.mpr ⟨by simpa using hkey, before, after, hsplit, ?_⟩
    intro b hb
    simpa using hbefore b hb

/-- Of the items of a kind, the first under the key is the first of all items exactly when that one is of
the kind. -/
theorem first_filter_iff {kind : α → Bool} {found : Option α} (h : First key id items found) :
    First key id (items.filter kind) found ↔ ∀ a, found = some a → kind a = true := by
  constructor
  · intro hfirst a hfound
    subst hfound
    cases hfirst with
    | some before after a hsplit hkey hbefore =>
      have hmem : a ∈ items.filter kind := by
        rw [hsplit]
        exact List.mem_append_right before List.mem_cons_self
      exact (List.mem_filter.mp hmem).2
  · intro hkind
    cases h with
    | none hnone =>
      refine .none ?_
      intro a ha
      exact hnone a (List.mem_filter.mp ha).1
    | some before after a hsplit hkey hbefore =>
      have hsplit : items.filter kind = before.filter kind ++ a :: after.filter kind := by
        rw [hsplit, List.filter_append, List.filter_cons_of_pos (hkind a rfl)]
      refine .some (before.filter kind) (after.filter kind) a hsplit hkey ?_
      intro b hb
      exact hbefore b (List.mem_filter.mp hb).1

end First

variable (m : MappedContext) (id : Option String)

/-- Every lookup but that of errors gives what the list has first under the identifier.  The lookup of errors
does exactly when the first activity with the identifier, if there is one, is an error. -/
theorem lookups_first :
    First (·.id) id m.processes (m.process? id) ∧
    First (·.id) id (m.activitiesIn none) (m.activity? id) ∧
    First (·.id) id m.dataObjects (m.dataObject? id) ∧
    First (·.id) id (m.sequenceFlowsIn none) (m.sequenceFlow? id) ∧
    (First (·.id) id m.errors (m.error? id) ↔
      ∀ a, First (·.id) id (m.activitiesIn none) (some a) → a.type.isText "bpmn:Error" = true) := by
  have hactivity : First (·.id) id m.activities (m.activity? id) := first_find?
  refine ⟨first_find?, hactivity, first_find?, first_find?, ?_⟩
  have hfirst (a : Activity) : First (·.id) id m.activities (some a) ↔ m.activity? id = some a := by
    constructor
    · intro h
      exact h.eq_find?.symm
    · intro h
      rw [← h]
      exact hactivity
  calc First (·.id) id m.errors (m.error? id)
      ↔ ∀ a, m.activity? id = some a → a.type.isText "bpmn:Error" = true := first_filter_iff hactivity
    _ ↔ ∀ a, First (·.id) id m.activities (some a) → a.type.isText "bpmn:Error" = true := by
      simp only [hfirst]

/-- A task and no error. -/
def errorless : Graph where
  contents := #[
    .object [("$type", .str "bpmn:Task"), ("id", .str "t")],
    .list [.node 0],
    .object [("$type", .str "bpmn:Definitions"), ("id", .str "d"), ("rootElements", .list 1)],
    .object [("rootElement", .node 2)]]

/-- The task is found as an error. -/
theorem error_found_errorless :
    ∃ m diary, (ofDocument errorless (.node 3) none).result = .ok (m, diary) ∧ m.errors = [] ∧
      (∃ a, m.error? (some "t") = some a ∧ a.type.isText "bpmn:Task" = true) ∧
      ¬ First (·.id) (some "t") m.errors (m.error? (some "t")) := by
  have hrun : (ofDocument errorless (.node 3) none).result.toOption.any (fun made =>
      made.1.errors.isEmpty && (made.1.error? (some "t")).any (·.type.isText "bpmn:Task")) = true := by
    decide +kernel
  cases hresult : (ofDocument errorless (.node 3) none).result with
  | error fault =>
    rw [hresult] at hrun
    cases hrun
  | ok made =>
    obtain ⟨m, diary⟩ := made
    simp only [hresult, Except.toOption, Option.any_some, Bool.and_eq_true, List.isEmpty_iff,
      Option.any_eq_true] at hrun
    obtain ⟨herrors, a, ha, htype⟩ := hrun
    refine ⟨m, diary, rfl, herrors, ⟨a, ha, htype⟩, ?_⟩
    intro hfirst
    have hfind := hfirst.eq_find?
    rw [ha, herrors] at hfind
    cases hfind

end MappedContext

end Bpmn
