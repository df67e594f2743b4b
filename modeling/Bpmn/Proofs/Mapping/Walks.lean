import Bpmn.Proofs.Mapping.Yield

namespace Bpmn

/-- An element that is met, and the element it stands in. -/
structure Visit where
  container : Nat
  place : Nat

/-- An element that an extension gets to see.  What is met below a collaboration is hidden. -/
structure Stop where
  place : Nat
  hidden : Bool

namespace Graph

variable (g : Graph)

/-- The elements in a scope in pre-order.  References and collaborations are left out with everything
below them; processes and sub-processes alone are descended into. -/
inductive Visits : Nat → List Value → List Visit → Prop where
  | nil {c} : Visits c [] []
  | leftOut {c place rest later} (kind : g.IsSkipped place ∨ g.IsA place Kind.collaboration)
      (after : Visits c rest later) : Visits c (.node place :: rest) later
  | scope {c place rest children below later} (kind : g.IsScope place)
      (items : g.itemsOrNone (g.field place "flowElements") = .ok children)
      (inside : Visits place children below) (after : Visits c rest later) :
      Visits c (.node place :: rest) (⟨c, place⟩ :: below ++ later)
  | leaf {c place rest later}
      (kind : ¬ (g.IsSkipped place ∨ g.IsA place Kind.collaboration) ∧ ¬ g.IsScope place)
      (after : Visits c rest later) : Visits c (.node place :: rest) (⟨c, place⟩ :: later)

/-- The message flows among some elements and in the collaborations there, also in collaborations that
are listed among message flows. -/
inductive MessageFlows (c : Nat) : List Value → List Visit → Prop where
  | nil : MessageFlows c [] []
  | flow {place rest later} (kind : g.IsA place Kind.messageFlow)
      (after : MessageFlows c rest later) : MessageFlows c (.node place :: rest) (⟨c, place⟩ :: later)
  | collaboration {place rest children below later} (kind : g.IsA place Kind.collaboration)
      (items : g.itemsOrNone (g.field place "messageFlows") = .ok children)
      (inside : MessageFlows c children below) (after : MessageFlows c rest later) :
      MessageFlows c (.node place :: rest) (below ++ later)
  | other {place rest later}
      (kind : ¬ g.IsA place Kind.messageFlow ∧ ¬ g.IsA place Kind.collaboration)
      (after : MessageFlows c rest later) : MessageFlows c (.node place :: rest) later

/-- The elements that an extension gets to see, in pre-order: collaborations are passed through, and the
elements below them are hidden. -/
inductive Tours : Bool → List Value → List Stop → Prop where
  | nil {hidden} : Tours hidden [] []
  | skipped {hidden place rest later} (kind : g.IsSkipped place) (after : Tours hidden rest later) :
      Tours hidden (.node place :: rest) later
  | collaboration {hidden place rest children below later} (kind : g.IsA place Kind.collaboration)
      (items : g.itemsOrNone (g.field place "messageFlows") = .ok children)
      (inside : Tours true children below) (after : Tours hidden rest later) :
      Tours hidden (.node place :: rest) (below ++ later)
  | scope {hidden place rest children below later} (kind : g.IsScope place)
      (items : g.itemsOrNone (g.field place "flowElements") = .ok children)
      (inside : Tours hidden children below) (after : Tours hidden rest later) :
      Tours hidden (.node place :: rest) (⟨place, hidden⟩ :: below ++ later)
  | leaf {hidden place rest later}
      (kind : ¬ (g.IsSkipped place ∨ g.IsA place Kind.collaboration) ∧ ¬ g.IsScope place)
      (after : Tours hidden rest later) : Tours hidden (.node place :: rest) (⟨place, hidden⟩ :: later)

/-- The elements of a list, met in one container. -/
def direct (c : Nat) (items : List Value) : List Visit :=
  items.filterMap fun
    | .node place => some ⟨c, place⟩
    | _ => none

@[simp] theorem direct_nil (c : Nat) : direct c [] = [] := rfl

@[simp] theorem direct_cons (c place : Nat) (rest : List Value) :
    direct c (.node place :: rest) = ⟨c, place⟩ :: direct c rest := rfl

variable {g}

theorem IsScope.not_leftOut {place : Nat} (h : g.IsScope place) :
    ¬ (g.IsSkipped place ∨ g.IsA place Kind.collaboration) := by
  rintro (⟨kind, hmem, hkind⟩ | hc)
  · rcases h with h | h
    · obtain rfl := h.unique hkind
      revert hmem
      decide
    · obtain rfl := h.unique hkind
      revert hmem
      decide
  · rcases h with h | h
    · exact h.not (by decide) hc
    · exact h.not (by decide) hc

theorem IsA.not_skipped {place : Nat} {kind : String} (h : g.IsA place kind)
    (hne : kind ∉ Kind.skipped) : ¬ g.IsSkipped place := by
  rintro ⟨other, hmem, hother⟩
  obtain rfl := h.unique hother
  exact hne hmem

theorem IsA.not_scope {place : Nat} {kind : String} (h : g.IsA place kind)
    (hne : kind ≠ Kind.process ∧ kind ≠ Kind.subProcess) : ¬ g.IsScope place := by
  rintro (hp | hp)
  · exact h.not hne.1 hp
  · exact h.not hne.2 hp

theorem MessageFlows.isA {c : Nat} {items : List Value} {visits : List Visit}
    (h : g.MessageFlows c items visits) : ∀ v ∈ visits, g.IsA v.place Kind.messageFlow := by
  induction h with
  | nil => simp
  | flow kind _ ih =>
    intro v hv
    rcases List.mem_cons.mp hv with rfl | hv
    · exact kind
    · exact ih v hv
  | collaboration _ _ _ _ ihi iha =>
    intro v hv
    rcases List.mem_append.mp hv with hv | hv
    · exact ihi v hv
    · exact iha v hv
  | other _ _ ih => exact ih

/-- Whatever is met below a collaboration is hidden. -/
theorem Tours.hidden {hidden : Bool} {items : List Value} {stops : List Stop}
    (h : g.Tours hidden items stops) (hh : hidden = true) : ∀ stop ∈ stops, stop.hidden = true := by
  induction h with
  | nil => simp
  | skipped _ _ ih => exact ih hh
  | collaboration _ _ _ _ ihi iha =>
    intro stop hstop
    rcases List.mem_append.mp hstop with hstop | hstop
    · exact ihi rfl stop hstop
    · exact iha hh stop hstop
  | scope _ _ _ _ ihi iha =>
    intro stop hstop
    rcases List.mem_append.mp hstop with hstop | hstop
    · rcases List.mem_cons.mp hstop with rfl | hstop
      · exact hh
      · exact ihi hh stop hstop
    · exact iha hh stop hstop
  | leaf _ _ ih =>
    intro stop hstop
    rcases List.mem_cons.mp hstop with rfl | hstop
    · exact hh
    · exact ih hh stop hstop

theorem Visits.unique {c : Nat} {items : List Value} {v v' : List Visit} (h : g.Visits c items v)
    (h' : g.Visits c items v') : v = v' := by
  induction h generalizing v' with
  | nil =>
    cases h'
    rfl
  | leftOut kind _ ih =>
    cases h' with
    | leftOut _ after => exact ih after
    | scope kind' => exact absurd kind kind'.not_leftOut
    | leaf kind' => exact absurd kind kind'.1
  | scope kind items _ _ ihi iha =>
    cases h' with
    | leftOut kind' => exact absurd kind' kind.not_leftOut
    | scope _ items' inside after =>
      rw [items] at items'
      cases items'
      rw [ihi inside, iha after]
    | leaf kind' => exact absurd kind kind'.2
  | leaf kind _ ih =>
    cases h' with
    | leftOut kind' => exact absurd kind' kind.1
    | scope kind' => exact absurd kind' kind.2
    | leaf _ after => rw [ih after]

theorem Visits.iff {c : Nat} {items : List Value} {v : List Visit} (h : g.Visits c items v)
    (v' : List Visit) : g.Visits c items v' ↔ v' = v := by
  constructor
  · exact fun h' => h'.unique h
  · rintro rfl
    exact h

theorem MessageFlows.unique {c : Nat} {items : List Value} {v v' : List Visit}
    (h : g.MessageFlows c items v) (h' : g.MessageFlows c items v') : v = v' := by
  induction h generalizing v' with
  | nil =>
    cases h'
    rfl
  | flow kind _ ih =>
    cases h' with
    | flow _ after => rw [ih after]
    | collaboration kind' => exact absurd kind' (kind.not (by decide))
    | other kind' => exact absurd kind kind'.1
  | collaboration kind items _ _ ihi iha =>
    cases h' with
    | flow kind' => exact absurd kind' (kind.not (by decide))
    | collaboration _ items' inside after =>
      rw [items] at items'
      cases items'
      rw [ihi inside, iha after]
    | other kind' => exact absurd kind kind'.2
  | other kind _ ih =>
    cases h' with
    | flow kind' => exact absurd kind' kind.1
    | collaboration kind' => exact absurd kind' kind.2
    | other _ after => exact ih after

theorem MessageFlows.iff {c : Nat} {items : List Value} {v : List Visit}
    (h : g.MessageFlows c items v) (v' : List Visit) : g.MessageFlows c items v' ↔ v' = v := by
  constructor
  · exact fun h' => h'.unique h
  · rintro rfl
    exact h

theorem Tours.unique {hidden : Bool} {items : List Value} {t t' : List Stop}
    (h : g.Tours hidden items t) (h' : g.Tours hidden items t') : t = t' := by
  have apart {place : Nat} (hc : g.IsA place Kind.collaboration) :
      ¬ g.IsSkipped place ∧ ¬ g.IsScope place :=
    ⟨hc.not_skipped (by decide), hc.not_scope (by decide)⟩
  induction h generalizing t' with
  | nil =>
    cases h'
    rfl
  | skipped kind _ ih =>
    cases h' with
    | skipped _ after => exact ih after
    | collaboration kind' => exact absurd kind (apart kind').1
    | scope kind' => exact absurd (.inl kind) kind'.not_leftOut
    | leaf kind' => exact absurd (.inl kind) kind'.1
  | collaboration kind items _ _ ihi iha =>
    cases h' with
    | skipped kind' => exact absurd kind' (apart kind).1
    | collaboration _ items' inside after =>
      rw [items] at items'
      cases items'
      rw [ihi inside, iha after]
    | scope kind' => exact absurd kind' (apart kind).2
    | leaf kind' => exact absurd (.inr kind) kind'.1
  | scope kind items _ _ ihi iha =>
    cases h' with
    | skipped kind' => exact absurd (.inl kind') kind.not_leftOut
    | collaboration kind' => exact absurd kind (apart kind').2
    | scope _ items' inside after =>
      rw [items] at items'
      cases items'
      rw [ihi inside, iha after]
    | leaf kind' => exact absurd kind kind'.2
  | leaf kind _ ih =>
    cases h' with
    | skipped kind' => exact absurd (.inl kind') kind.1
    | collaboration kind' => exact absurd (.inr kind') kind.1
    | scope kind' => exact absurd kind' kind.2
    | leaf _ after => rw [ih after]

theorem Tours.iff {hidden : Bool} {items : List Value} {t : List Stop} (h : g.Tours hidden items t)
    (t' : List Stop) : g.Tours hidden items t' ↔ t' = t := by
  constructor
  · exact fun h' => h'.unique h
  · rintro rfl
    exact h

end Graph

end Bpmn
