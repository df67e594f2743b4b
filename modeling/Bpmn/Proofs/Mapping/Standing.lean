import Bpmn.Proofs.Mapping.Nesting

namespace Bpmn

namespace Graph

variable (g : Graph)

/-- The elements of a list that a walk meets in a container. -/
def met (c : Nat) (items : List Value) : List Visit :=
  (direct c items).filter fun v => ¬ (g.IsSkipped v.place ∨ g.IsA v.place Kind.collaboration)

/-- An element is one of the flow elements of another. -/
def HasElement (p q : Nat) : Prop :=
  ∃ children, g.itemsOrNone (g.field p "flowElements") = .ok children ∧ .node q ∈ children

variable {g}

@[simp] theorem met_nil (c : Nat) : g.met c [] = [] := rfl

theorem met_leftOut {c place : Nat} {rest : List Value}
    (kind : g.IsSkipped place ∨ g.IsA place Kind.collaboration) :
    g.met c (.node place :: rest) = g.met c rest := by
  rw [met, direct_cons, List.filter_cons_of_neg (by simpa [or_iff_not_imp_left] using kind), met]

theorem met_cons {c place : Nat} {rest : List Value}
    (kind : ¬ (g.IsSkipped place ∨ g.IsA place Kind.collaboration)) :
    g.met c (.node place :: rest) = ⟨c, place⟩ :: g.met c rest := by
  rw [met, direct_cons, List.filter_cons_of_pos (by simpa using kind), met]

theorem node_of_direct {c : Nat} {items : List Value} {v : Visit} (h : v ∈ direct c items) :
    .node v.place ∈ items := by
  obtain ⟨item, hitem, heq⟩ := List.mem_filterMap.mp h
  cases item with
  | node place =>
    obtain rfl := Option.some.inj heq
    exact hitem
  | _ => cases heq

/-- The elements of the root are spanned behind it. -/
theorem HasRoot.spans {document : Value} {root : Nat} {items : List Value} {all : List Nat}
    (hroot : g.HasRoot document root items) (h : g.Spans [.node root] all) :
    ∃ part, g.Spans items part ∧ (root :: part).Sublist all := by
  cases h with
  | @node _ _ below later inside after =>
    obtain ⟨part, hpart, hsub⟩ := inside.under (by simp) hroot.areElements
    exact ⟨part, hpart, (hsub.cons_cons root).trans (List.sublist_append_left _ later)⟩
  | other kind => exact absurd rfl (kind root)

/-- An item under one of the keys of containment stands in the object. -/
theorem contains_of_items {p q : Nat} {key : String} {items : List Value}
    (hkey : key ∈ ["rootElements", "flowElements", "messageFlows"])
    (hitems : g.itemsOrNone (g.field p key) = .ok items) (hq : .node q ∈ items) : g.Contains p q := by
  refine List.mem_flatMap.mpr ⟨key, hkey, ?_⟩
  rw [hitems]
  exact hq

theorem HasElement.contains {p q : Nat} (h : g.HasElement p q) : g.Contains p q := by
  obtain ⟨children, hchildren, hq⟩ := h
  exact contains_of_items (by simp) hchildren hq

/-- In a tree nothing stands in what has been spanned from a list that holds it. -/
theorem Spans.not_contains {items : List Value} {all : List Nat} (h : g.Spans items all)
    (hnodup : all.Nodup) {p q : Nat} (hp : p ∈ all) (hq : .node q ∈ items) : ¬ g.Contains p q := by
  induction h with
  | nil => cases hp
  | @node place rest below later inside after ihi iha =>
    rw [List.cons_append, List.nodup_cons, List.nodup_append, List.mem_append, not_or] at hnodup
    obtain ⟨⟨hbelow, hlater⟩, -, hnodupLater, hapart⟩ := hnodup
    intro hcontains
    have hnotBelow : q ∉ below := by
      rcases List.mem_cons.mp hq with hq | hq
      · obtain rfl := Value.node.inj hq
        exact hbelow
      · exact fun hin => hapart q hin q (after.mem hq) rfl
    simp only [List.cons_append, List.mem_cons, List.mem_append] at hp
    rcases hp with rfl | hp | hp
    · exact hnotBelow (inside.mem hcontains)
    · exact hnotBelow (inside.closed hp hcontains)
    · rcases List.mem_cons.mp hq with hq | hq
      · obtain rfl := Value.node.inj hq
        exact hlater (after.closed hp hcontains)
      · exact iha hnodupLater hp hq hcontains
  | other kind _ ih =>
    rcases List.mem_cons.mp hq with hq | hq
    · exact absurd hq.symm (kind q)
    · exact ih hnodup hp hq

/-- An element stands in one other in a tree. -/
theorem Spans.parent_unique {items : List Value} {all : List Nat} (h : g.Spans items all)
    (hnodup : all.Nodup) {p p' q : Nat} (hp : p ∈ all) (hp' : p' ∈ all) (hcontains : g.Contains p q)
    (hcontains' : g.Contains p' q) : p = p' := by
  induction h with
  | nil => cases hp
  | @node place rest below later inside after ihi iha =>
    rw [List.cons_append, List.nodup_cons, List.nodup_append] at hnodup
    obtain ⟨-, hnodupBelow, hnodupLater, hapart⟩ := hnodup
    -- What stands in the place or in something below it is not among what comes later.
    have later_of {r : Nat} (hr : r = place ∨ r ∈ below) (hin : g.Contains r q) {r' : Nat}
        (hr' : r' ∈ later) : ¬ g.Contains r' q := by
      intro hin'
      have hq : q ∈ below := by
        rcases hr with rfl | hr
        · exact inside.mem hin
        · exact inside.closed hr hin
      exact hapart q hq q (after.closed hr' hin') rfl
    simp only [List.cons_append, List.mem_cons, List.mem_append] at hp hp'
    rcases hp with rfl | hp | hp
    · rcases hp' with rfl | hp' | hp'
      · rfl
      · exact absurd hcontains' (inside.not_contains hnodupBelow hp' hcontains)
      · exact absurd hcontains' (later_of (.inl rfl) hcontains hp')
    · rcases hp' with rfl | hp' | hp'
      · exact absurd hcontains (inside.not_contains hnodupBelow hp hcontains')
      · exact ihi hnodupBelow hp hp'
      · exact absurd hcontains' (later_of (.inr hp) hcontains hp')
    · rcases hp' with rfl | hp' | hp'
      · exact absurd hcontains (later_of (.inl rfl) hcontains' hp)
      · exact absurd hcontains (later_of (.inr hp') hcontains' hp)
      · exact iha hnodupLater hp hp'
  | other _ _ ih => exact ih hnodup hp hp'

variable {c : Nat} {items : List Value} {visits : List Visit}

/-- Nothing is met in what is neither the container nor met itself. -/
theorem Visits.filter_eq_nil (h : g.Visits c items visits) {s : Nat} (hc : s ≠ c)
    (hs : s ∉ visits.map (·.place)) : (visits.filter fun v => v.container = s) = [] := by
  refine List.filter_eq_nil_iff.mpr ?_
  intro v hv hcontainer
  have hcontainer : v.container = s := of_decide_eq_true hcontainer
  rcases h.container v hv with htop | ⟨w, hw, hplace, -⟩
  · exact hc (hcontainer.symm.trans htop)
  · exact hs (List.mem_map.mpr ⟨w, hw, hplace.trans hcontainer⟩)

/-- What is met right in the container of a walk are its items. -/
theorem Visits.filter_top (h : g.Visits c items visits) (hc : c ∉ visits.map (·.place)) :
    (visits.filter fun v => v.container = c) = g.met c items := by
  induction h with
  | nil => rfl
  | leftOut kind _ ih => rw [met_leftOut kind, ih hc]
  | @scope c place rest children below later kind _ inside _ _ iha =>
    simp only [List.cons_append, List.map_cons, List.map_append, List.mem_cons, List.mem_append,
      not_or] at hc
    obtain ⟨hplace, hbelow, hlater⟩ := hc
    rw [met_cons kind.not_leftOut, List.cons_append, List.filter_cons_of_pos (by simp),
      List.filter_append, inside.filter_eq_nil hplace hbelow, iha hlater, List.nil_append]
  | leaf kind _ ih =>
    rw [List.map_cons, List.mem_cons, not_or] at hc
    rw [met_cons kind.1, List.filter_cons_of_pos (by simp), ih hc.2]

/-- What is met right in a scope are its elements. -/
theorem Visits.filter_scope (h : g.Visits c items visits) (hc : c ∉ visits.map (·.place))
    (hnodup : (visits.map (·.place)).Nodup) : ∀ v ∈ visits, g.IsScope v.place →
      ∃ children, g.itemsOrNone (g.field v.place "flowElements") = .ok children ∧
        (visits.filter fun w => w.container = v.place) = g.met v.place children := by
  induction h with
  | nil => simp
  | leftOut _ _ ih => exact ih hc hnodup
  | @scope c place rest children below later kind hitems inside after ihi iha =>
    simp only [List.cons_append, List.map_cons, List.map_append, List.mem_cons, List.mem_append,
      not_or] at hc
    obtain ⟨hplace, hbelow, hlater⟩ := hc
    rw [List.cons_append, List.map_cons, List.map_append, List.nodup_cons, List.nodup_append,
      List.mem_append, not_or] at hnodup
    obtain ⟨⟨hin, hbehind⟩, hnodupBelow, hnodupLater, hapart⟩ := hnodup
    intro v hv hscope
    simp only [List.cons_append, List.mem_cons, List.mem_append] at hv
    rcases hv with rfl | hv | hv
    · refine ⟨children, hitems, ?_⟩
      rw [List.cons_append, List.filter_cons_of_neg (by simpa using hplace), List.filter_append,
        inside.filter_top hin, after.filter_eq_nil (Ne.symm hplace) hbehind, List.append_nil]
    · obtain ⟨own, hown, hfilter⟩ := ihi hin hnodupBelow v hv hscope
      have hmem : v.place ∈ below.map (·.place) := List.mem_map_of_mem hv
      have hne : c ≠ v.place := fun heq => hbelow (heq ▸ hmem)
      have hlate : v.place ∉ later.map (·.place) := fun hin => hapart _ hmem _ hin rfl
      refine ⟨own, hown, ?_⟩
      rw [List.cons_append, List.filter_cons_of_neg (by simpa using hne), List.filter_append, hfilter,
        after.filter_eq_nil (Ne.symm hne) hlate, List.append_nil]
    · obtain ⟨own, hown, hfilter⟩ := iha hlater hnodupLater v hv hscope
      have hmem : v.place ∈ later.map (·.place) := List.mem_map_of_mem hv
      have hne : c ≠ v.place := fun heq => hlater (heq ▸ hmem)
      have hother : v.place ≠ place := fun heq => hbehind (heq ▸ hmem)
      have hearly : v.place ∉ below.map (·.place) := fun hin => hapart _ hin _ hmem rfl
      refine ⟨own, hown, ?_⟩
      rw [List.cons_append, List.filter_cons_of_neg (by simpa using hne), List.filter_append,
        inside.filter_eq_nil hother hearly, hfilter, List.nil_append]
  | @leaf c place rest later kind _ ih =>
    rw [List.map_cons, List.mem_cons, not_or] at hc
    rw [List.map_cons, List.nodup_cons] at hnodup
    intro v hv hscope
    rcases List.mem_cons.mp hv with rfl | hv
    · exact absurd hscope kind.2
    · obtain ⟨own, hown, hfilter⟩ := ih hc.2 hnodup.2 v hv hscope
      have hne : c ≠ v.place := fun heq => hc.2 (heq ▸ List.mem_map_of_mem hv)
      refine ⟨own, hown, ?_⟩
      rw [List.filter_cons_of_neg (by simpa using hne), hfilter]

/-- An element that is met is an item of the walk, or one of the elements of a scope that is met too. -/
theorem Visits.stands (h : g.Visits c items visits) : ∀ v ∈ visits,
    (v.container = c ∧ .node v.place ∈ items) ∨
      ∃ w ∈ visits, w.place = v.container ∧ g.IsScope w.place ∧ g.HasElement w.place v.place := by
  induction h with
  | nil => simp
  | leftOut _ _ ih =>
    intro v hv
    rcases ih v hv with ⟨htop, hin⟩ | hbelow
    · exact .inl ⟨htop, List.mem_cons_of_mem _ hin⟩
    · exact .inr hbelow
  | @scope c place rest children below later kind hitems _ _ ihi iha =>
    intro v hv
    simp only [List.cons_append, List.mem_cons, List.mem_append] at hv
    rcases hv with rfl | hv | hv
    · exact .inl ⟨rfl, List.mem_cons_self⟩
    · right
      rcases ihi v hv with ⟨htop, hin⟩ | ⟨w, hw, hbelow⟩
      · exact ⟨⟨c, place⟩, by simp, htop.symm, kind, children, hitems, hin⟩
      · exact ⟨w, by simp [hw], hbelow⟩
    · rcases iha v hv with ⟨htop, hin⟩ | ⟨w, hw, hbelow⟩
      · exact .inl ⟨htop, List.mem_cons_of_mem _ hin⟩
      · exact .inr ⟨w, by simp [hw], hbelow⟩
  | leaf _ _ ih =>
    intro v hv
    rcases List.mem_cons.mp hv with rfl | hv
    · exact .inl ⟨rfl, List.mem_cons_self⟩
    · rcases ih v hv with ⟨htop, hin⟩ | ⟨w, hw, hbelow⟩
      · exact .inl ⟨htop, List.mem_cons_of_mem _ hin⟩
      · exact .inr ⟨w, List.mem_cons_of_mem _ hw, hbelow⟩

end Graph

end Bpmn
