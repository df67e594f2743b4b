import Bpmn.Proofs.Mapping.Accounting
import Mathlib.Logic.Relation

namespace Bpmn

namespace Graph

variable (g : Graph)

/-- The values that stand right in an object. -/
def contained (place : Nat) : List Value :=
  ["rootElements", "flowElements", "messageFlows"].flatMap fun key =>
    (g.itemsOrNone (g.field place key)).toOption.getD []

/-- An object stands right in another one. -/
def Contains (p q : Nat) : Prop := .node q ∈ g.contained p

/-- The objects in a list and all that stands in them, in pre-order. -/
inductive Spans : List Value → List Nat → Prop where
  | nil : Spans [] []
  | node {place rest below later} (inside : Spans (g.contained place) below)
      (after : Spans rest later) : Spans (.node place :: rest) (place :: below ++ later)
  | other {v rest later} (kind : ∀ place, v ≠ .node place) (after : Spans rest later) :
      Spans (v :: rest) later

variable {g}

theorem Spans.mem {items : List Value} {all : List Nat} {place : Nat} (h : g.Spans items all)
    (hmem : .node place ∈ items) : place ∈ all := by
  induction h with
  | nil => cases hmem
  | node _ _ _ ih =>
    rcases List.mem_cons.mp hmem with hv | hrest
    · obtain rfl := Value.node.inj hv
      simp
    · have := ih hrest
      simp [this]
  | other kind _ ih =>
    rcases List.mem_cons.mp hmem with hv | hrest
    · exact absurd hv.symm (kind place)
    · exact ih hrest

theorem Spans.of_append {items more : List Value} {all : List Nat} (h : g.Spans (items ++ more) all) :
    ∃ a b, all = a ++ b ∧ g.Spans items a ∧ g.Spans more b := by
  induction items generalizing all with
  | nil => exact ⟨[], all, rfl, .nil, h⟩
  | cons v rest ih =>
    cases h with
    | @node place _ below later inside after =>
      obtain ⟨a, b, rfl, ha, hb⟩ := ih after
      exact ⟨place :: below ++ a, b, by simp, .node inside ha, hb⟩
    | other kind after =>
      obtain ⟨a, b, rfl, ha, hb⟩ := ih after
      exact ⟨a, b, rfl, .other kind ha, hb⟩

/-- The items under one of the keys of containment are spanned too. -/
theorem Spans.under {place : Nat} {all : List Nat} {key : String} {items : List Value}
    (h : g.Spans (g.contained place) all) (hkey : key ∈ ["rootElements", "flowElements", "messageFlows"])
    (hitems : g.itemsOrNone (g.field place key) = .ok items) :
    ∃ part, g.Spans items part ∧ part.Sublist all := by
  have hget : (g.itemsOrNone (g.field place key)).toOption.getD [] = items := by rw [hitems]; rfl
  obtain ⟨before, after, hsplit⟩ := List.append_of_mem hkey
  rw [contained, hsplit, List.flatMap_append, List.flatMap_cons, hget] at h
  obtain ⟨a, rest, rfl, -, hrest⟩ := h.of_append
  obtain ⟨part, b, rfl, hpart, -⟩ := hrest.of_append
  exact ⟨part, hpart, (List.sublist_append_left part b).trans (List.sublist_append_right a _)⟩

theorem Spans.closed {items : List Value} {all : List Nat} {p q : Nat} (h : g.Spans items all)
    (hp : p ∈ all) (hcontains : g.Contains p q) : q ∈ all := by
  induction h with
  | nil => cases hp
  | node inside _ ihi iha =>
    simp only [List.cons_append, List.mem_cons, List.mem_append] at hp ⊢
    rcases hp with rfl | hp | hp
    · exact .inr (.inl (inside.mem hcontains))
    · exact .inr (.inl (ihi hp))
    · exact .inr (.inr (iha hp))
  | other _ _ ih => exact ih hp

theorem Spans.closed_trans {items : List Value} {all : List Nat} {p q : Nat} (h : g.Spans items all)
    (hp : p ∈ all) (hwithin : Relation.TransGen g.Contains p q) : q ∈ all := by
  induction hwithin with
  | single hcontains => exact h.closed hp hcontains
  | tail _ hcontains ih => exact h.closed ih hcontains

/-- What stands in an object is spanned below it. -/
theorem Spans.mem_of_within {place q : Nat} {below : List Nat} (h : g.Spans (g.contained place) below)
    (hwithin : Relation.TransGen g.Contains place q) : q ∈ below := by
  obtain ⟨p, hp, hq⟩ := Relation.TransGen.head'_iff.mp hwithin
  rcases Relation.reflTransGen_iff_eq_or_transGen.mp hq with rfl | hq
  · exact h.mem hp
  · exact h.closed_trans (h.mem hp) hq

/-- In a tree nothing stands in itself or in what comes behind it. -/
theorem Spans.ordered {items : List Value} {all : List Nat} (h : g.Spans items all) (hnodup : all.Nodup) :
    all.Pairwise (fun p q => ¬ Relation.TransGen g.Contains q p) ∧
      ∀ p ∈ all, ¬ Relation.TransGen g.Contains p p := by
  induction h with
  | nil => exact ⟨.nil, by simp⟩
  | @node place rest below later inside after ihi iha =>
    rw [List.cons_append, List.nodup_cons, List.nodup_append] at hnodup
    obtain ⟨hplace, hbelow, hlater, hapart⟩ := hnodup
    obtain ⟨hpi, hii⟩ := ihi hbelow
    obtain ⟨hpa, hia⟩ := iha hlater
    rw [List.mem_append, not_or] at hplace
    refine ⟨?_, ?_⟩
    · rw [List.cons_append, List.pairwise_cons, List.pairwise_append]
      refine ⟨?_, hpi, hpa, ?_⟩
      · intro q hq hwithin
        rcases List.mem_append.mp hq with hq | hq
        · exact hplace.1 (inside.closed_trans hq hwithin)
        · exact hplace.2 (after.closed_trans hq hwithin)
      · intro p hp q hq hwithin
        exact hapart p hp p (after.closed_trans hq hwithin) rfl
    · intro p hp
      simp only [List.cons_append, List.mem_cons, List.mem_append] at hp
      rcases hp with rfl | hp | hp
      · exact fun hwithin => hplace.1 (inside.mem_of_within hwithin)
      · exact hii p hp
      · exact hia p hp
  | other _ _ ih => exact ih hnodup

/-- A walk meets elements in the order in which they are spanned. -/
theorem Visits.sublist {c : Nat} {items : List Value} {visits : List Visit} {all : List Nat}
    (h : g.Visits c items visits) (hspans : g.Spans items all) : (visits.map (·.place)).Sublist all := by
  induction h generalizing all with
  | nil => exact List.nil_sublist all
  | leftOut _ _ ih =>
    cases hspans with
    | @node _ _ below later inside after =>
      exact ((ih after).trans (List.sublist_append_right _ _)).trans (List.sublist_cons_self _ _)
    | other kind => exact absurd rfl (kind _)
  | scope _ items _ _ ihi iha =>
    cases hspans with
    | node inside after =>
      obtain ⟨part, hpart, hsub⟩ := inside.under (by simp) items
      rw [List.map_append, List.map_cons]
      exact (((ihi hpart).trans hsub).cons_cons _).append (iha after)
    | other kind => exact absurd rfl (kind _)
  | leaf _ _ ih =>
    cases hspans with
    | @node _ _ below later inside after =>
      exact ((ih after).trans (List.sublist_append_right _ _)).cons_cons _
    | other kind => exact absurd rfl (kind _)

/-- An element that is met stands in the container of the walk or in a scope that is met too. -/
theorem Visits.container {c : Nat} {items : List Value} {visits : List Visit}
    (h : g.Visits c items visits) : ∀ v ∈ visits,
      v.container = c ∨ ∃ w ∈ visits, w.place = v.container ∧ g.IsScope w.place := by
  induction h with
  | nil => simp
  | leftOut _ _ ih => exact ih
  | @scope c place rest children below later kind _ _ _ ihi iha =>
    intro v hv
    simp only [List.cons_append, List.mem_cons, List.mem_append] at hv
    rcases hv with rfl | hv | hv
    · exact .inl rfl
    · right
      rcases ihi v hv with hc | ⟨w, hw, hplace, hscope⟩
      · exact ⟨⟨c, place⟩, by simp, hc.symm, kind⟩
      · exact ⟨w, by simp [hw], hplace, hscope⟩
    · rcases iha v hv with hc | ⟨w, hw, hplace, hscope⟩
      · exact .inl hc
      · exact .inr ⟨w, by simp [hw], hplace, hscope⟩
  | leaf _ _ ih =>
    intro v hv
    rcases List.mem_cons.mp hv with rfl | hv
    · exact .inl rfl
    · rcases ih v hv with hc | ⟨w, hw, hplace, hscope⟩
      · exact .inl hc
      · exact .inr ⟨w, List.mem_cons_of_mem _ hw, hplace, hscope⟩

theorem MessageFlows.container {c : Nat} {items : List Value} {visits : List Visit}
    (h : g.MessageFlows c items visits) : ∀ v ∈ visits, v.container = c := by
  induction h with
  | nil => simp
  | flow _ _ ih => exact List.forall_mem_cons.mpr ⟨rfl, ih⟩
  | collaboration _ _ _ _ ihi iha => exact List.forall_mem_append.mpr ⟨ihi, iha⟩
  | other _ _ ih => exact ih

theorem container_of_direct {c : Nat} {items : List Value} : ∀ v ∈ direct c items, v.container = c := by
  intro v hv
  obtain ⟨item, -, hitem⟩ := List.mem_filterMap.mp hv
  cases item with
  | node place =>
    obtain rfl := Option.some.inj hitem
    rfl
  | _ => cases hitem

theorem mem_direct {c place : Nat} {items : List Value} (h : .node place ∈ items) :
    ⟨c, place⟩ ∈ direct c items :=
  List.mem_filterMap.mpr ⟨.node place, h, rfl⟩

end Graph

theorem Graph.forall₂_of_headings {α : Type} {g : Graph} {p : Nat → Prop} [DecidablePred p]
    {f : α → Heading} {l : List α} {visits : List Visit} (h : l.map f = g.headings p visits) :
    List.Forall₂ (fun e v => f e = g.heading v) l (visits.filter fun v => p v.place) := by
  have heq : List.Forall₂ Eq (l.map f) ((visits.filter fun v => p v.place).map g.heading) := by
    rw [List.forall₂_eq_eq_eq]
    exact h
  rwa [List.forall₂_map_left_iff, List.forall₂_map_right_iff] at heq

/-- An item of the second of two lists side by side has a partner. -/
theorem exists_mem_zip {α β : Type} {R : α → β → Prop} {l : List α} {l' : List β}
    (h : List.Forall₂ R l l') {b : β} (hb : b ∈ l') : ∃ a, (a, b) ∈ l.zip l' ∧ R a b := by
  obtain ⟨i, hi, rfl⟩ := List.mem_iff_getElem.mp hb
  have hi' : i < l.length := h.length_eq ▸ hi
  refine ⟨l[i], ?_, (List.forall₂_iff_get.mp h).2 i hi' hi⟩
  have hzip : i < (l.zip l').length := by
    rw [List.length_zip]
    omega
  have hget : (l.zip l')[i] = (l[i], l'[i]) := List.getElem_zip
  exact hget ▸ List.getElem_mem hzip

namespace MappedContext

variable (m : MappedContext) (g : Graph)

/-- The processes of a context, each with the visit that it is of. -/
def processVisits (level : List Visit) : List (Process × Visit) :=
  m.processes.zip (level.filter fun v => g.IsA v.place Kind.process)

/-- The activities of a context, each with the visit that it is of. -/
def activityVisits (visits : List Visit) : List (Activity × Visit) :=
  m.activities.zip (visits.filter fun v => g.IsActivity v.place)

/-- A scope is that of the definition, for what stands in the root, or that of the entity of the process or
sub-process in which something has been met. -/
inductive Names (root : Nat) (level visits : List Visit) (v : Visit) (scope : ScopeRef) : Prop where
  | definition (top : v.container = root) (named : scope = ⟨m.definition.id, m.definition.type⟩)
  | process {p w} (listed : (p, w) ∈ m.processVisits g level) (holds : w.place = v.container)
      (named : scope.id = p.id ∧ Json.ofText scope.type = p.type)
  | subProcess {a w} (listed : (a, w) ∈ m.activityVisits g visits) (holds : w.place = v.container)
      (kind : a.type = .str Kind.subProcess)
      (named : scope.id = a.id ∧ Json.ofText scope.type = a.type)

/-- Each entity names the scope of what it stands in directly, and nothing is listed before the sub-process
that it stands in at any depth. -/
structure Nested (root : Nat) (items : List Value) (visits : List Visit) : Prop where
  processes : List.Forall₂ (fun p v => m.Names g root (Graph.direct root items) visits v p.parent)
    m.processes ((Graph.direct root items).filter fun v => g.IsA v.place Kind.process)
  activities : List.Forall₂ (fun a v => m.Names g root (Graph.direct root items) visits v a.parent)
    m.activities (visits.filter fun v => g.IsActivity v.place)
  dataObjects : List.Forall₂ (fun d v => m.Names g root (Graph.direct root items) visits v d.parent)
    m.dataObjects (visits.filter fun v => g.IsA v.place Kind.dataObject)
  sequenceFlows : List.Forall₂ (fun f v => m.Names g root (Graph.direct root items) visits v f.parent)
    m.sequenceFlows (visits.filter fun v => g.IsA v.place Kind.sequenceFlow)
  messageFlows : ∀ f ∈ m.messageFlows, f.parent = ⟨m.definition.id, m.definition.type⟩
  ordered : ∀ (i j : Nat) (a b : Activity) (v w : Visit),
    (m.activityVisits g visits)[i]? = some (a, v) → (m.activityVisits g visits)[j]? = some (b, w) →
    Relation.TransGen g.Contains v.place w.place → i < j

variable {m g} {root : Nat} {items : List Value} {level visits flows : List Visit}

/-- An entity with the heading of a visit in the root names the definition. -/
theorem parent_of_top {e : Entity} {v : Visit} (hdefinition : g.Names ⟨m.definition.id, m.definition.type⟩ root)
    (hheading : e.heading = g.heading v) (htop : v.container = root) :
    e.parent = ⟨m.definition.id, m.definition.type⟩ := by
  have hid : Json.ofText e.parent.id = (g.field v.container "id").plain := congrArg Heading.parentId hheading
  have htype : Json.ofText e.parent.type = (g.field v.container "$type").plain :=
    congrArg Heading.parentType hheading
  rw [htop] at hid htype
  have hid := Json.ofText_inj (hid.trans hdefinition.1.symm)
  have htype := Json.ofText_inj (htype.trans hdefinition.2.symm)
  exact congrArg₂ ScopeRef.mk hid htype

/-- An entity names another one as its scope when it stands in the element of that. -/
theorem named_of_heading {e e' : Entity} {v w : Visit} (hheading : e.heading = g.heading v)
    (hheading' : e'.heading = g.heading w) (hholds : w.place = v.container) :
    e.parent.id = e'.id ∧ Json.ofText e.parent.type = e'.type := by
  have hid : Json.ofText e.parent.id = (g.field v.container "id").plain := congrArg Heading.parentId hheading
  have htype : Json.ofText e.parent.type = (g.field v.container "$type").plain :=
    congrArg Heading.parentType hheading
  have hid' : Json.ofText e'.id = (g.field w.place "id").plain := congrArg Heading.id hheading'
  have htype' : e'.type = (g.field w.place "$type").plain := congrArg Heading.type hheading'
  rw [hholds] at hid' htype'
  exact ⟨Json.ofText_inj (hid.trans hid'.symm), htype.trans htype'.symm⟩

/-- What has been met in a tree names the definition or the entity of the scope it has been met in. -/
theorem names_of_heading {f : Flattened} {definition : Definition} {e : Entity} {v : Visit}
    (haccounts : f.Accounts g visits flows (Graph.direct root items))
    (hdefinition : g.Names ⟨definition.id, definition.type⟩ root)
    (hvisits : g.Visits root items visits)
    (hprocess : ∀ w ∈ visits, g.IsA w.place Kind.process → .node w.place ∈ items)
    (hv : v ∈ visits) (hheading : e.heading = g.heading v) :
    (ofFlattened definition f).Names g root (Graph.direct root items) visits v e.parent := by
  rcases hvisits.container v hv with htop | ⟨w, hw, hholds, hkind | hkind⟩
  · exact .definition htop (parent_of_top (m := ofFlattened definition f) hdefinition hheading htop)
  · have hlevel : ⟨root, w.place⟩ ∈ (Graph.direct root items).filter fun v => g.IsA v.place Kind.process :=
      List.mem_filter.mpr ⟨Graph.mem_direct (hprocess w hw hkind), decide_eq_true hkind⟩
    obtain ⟨p, hp, hheading'⟩ := exists_mem_zip (Graph.forall₂_of_headings haccounts.processes) hlevel
    exact .process hp hholds (named_of_heading hheading hheading' hholds)
  · have hactivity : g.IsActivity w.place := by
      simp +decide [Graph.IsActivity, hkind.iff]
    have hlisted : w ∈ visits.filter fun v => g.IsActivity v.place :=
      List.mem_filter.mpr ⟨hw, decide_eq_true hactivity⟩
    obtain ⟨a, ha, hheading'⟩ := exists_mem_zip (Graph.forall₂_of_headings haccounts.activities) hlisted
    have htype : a.type = (g.field w.place "$type").plain := congrArg Heading.type hheading'
    have hkind : g.field w.place "$type" = .str Kind.subProcess := hkind
    rw [hkind] at htype
    exact .subProcess ha hholds htype (named_of_heading hheading hheading' hholds)

/-- Activities are listed in the order in which their elements are spanned. -/
theorem lt_of_within {f : Flattened} {definition : Definition} {all : List Nat} {i j : Nat}
    {a b : Activity} {v w : Visit} (hvisits : g.Visits root items visits) (hspans : g.Spans items all)
    (hnodup : all.Nodup) (hv : ((ofFlattened definition f).activityVisits g visits)[i]? = some (a, v))
    (hw : ((ofFlattened definition f).activityVisits g visits)[j]? = some (b, w))
    (hwithin : Relation.TransGen g.Contains v.place w.place) : i < j := by
  obtain ⟨hpairwise, hirreflexive⟩ := hspans.ordered hnodup
  have hsub : ((visits.filter fun v => g.IsActivity v.place).map (·.place)).Sublist all :=
    (List.filter_sublist.map _).trans (hvisits.sublist hspans)
  have hordered := hpairwise.sublist hsub
  have hv' := (List.getElem?_zip_eq_some.mp hv).2
  have hw' := (List.getElem?_zip_eq_some.mp hw).2
  obtain ⟨hi, rfl⟩ := List.getElem?_eq_some_iff.mp hv'
  obtain ⟨hj, rfl⟩ := List.getElem?_eq_some_iff.mp hw'
  rcases Nat.lt_trichotomy i j with hlt | rfl | hgt
  · exact hlt
  · exact absurd hwithin (hirreflexive _ (hsub.subset (List.mem_map_of_mem (List.getElem_mem hi))))
  · have hnot := List.pairwise_iff_getElem.mp hordered j i (by simpa using hj) (by simpa using hi) hgt
    simp only [List.getElem_map] at hnot
    exact absurd hwithin hnot

/-- In a document whose elements form a tree and whose processes stand at the top, each entity of the
context names the definition or the entity that its element stands in directly, and a sub-process is
listed before the activities in it. -/
theorem nested_of_ofDocument {document : Value} {extension : Option Extension} {diary : Diary}
    {all : List Nat} (h : (ofDocument g document extension).result = .ok (m, diary))
    (hroot : g.HasRoot document root items) (hspans : g.Spans [.node root] all) (hnodup : all.Nodup)
    (hprocess : ∀ place ∈ all, g.IsA place Kind.process → .node place ∈ items) :
    ∃ visits, g.Visits root items visits ∧ m.Nested g root items visits := by
  obtain ⟨root', definition, links, items', f, hroot', hdefinition, hyields, rfl⟩ :=
    yields_of_ofDocument h
  obtain ⟨rfl, rfl⟩ := hroot.unique hroot'
  have hnames := Graph.names_of_definition hdefinition
  obtain ⟨visits, flows, hvisits, hflows, haccounts⟩ := hyields.accounts hnames
  obtain ⟨part, hpart, hpartSub, hin⟩ : ∃ part, g.Spans items part ∧ part.Nodup ∧ ∀ p ∈ part, p ∈ all := by
    cases hspans with
    | @node _ _ below later inside after =>
      obtain ⟨part, hpart, hsub⟩ := inside.under (by simp) hroot.areElements
      have hsub' : part.Sublist (root :: below ++ later) :=
        (hsub.trans (List.sublist_cons_self root below)).trans (List.sublist_append_left _ later)
      exact ⟨part, hpart, hnodup.sublist hsub', fun p hp => hsub'.subset hp⟩
    | other kind => exact absurd rfl (kind root)
  have htop : ∀ w ∈ visits, g.IsA w.place Kind.process → .node w.place ∈ items := by
    intro w hw
    have hmem := (hvisits.sublist hpart).subset (List.mem_map_of_mem hw)
    exact hprocess w.place (hin w.place hmem)
  have named {e : Entity} {v : Visit} (hv : v ∈ visits) (hheading : e.heading = g.heading v) :=
    names_of_heading haccounts hnames hvisits htop hv hheading
  refine ⟨visits, hvisits, ?_, ?_, ?_, ?_, ?_, ?_⟩
  · refine forall₂_of_mem (Graph.forall₂_of_headings haccounts.processes) ?_
    intro p v hv hheading
    have hcontainer := Graph.container_of_direct v (List.mem_of_mem_filter hv)
    exact .definition hcontainer (parent_of_top (m := ofFlattened definition f) hnames hheading hcontainer)
  · exact forall₂_of_mem (Graph.forall₂_of_headings haccounts.activities) fun a v hv hheading =>
      named (List.mem_of_mem_filter hv) hheading
  · exact forall₂_of_mem (Graph.forall₂_of_headings haccounts.dataObjects) fun d v hv hheading =>
      named (List.mem_of_mem_filter hv) hheading
  · exact forall₂_of_mem (Graph.forall₂_of_headings haccounts.sequenceFlows) fun e v hv hheading =>
      named (List.mem_of_mem_filter hv) hheading
  · intro e he
    have hmem : e.heading ∈ g.headings (g.IsA · Kind.messageFlow) flows :=
      haccounts.messageFlows ▸ List.mem_map_of_mem he
    obtain ⟨v, hv, hheading⟩ := List.mem_map.mp hmem
    have hcontainer := hflows.container v (List.mem_of_mem_filter hv)
    exact parent_of_top (m := ofFlattened definition f) hnames hheading.symm hcontainer
  · intro i j a b v w hv hw hwithin
    exact lt_of_within hvisits hpart hpartSub hv hw hwithin

theorem spans_nesting : nesting.Spans [.node 7] [7, 5, 4, 2, 0] := by
  have htask : nesting.Spans (nesting.contained 0) [] := .nil
  have hflow : nesting.Spans (nesting.contained 5) [] := .nil
  have hsubProcess : nesting.Spans (nesting.contained 2) [0] := .node htask .nil
  have hprocess : nesting.Spans (nesting.contained 4) [2, 0] := .node hsubProcess .nil
  have hroot : nesting.Spans (nesting.contained 7) [5, 4, 2, 0] := .node hflow (.node hprocess .nil)
  exact .node hroot .nil

theorem nested_nesting :
    ∃ m diary, (ofDocument nesting (.node 8) none).result = .ok (m, diary) ∧
      nesting.HasRoot (.node 8) 7 [.node 5, .node 4] ∧ nesting.Spans [.node 7] [7, 5, 4, 2, 0] ∧
      [7, 5, 4, 2, 0].Nodup ∧
      (∀ place ∈ [7, 5, 4, 2, 0], nesting.IsA place Kind.process → .node place ∈ [Value.node 5, .node 4]) ∧
      ∃ visits, nesting.Visits 7 [.node 5, .node 4] visits ∧
        m.Nested nesting 7 [.node 5, .node 4] visits := by
  have hsome : (ofDocument nesting (.node 8) none).result.toOption.isSome = true := by
    decide +kernel
  have hroot : nesting.HasRoot (.node 8) 7 [.node 5, .node 4] := ⟨rfl, rfl⟩
  have hnodup : [7, 5, 4, 2, 0].Nodup := by decide
  have hprocess : ∀ place ∈ [7, 5, 4, 2, 0], nesting.IsA place Kind.process →
      .node place ∈ [Value.node 5, .node 4] := by decide
  cases hrun : (ofDocument nesting (.node 8) none).result with
  | error fault =>
    rw [hrun] at hsome
    cases hsome
  | ok made =>
    exact ⟨made.1, made.2, rfl, hroot, spans_nesting, hnodup, hprocess,
      nested_of_ofDocument hrun hroot spans_nesting hnodup hprocess⟩

end MappedContext

end Bpmn
