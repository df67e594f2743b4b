import Bpmn.Query
import Bpmn.Proofs.Mapping.Standing

namespace Bpmn

namespace Graph

variable (g : Graph)

/-- The definition, the processes and the sub-processes have texts as identifiers, none of them empty and
no two of them the same. -/
structure ScopesNamed (root : Nat) (all : List Nat) : Prop where
  texts : ∀ p ∈ all, p = root ∨ g.IsScope p → ∃ id, id ≠ "" ∧ g.field p "id" = .str id
  apart : ∀ p ∈ all, ∀ q ∈ all, p = root ∨ g.IsScope p → q = root ∨ g.IsScope q →
    g.field p "id" = g.field q "id" → p = q

variable {g} {root : Nat} {all : List Nat} {items : List Value} {visits : List Visit}

theorem plain_isText {v : Value} {id : String} : v.plain.isText id = v.isText id := by
  cases v <;> rfl

/-- Visits in a scope are those whose container has the identifier of the scope. -/
theorem ScopesNamed.container_iff (hnamed : g.ScopesNamed root all) (hvisits : g.Visits root items visits)
    (hmem : ∀ p, p = root ∨ p ∈ visits.map (·.place) → p ∈ all) {v w : Visit} (hv : v ∈ visits)
    (hscope : g.IsScope v.place) (hw : w ∈ visits) {id : String} (hid : g.field v.place "id" = .str id) :
    (g.heading w).parentId.isText id = true ↔ w.container = v.place := by
  have hcontainer : w.container ∈ all ∧ (w.container = root ∨ g.IsScope w.container) := by
    rcases hvisits.container w hw with htop | ⟨u, hu, hplace, hkind⟩
    · exact ⟨hmem _ (.inl htop), .inl htop⟩
    · rw [← hplace]
      exact ⟨hmem _ (.inr (List.mem_map_of_mem hu)), .inr hkind⟩
  have hplace : v.place ∈ all := hmem _ (.inr (List.mem_map_of_mem hv))
  rw [heading, plain_isText, Value.isText_iff, ← hid]
  constructor
  · exact hnamed.apart _ hcontainer.1 _ hplace hcontainer.2 (.inr hscope)
  · intro h
    rw [h]

/-- The headings of the entities of a scope are those of what has been met right in it. -/
theorem headings_filter {α : Type} {f : α → Heading} {key : α → Option String} {l : List α}
    {p : Nat → Prop} [DecidablePred p] (hlist : l.map f = g.headings p visits)
    (hkey : ∀ a, (f a).parentId = .ofText (key a)) {id : String} {s : Nat}
    (hs : ∀ w ∈ visits, (g.heading w).parentId.isText id = true ↔ w.container = s) :
    (l.filter fun a => key a == some id).map f =
      g.headings p (visits.filter fun w => w.container = s) := by
  have hof : ∀ a, (key a == some id) = (f a).parentId.isText id := by
    intro a
    rw [hkey a]
    cases key a with
    | none => rfl
    | some text => rfl
  have hwanted : (l.filter fun a => key a == some id) =
      l.filter ((fun h : Heading => h.parentId.isText id) ∘ f) := by
    refine List.filter_congr ?_
    intro a _
    exact hof a
  have hcontainer : visits.filter ((fun h : Heading => h.parentId.isText id) ∘ g.heading) =
      visits.filter fun w => w.container = s := by
    refine List.filter_congr ?_
    intro w hw
    rw [Bool.eq_iff_iff, decide_eq_true_iff]
    exact hs w hw
  calc (l.filter fun a => key a == some id).map f
      = (l.map f).filter fun h => h.parentId.isText id := by rw [hwanted, List.filter_map]
    _ = (g.headings p visits).filter fun h => h.parentId.isText id := by rw [hlist]
    _ = ((visits.filter fun v => p v.place).filter
          ((fun h : Heading => h.parentId.isText id) ∘ g.heading)).map g.heading := by
        rw [headings, List.filter_map]
    _ = g.headings p (visits.filter ((fun h : Heading => h.parentId.isText id) ∘ g.heading)) := by
        rw [headings, List.filter_comm]
    _ = g.headings p (visits.filter fun w => w.container = s) := by rw [hcontainer]

/-- A sequence flow is never left out. -/
theorem headings_met_sequenceFlow {c : Nat} {children : List Value} :
    g.headings (g.IsA · Kind.sequenceFlow) (g.met c children) =
      g.headings (g.IsA · Kind.sequenceFlow) (direct c children) := by
  rw [headings, headings, met, List.filter_filter]
  congr 1
  refine List.filter_congr ?_
  intro v _
  by_cases kind : g.IsA v.place Kind.sequenceFlow
  · have hskipped : ¬ g.IsSkipped v.place := kind.not_skipped (by decide)
    have hcollaboration : ¬ g.IsA v.place Kind.collaboration := kind.not (by decide)
    simp [kind, hskipped, hcollaboration]
  · simp [kind]

end Graph

namespace MappedContext

theorem chosen_some {α : Type} {key : α → Option String} {id : String} (hid : id ≠ "") {l : List α} :
    chosen key (some id) l = l.filter fun a => key a == some id := by
  have hempty : id.isEmpty = false := by simpa using hid
  rw [chosen, wanted, Option.filter_some_pos (by simp [hempty])]

/-- A scope gives its own elements back: its activities, and its sequence flows, in document order. -/
theorem queries_of_ofDocument {g : Graph} {document : Value} {extension : Option Extension}
    {m : MappedContext} {diary : Diary} {root : Nat} {items : List Value} {all : List Nat}
    (h : (ofDocument g document extension).result = .ok (m, diary))
    (hroot : g.HasRoot document root items) (hspans : g.Spans [.node root] all) (hnodup : all.Nodup)
    (hnamed : g.ScopesNamed root all) :
    ∃ visits, (∀ v, g.Visits root items v ↔ v = visits) ∧
      ∀ v ∈ visits, g.IsScope v.place → ∃ id children, g.field v.place "id" = .str id ∧
        g.itemsOrNone (g.field v.place "flowElements") = .ok children ∧
        (m.activitiesIn (some id)).map (·.heading) = g.headings g.IsActivity (g.met v.place children) ∧
        (m.sequenceFlowsIn (some id)).map (·.heading) =
          g.headings (g.IsA · Kind.sequenceFlow) (Graph.direct v.place children) := by
  obtain ⟨root', definition, links, items', f, hroot', hdefinition, hyields, rfl⟩ :=
    yields_of_ofDocument h
  obtain ⟨rfl, rfl⟩ := hroot.unique hroot'
  obtain ⟨visits, flows, hvisits, -, haccounts⟩ := hyields.accounts (Graph.names_of_definition hdefinition)
  have hvisits : g.Visits root items visits := hvisits
  obtain ⟨part, hpart, hsub⟩ := hroot.spans hspans
  have hplaces : (root :: visits.map (·.place)).Sublist all :=
    ((hvisits.sublist hpart).cons_cons root).trans hsub
  have hapart := List.nodup_cons.mp (hnodup.sublist hplaces)
  have hmem : ∀ p, p = root ∨ p ∈ visits.map (·.place) → p ∈ all := by
    intro p hp
    exact hplaces.subset (List.mem_cons.mpr hp)
  refine ⟨visits, hvisits.iff, ?_⟩
  intro v hv hscope
  obtain ⟨id, hne, hid⟩ := hnamed.texts v.place (hmem _ (.inr (List.mem_map_of_mem hv))) (.inr hscope)
  obtain ⟨children, hchildren, hfilter⟩ := hvisits.filter_scope hapart.1 hapart.2 v hv hscope
  have hin (w : Visit) (hw : w ∈ visits) :
      (g.heading w).parentId.isText id = true ↔ w.container = v.place :=
    hnamed.container_iff hvisits hmem hv hscope hw hid
  refine ⟨id, children, hid, hchildren, ?_, ?_⟩
  · rw [activitiesIn, chosen_some hne, ← hfilter]
    exact Graph.headings_filter haccounts.activities (fun _ => rfl) hin
  · rw [sequenceFlowsIn, chosen_some hne, ← Graph.headings_met_sequenceFlow, ← hfilter]
    exact Graph.headings_filter haccounts.sequenceFlows (fun _ => rfl) hin

/-- A sub-process with a task and a sequence flow, between two tasks of a process that has a sequence flow
too. -/
def interleaved : Graph where
  contents := #[
    .object [("$type", .str "bpmn:Task"), ("id", .str "first")],
    .object [("$type", .str "bpmn:Task"), ("id", .str "inner")],
    .object [("$type", .str Kind.sequenceFlow), ("id", .str "innerFlow")],
    .list [.node 1, .node 2],
    .object [("$type", .str Kind.subProcess), ("id", .str "s"), ("flowElements", .list 3)],
    .object [("$type", .str Kind.sequenceFlow), ("id", .str "flow")],
    .object [("$type", .str "bpmn:Task"), ("id", .str "last")],
    .list [.node 0, .node 4, .node 5, .node 6],
    .object [("$type", .str Kind.process), ("id", .str "p"), ("flowElements", .list 7)],
    .list [.node 8],
    .object [("$type", .str "bpmn:Definitions"), ("id", .str "d"), ("rootElements", .list 9)],
    .object [("rootElement", .node 10)]]

theorem spans_interleaved : interleaved.Spans [.node 10] [10, 8, 0, 4, 1, 2, 5, 6] := by
  have hleaf (place : Nat) (hplace : interleaved.contained place = []) :
      interleaved.Spans (interleaved.contained place) [] := hplace ▸ .nil
  have hsubProcess : interleaved.Spans (interleaved.contained 4) [1, 2] :=
    .node (hleaf 1 rfl) (.node (hleaf 2 rfl) .nil)
  have hprocess : interleaved.Spans (interleaved.contained 8) [0, 4, 1, 2, 5, 6] :=
    .node (hleaf 0 rfl) (.node hsubProcess (.node (hleaf 5 rfl) (.node (hleaf 6 rfl) .nil)))
  have hroot : interleaved.Spans (interleaved.contained 10) [8, 0, 4, 1, 2, 5, 6] :=
    .node hprocess .nil
  exact .node hroot .nil

theorem scopesNamed_interleaved : interleaved.ScopesNamed 10 [10, 8, 0, 4, 1, 2, 5, 6] where
  texts := by
    have hscopes : ∀ p ∈ [10, 8, 0, 4, 1, 2, 5, 6], p = 10 ∨ interleaved.IsScope p →
        p = 10 ∨ p = 8 ∨ p = 4 := by decide
    intro p hp hscope
    rcases hscopes p hp hscope with rfl | rfl | rfl
    · exact ⟨"d", by decide, rfl⟩
    · exact ⟨"p", by decide, rfl⟩
    · exact ⟨"s", by decide, rfl⟩
  apart := by decide

theorem queries_interleaved :
    ∃ m diary, (ofDocument interleaved (.node 11) none).result = .ok (m, diary) ∧
      interleaved.HasRoot (.node 11) 10 [.node 8] ∧
      ∃ visits, (∀ v, interleaved.Visits 10 [.node 8] v ↔ v = visits) ∧
        ∀ v ∈ visits, interleaved.IsScope v.place →
          ∃ id children, interleaved.field v.place "id" = .str id ∧
            interleaved.itemsOrNone (interleaved.field v.place "flowElements") = .ok children ∧
            (m.activitiesIn (some id)).map (·.heading) =
              interleaved.headings interleaved.IsActivity (interleaved.met v.place children) ∧
            (m.sequenceFlowsIn (some id)).map (·.heading) =
              interleaved.headings (interleaved.IsA · Kind.sequenceFlow)
                (Graph.direct v.place children) := by
  have hsome : (ofDocument interleaved (.node 11) none).result.toOption.isSome = true := by
    decide +kernel
  have hroot : interleaved.HasRoot (.node 11) 10 [.node 8] := ⟨rfl, rfl⟩
  cases hrun : (ofDocument interleaved (.node 11) none).result with
  | error fault =>
    rw [hrun] at hsome
    cases hsome
  | ok made =>
    exact ⟨made.1, made.2, rfl, hroot,
      queries_of_ofDocument hrun hroot spans_interleaved (by decide) scopesNamed_interleaved⟩

end MappedContext

end Bpmn
