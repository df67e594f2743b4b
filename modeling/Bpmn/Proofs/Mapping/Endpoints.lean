import Bpmn.Proofs.Mapping.Origins
import Bpmn.Proofs.Mapping.Pairing
import Bpmn.Proofs.Mapping.Standing
import Mathlib.Data.List.Nodup

namespace Bpmn

namespace Survey

variable {s : Survey} {id : String}

theorem anyOf_iff {children : List Value} {found : Bool}
    (h : declares.anyOf s (.str id) children = .ok found) :
    found = true ↔ ∃ q, .node q ∈ children ∧ s.graph.field q "id" = .str id := by
  induction children with
  | nil =>
    obtain rfl := ok_pure.mp h
    simp
  | cons child rest ih =>
    simp only [declares.anyOf, Graph.get, ok_bind, ok_pure, Graph.placeOf_ok, Graph.same_text] at h
    obtain ⟨_, ⟨q, rfl, rfl⟩, named, hnamed, h⟩ := h
    obtain rfl := Except.ok.inj hnamed
    by_cases hid : s.graph.field q "id" = .str id
    · rw [if_pos (Value.isText_iff.mpr hid)] at h
      obtain rfl := ok_pure.mp h
      exact iff_of_true rfl ⟨q, List.mem_cons_self, hid⟩
    · rw [if_neg (mt Value.isText_iff.mp hid)] at h
      rw [ih h]
      constructor
      · rintro ⟨q', hq', hid'⟩
        exact ⟨q', List.mem_cons_of_mem _ hq', hid'⟩
      · rintro ⟨q', hq', hid'⟩
        rcases List.mem_cons.mp hq' with heq | hq'
        · obtain rfl := Value.node.inj heq
          exact absurd hid' hid
        · exact ⟨q', hq', hid'⟩

/-- A process declares an element that is one of its own. -/
theorem declares_iff {p : Nat} {found : Bool} (h : s.declares p (.str id) = .ok found) :
    found = true ↔ ∃ q, s.graph.HasElement p q ∧ s.graph.field q "id" = .str id := by
  obtain ⟨children, hchildren, h⟩ := ok_bind.mp h
  rw [anyOf_iff h]
  constructor
  · rintro ⟨q, hq, hid⟩
    exact ⟨q, ⟨children, hchildren, hq⟩, hid⟩
  · rintro ⟨q, ⟨children', hchildren', hq⟩, hid⟩
    obtain rfl := Except.ok.inj (hchildren.symm.trans hchildren')
    exact ⟨q, hq, hid⟩

/-- One of some elements is a process that holds an element with the identifier. -/
def Declared (s : Survey) (id : String) (items : List Value) (p : Nat) : Prop :=
  .node p ∈ items ∧ s.graph.IsA p Kind.process ∧
    ∃ q, s.graph.HasElement p q ∧ s.graph.field q "id" = .str id

theorem Declared.mono {items items' : List Value} {p : Nat} (h : s.Declared id items p)
    (hsub : ∀ v ∈ items, v ∈ items') : s.Declared id items' p :=
  ⟨hsub _ h.1, h.2⟩

/-- The search gives the identifier of a process that has the element, or nothing when none has it. -/
theorem declaringProcess_cases {items : List Value} {v : Value}
    (h : s.declaringProcess (.str id) items = .ok v) :
    (∃ p, s.Declared id items p ∧ v = s.graph.field p "id") ∨
      v = .null ∧ ∀ p, ¬ s.Declared id items p := by
  induction items with
  | nil =>
    obtain rfl := ok_pure.mp h
    exact .inr ⟨rfl, fun p hp => nomatch hp.1⟩
  | cons item rest ih =>
    -- What the rest gives is also what the list gives, unless the first item is the process.
    have hlater (hrest : s.declaringProcess (.str id) rest = .ok v)
        (hfirst : ∀ p, item = .node p → ¬ s.Declared id (item :: rest) p) :
        (∃ p, s.Declared id (item :: rest) p ∧ v = s.graph.field p "id") ∨
          v = .null ∧ ∀ p, ¬ s.Declared id (item :: rest) p := by
      rcases ih hrest with ⟨p, hp, hv⟩ | ⟨hv, hnone⟩
      · exact .inl ⟨p, hp.mono fun _ => List.mem_cons_of_mem _, hv⟩
      · refine .inr ⟨hv, fun p hp => ?_⟩
        rcases List.mem_cons.mp hp.1 with heq | hin
        · exact hfirst p heq.symm hp
        · exact hnone p ⟨hin, hp.2⟩
    rw [declaringProcess, ok_bind] at h
    obtain ⟨type, htype, h⟩ := h
    by_cases kind : type.isText Kind.process = true
    · rw [if_pos kind] at h
      simp only [ok_bind, Graph.placeOf_ok] at h
      obtain ⟨p, rfl, found, hfound, h⟩ := h
      have htype : s.graph.field p "$type" = type := Except.ok.inj htype
      have hprocess : s.graph.IsA p Kind.process := htype.trans (Value.isText_iff.mp kind)
      cases found with
      | true =>
        obtain rfl := ok_pure.mp h
        exact .inl ⟨p, ⟨List.mem_cons_self, hprocess, (declares_iff hfound).mp rfl⟩, rfl⟩
      | false =>
        refine hlater h ?_
        rintro _ heq ⟨-, -, hheld⟩
        obtain rfl := Value.node.inj heq
        cases (declares_iff hfound).mpr hheld
    · rw [if_neg kind] at h
      refine hlater h ?_
      rintro p rfl ⟨-, hprocess, -⟩
      have htype : s.graph.field p "$type" = type := Except.ok.inj htype
      exact kind (Value.isText_iff.mpr (htype.symm.trans hprocess))

/-- The process of an end, when the end has an identifier. -/
theorem process_of_endpoint {items : List Value} {element : Value} {e : MessageFlowEndpoint}
    (hroots : s.graph.itemsOrNone s.roots = .ok items) (h : s.endpoint element = .ok e)
    (hid : e.id = some id) :
    (∃ p, s.Declared id items p ∧ .ofText e.processId = (s.graph.field p "id").plain) ∨
      e.processId = none ∧ ∀ p, ¬ s.Declared id items p := by
  obtain ⟨process, hprocess, h⟩ := ok_bind.mp h
  obtain ⟨_, own, hmk, hown, rfl⟩ := Checked.seq_eq_valid.mp (Checked.as_eq_ok.mp h)
  obtain ⟨processId, hprocessId, rfl⟩ := Checked.map_eq_valid.mp hmk
  obtain rfl : own = some id := hid
  have hplain := Value.text_eq_valid.mp hprocessId
  obtain rfl : element = .str id := Value.eq_of_plain (Value.text_eq_valid.mp hown)
  have hsearch : s.declaringProcess (.str id) items = .ok process := by
    rw [processIdOf, hroots] at hprocess
    exact hprocess
  rcases declaringProcess_cases hsearch with ⟨p, hp, rfl⟩ | ⟨rfl, hnone⟩
  · exact .inl ⟨p, hp, hplain.symm⟩
  · exact .inr ⟨Json.ofText_inj hplain.symm, hnone⟩

theorem endpoints_of_messageFlow {parent : ScopeRef} {place : Nat} {f : MessageFlow}
    (h : s.messageFlow parent place = .ok f) :
    ∀ e ∈ [f.source, f.target], ∃ element, s.endpoint element = .ok e := by
  obtain ⟨edge, -, h⟩ := ok_bind.mp h
  obtain ⟨source, hsource, h⟩ := ok_bind.mp h
  obtain ⟨target, htarget, h⟩ := ok_bind.mp h
  obtain ⟨b, -, h⟩ := ok_bind.mp h
  obtain ⟨own, -, rfl⟩ := Checked.map_eq_valid.mp (Checked.as_eq_ok.mp h)
  intro e he
  rcases List.mem_cons.mp he with rfl | he
  · exact ⟨edge.source, hsource⟩
  · obtain rfl := List.mem_singleton.mp he
    exact ⟨edge.target, htarget⟩

end Survey

namespace Graph

variable (g : Graph)

/-- The elements have texts as identifiers, no two of them the same. -/
structure Labelled (all : List Nat) : Prop where
  texts : ∀ p ∈ all, ∃ id, g.field p "id" = .str id
  nodup : (all.map fun p => g.field p "id").Nodup

variable {g} {all : List Nat}

theorem Labelled.unique (h : g.Labelled all) {p q : Nat} (hp : p ∈ all) (hq : q ∈ all)
    (hid : (g.field p "id").plain = (g.field q "id").plain) : p = q := by
  obtain ⟨id, hpid⟩ := h.texts p hp
  obtain ⟨id', hqid⟩ := h.texts q hq
  rw [hpid, hqid] at hid
  refine List.inj_on_of_nodup_map h.nodup hp hq ?_
  rw [hpid, hqid]
  exact congrArg Value.str (Json.str.inj hid)

variable {document : Value} {root : Nat} {items : List Value} {visits : List Visit}

/-- What is met is an element of the document, and so is what it is met in. -/
theorem Visits.mem_all (hvisits : g.Visits root items visits) (hroot : g.HasRoot document root items)
    (hspans : g.Spans [.node root] all) {v : Visit} (hv : v ∈ visits) :
    v.place ∈ all ∧ v.container ∈ all := by
  obtain ⟨part, hpart, hsub⟩ := hroot.spans hspans
  have hmem {w : Visit} (hw : w ∈ visits) : w.place ∈ all :=
    hsub.subset (List.mem_cons_of_mem _ ((hvisits.sublist hpart).subset (List.mem_map_of_mem hw)))
  refine ⟨hmem hv, ?_⟩
  rcases hvisits.container v hv with htop | ⟨w, hw, hplace, -⟩
  · rw [htop]
    exact hsub.subset List.mem_cons_self
  · rw [← hplace]
    exact hmem hw

/-- The root is none of its elements in a tree. -/
theorem Spans.root_not_mem (hspans : g.Spans [.node root] all) (hroot : g.HasRoot document root items)
    (hnodup : all.Nodup) : .node root ∉ items := by
  obtain ⟨part, hpart, hsub⟩ := hroot.spans hspans
  intro hin
  exact (List.nodup_cons.mp (hnodup.sublist hsub)).1 (hpart.mem hin)

/-- A process at the top holds an element exactly when the element is met in it. -/
theorem Visits.hasElement_iff (hvisits : g.Visits root items visits) (hroot : g.HasRoot document root items)
    (hspans : g.Spans [.node root] all) (hnodup : all.Nodup) {v : Visit} (hv : v ∈ visits) {p : Nat}
    (hp : .node p ∈ items) : g.HasElement p v.place ↔ v.container = p := by
  have htop := hspans.root_not_mem hroot hnodup
  have hinRoot {q : Nat} (hq : .node q ∈ items) : g.Contains root q :=
    contains_of_items (by simp) hroot.areElements hq
  have hrootAll : root ∈ all := hspans.mem List.mem_cons_self
  have hpAll : p ∈ all := hspans.closed hrootAll (hinRoot hp)
  rcases hvisits.stands v hv with ⟨hcontainer, hin⟩ | ⟨w, hw, hplace, -, hholds⟩
  · -- An element at the top stands in the root alone, which is not at the top itself.
    have hne : root ≠ p := fun heq => htop (heq ▸ hp)
    constructor
    · intro hholds
      exact absurd (hspans.parent_unique hnodup hrootAll hpAll (hinRoot hin) hholds.contains) hne
    · intro heq
      exact absurd (hcontainer.symm.trans heq) hne
  · rw [← hplace]
    constructor
    · intro hholds'
      have hwAll := (hvisits.mem_all hroot hspans hw).1
      exact hspans.parent_unique hnodup hwAll hpAll hholds.contains hholds'.contains
    · rintro rfl
      exact hholds

theorem HasRoot.mem_all (hroot : g.HasRoot document root items) (hspans : g.Spans [.node root] all)
    {p : Nat} (hp : .node p ∈ items) : p ∈ all := by
  obtain ⟨part, hpart, hsub⟩ := hroot.spans hspans
  exact hsub.subset (List.mem_cons_of_mem _ (hpart.mem hp))

end Graph

/-- The one with the identifier of a met element is that element, so it is declared where that is met. -/
theorem Survey.declared_met_iff {s : Survey} {document : Value} {root : Nat} {items : List Value}
    {all : List Nat} {visits : List Visit} (hlabelled : s.graph.Labelled all)
    (hroot : s.graph.HasRoot document root items) (hspans : s.graph.Spans [.node root] all)
    (hvisits : s.graph.Visits root items visits) {v : Visit} (hv : v ∈ visits) {id : String}
    (hid : s.graph.field v.place "id" = .str id) {p : Nat} :
    s.Declared id items p ↔ v.container = p ∧ .node p ∈ items ∧ s.graph.IsA p Kind.process := by
  have hplace := (hvisits.mem_all hroot hspans hv).1
  have hnodup : all.Nodup := List.Nodup.of_map _ hlabelled.nodup
  constructor
  · rintro ⟨hp, hkind, q, hholds, hq⟩
    have hsame : q = v.place := by
      refine hlabelled.unique (hspans.closed (hroot.mem_all hspans hp) hholds.contains) hplace ?_
      rw [hid]
      exact congrArg Value.plain hq
    subst hsame
    exact ⟨(hvisits.hasElement_iff hroot hspans hnodup hv hp).mp hholds, hp, hkind⟩
  · rintro ⟨hcontainer, hp, hkind⟩
    exact ⟨hp, hkind, v.place, (hvisits.hasElement_iff hroot hspans hnodup hv hp).mpr hcontainer, hid⟩

namespace MappedContext

/-- A scope is that of a process of the context. -/
def ListsProcess (m : MappedContext) (scope : ScopeRef) : Prop :=
  ∃ p ∈ m.processes, scope.id = p.id ∧ Json.ofText scope.type = p.type

/-- The scope of an activity is that of a listed process exactly when its element is met in a process at
the top. -/
theorem listsProcess_iff {g : Graph} {m : MappedContext} {root : Nat} {items : List Value}
    {all : List Nat} (hlabelled : g.Labelled all)
    (hprocesses : m.processes.map (·.heading) = g.headings (g.IsA · Kind.process) (Graph.direct root items))
    (hitems : ∀ p, .node p ∈ items → p ∈ all) {v : Visit} (hcontainer : v.container ∈ all) {e : Entity}
    (hheading : e.heading = g.heading v) :
    m.ListsProcess e.parent ↔ .node v.container ∈ items ∧ g.IsA v.container Kind.process := by
  have hid : Json.ofText e.parent.id = (g.field v.container "id").plain :=
    congrArg Heading.parentId hheading
  have htype : Json.ofText e.parent.type = (g.field v.container "$type").plain :=
    congrArg Heading.parentType hheading
  constructor
  · rintro ⟨p, hp, hpid, -⟩
    have hmem : p.heading ∈ g.headings (g.IsA · Kind.process) (Graph.direct root items) :=
      hprocesses ▸ List.mem_map_of_mem hp
    obtain ⟨w, hw, hpheading⟩ := List.mem_map.mp hmem
    obtain ⟨hw, hkind⟩ := List.mem_filter.mp hw
    have hwitems : .node w.place ∈ items := Graph.node_of_direct hw
    have hpid' : (g.field w.place "id").plain = Json.ofText p.id := congrArg Heading.id hpheading
    have hsame : (g.field v.container "id").plain = (g.field w.place "id").plain := by
      rw [← hid, hpid', hpid]
    obtain heq := hlabelled.unique hcontainer (hitems _ hwitems) hsame
    rw [heq]
    exact ⟨hwitems, of_decide_eq_true hkind⟩
  · rintro ⟨hin, hkind⟩
    have hmem : g.heading ⟨root, v.container⟩ ∈ m.processes.map (·.heading) := by
      rw [hprocesses]
      exact List.mem_map_of_mem (List.mem_filter.mpr ⟨Graph.mem_direct hin, decide_eq_true hkind⟩)
    obtain ⟨p, hp, hpheading⟩ := List.mem_map.mp hmem
    have hpid : Json.ofText p.id = (g.field v.container "id").plain := congrArg Heading.id hpheading
    have hptype : p.type = (g.field v.container "$type").plain := congrArg Heading.type hpheading
    exact ⟨p, hp, Json.ofText_inj (hid.trans hpid.symm), htype.trans hptype.symm⟩

/-- An end of a message flow has the process that its activity stands in directly; it has none when the
activity stands in no process directly. -/
theorem endpoints_of_ofDocument {g : Graph} {document : Value} {extension : Option Extension}
    {m : MappedContext} {diary : Diary} {root : Nat} {items : List Value} {all : List Nat}
    (h : (ofDocument g document extension).result = .ok (m, diary))
    (hroot : g.HasRoot document root items) (hspans : g.Spans [.node root] all)
    (hlabelled : g.Labelled all) :
    ∀ f ∈ m.messageFlows, ∀ e ∈ [f.source, f.target], ∀ id, e.id = some id →
      ∀ a ∈ m.activities, a.id = some id →
        (m.ListsProcess a.parent → e.processId = a.parent.id) ∧
          (¬ m.ListsProcess a.parent → e.processId = none) := by
  obtain ⟨root', definition, links, items', f, hroot', hdefinition, hyields, rfl⟩ :=
    yields_of_ofDocument h
  obtain ⟨rfl, rfl⟩ := hroot.unique hroot'
  obtain ⟨visits, flows, hvisits, -, haccounts⟩ := hyields.accounts (Graph.names_of_definition hdefinition)
  have hvisits : g.Visits root items visits := hvisits
  intro flow hflow e he id hid a ha haid
  obtain ⟨parent, place, -, hmade⟩ := hyields.makes.messageFlows flow hflow
  obtain ⟨element, hend⟩ := Survey.endpoints_of_messageFlow hmade e he
  have hmem : a.heading ∈ g.headings g.IsActivity visits :=
    haccounts.activities ▸ List.mem_map_of_mem ha
  obtain ⟨v, hv, hheading⟩ := List.mem_map.mp hmem
  have hv : v ∈ visits := List.mem_of_mem_filter hv
  obtain ⟨hplace, hcontainer⟩ := hvisits.mem_all hroot hspans hv
  have hvid : (g.field v.place "id").plain = Json.ofText a.id := congrArg Heading.id hheading
  have hparent : (g.field v.container "id").plain = Json.ofText a.parent.id :=
    congrArg Heading.parentId hheading
  have hvtext : g.field v.place "id" = .str id := by
    obtain ⟨text, htext⟩ := hlabelled.texts _ hplace
    have hplain : Json.str text = Json.ofText (some id) := by
      rw [← haid, ← hvid, htext]
      rfl
    rw [htext]
    exact congrArg Value.str (Json.str.inj hplain)
  have hdeclared (p : Nat) : (g.survey links root extension).Declared id items p ↔
      v.container = p ∧ .node p ∈ items ∧ g.IsA p Kind.process :=
    Survey.declared_met_iff hlabelled hroot hspans hvisits hv hvtext
  have hlists := listsProcess_iff (m := ofFlattened definition f) hlabelled haccounts.processes
    (fun p hp => hroot.mem_all hspans hp) hcontainer hheading.symm
  have hroots : (g.survey links root extension).graph.itemsOrNone (g.survey links root extension).roots =
      .ok items := (g.itemsOrNone_orAbsent _).trans hroot.areElements
  rw [hlists]
  rcases Survey.process_of_endpoint hroots hend hid with ⟨p, hp, hprocess⟩ | ⟨hnone, hnot⟩
  · obtain ⟨rfl, hin, hkind⟩ := (hdeclared p).mp hp
    refine ⟨fun _ => Json.ofText_inj (hprocess.trans hparent), fun hno => ?_⟩
    exact absurd ⟨hin, hkind⟩ hno
  · refine ⟨fun hyes => ?_, fun _ => hnone⟩
    exact absurd ((hdeclared _).mpr ⟨rfl, hyes⟩) (hnot _)

/-- A message flow leads from a task in a process to one in a sub-process of another. -/
def messaging : Graph where
  contents := #[
    .object [("$type", .str "bpmn:Task"), ("id", .str "a")],
    .list [.node 0],
    .object [("$type", .str Kind.process), ("id", .str "p"), ("flowElements", .list 1)],
    .object [("$type", .str "bpmn:Task"), ("id", .str "b")],
    .list [.node 3],
    .object [("$type", .str Kind.subProcess), ("id", .str "s"), ("flowElements", .list 4)],
    .list [.node 5],
    .object [("$type", .str Kind.process), ("id", .str "q"), ("flowElements", .list 6)],
    .object [("$type", .str Kind.messageFlow), ("id", .str "m")],
    .list [.node 8],
    .object [("$type", .str Kind.collaboration), ("id", .str "c"), ("messageFlows", .list 9)],
    .list [.node 10, .node 2, .node 7],
    .object [("$type", .str "bpmn:Definitions"), ("id", .str "d"), ("rootElements", .list 11)],
    .object [("property", .str Role.source), ("id", .str "a"), ("element", .node 8)],
    .object [("property", .str Role.target), ("id", .str "b"), ("element", .node 8)],
    .list [.node 13, .node 14],
    .object [("rootElement", .node 12), ("references", .list 15)]]

theorem spans_messaging : messaging.Spans [.node 12] [12, 10, 8, 2, 0, 7, 5, 3] := by
  have hleaf (place : Nat) (hplace : messaging.contained place = []) :
      messaging.Spans (messaging.contained place) [] := hplace ▸ .nil
  have hcollaboration : messaging.Spans (messaging.contained 10) [8] := .node (hleaf 8 rfl) .nil
  have hfirst : messaging.Spans (messaging.contained 2) [0] := .node (hleaf 0 rfl) .nil
  have hsubProcess : messaging.Spans (messaging.contained 5) [3] := .node (hleaf 3 rfl) .nil
  have hsecond : messaging.Spans (messaging.contained 7) [5, 3] := .node hsubProcess .nil
  have hroot : messaging.Spans (messaging.contained 12) [10, 8, 2, 0, 7, 5, 3] :=
    .node hcollaboration (.node hfirst (.node hsecond .nil))
  exact .node hroot .nil

theorem labelled_messaging : messaging.Labelled [12, 10, 8, 2, 0, 7, 5, 3] where
  texts := by
    intro p hp
    simp only [List.mem_cons, List.not_mem_nil, or_false] at hp
    rcases hp with rfl | rfl | rfl | rfl | rfl | rfl | rfl | rfl <;> exact ⟨_, rfl⟩
  nodup := by decide

theorem endpoints_messaging :
    ∃ m diary, (ofDocument messaging (.node 16) none).result = .ok (m, diary) ∧
      m.messageFlows.map (·.source) = [⟨some "p", some "a"⟩] ∧
      m.messageFlows.map (·.target) = [⟨none, some "b"⟩] ∧
      ∀ f ∈ m.messageFlows, ∀ e ∈ [f.source, f.target], ∀ id, e.id = some id →
        ∀ a ∈ m.activities, a.id = some id →
          (m.ListsProcess a.parent → e.processId = a.parent.id) ∧
            (¬ m.ListsProcess a.parent → e.processId = none) := by
  have hends : (ofDocument messaging (.node 16) none).result.toOption.map
      (fun made => (made.1.messageFlows.map (·.source), made.1.messageFlows.map (·.target))) =
        some ([⟨some "p", some "a"⟩], [⟨none, some "b"⟩]) := by
    decide +kernel
  have hroot : messaging.HasRoot (.node 16) 12 [.node 10, .node 2, .node 7] := ⟨rfl, rfl⟩
  cases hrun : (ofDocument messaging (.node 16) none).result with
  | error fault =>
    rw [hrun] at hends
    cases hends
  | ok made =>
    rw [hrun] at hends
    obtain ⟨hsource, htarget⟩ := Prod.mk.inj (Option.some.inj hends)
    exact ⟨made.1, made.2, rfl, hsource, htarget,
      endpoints_of_ofDocument hrun hroot spans_messaging labelled_messaging⟩

end MappedContext

end Bpmn
