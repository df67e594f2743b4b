import Bpmn.Mapping.Context
import Bpmn.Proofs.Runs

namespace Bpmn

@[simp] theorem Value.isText_iff {v : Value} {text : String} :
    v.isText text = true ↔ v = .str text := by
  cases v <;> simp [isText]

theorem Value.nonNull?_eq_some {v w : Value} : v.nonNull? = some w ↔ w ≠ .null ∧ v = w := by
  cases v with
  | null => simp [nonNull?, eq_comm]
  | _ =>
    simp only [nonNull?, Option.some.injEq]
    refine ⟨?_, And.right⟩
    rintro rfl
    exact ⟨nofun, rfl⟩

theorem Value.text_eq_valid {v : Value} {name : String} {text : Option String} :
    v.text name = .valid text ↔ v.plain = .ofText text := by
  cases v with
  | null => cases text <;> simp [Value.text, plain, Json.ofText, Json.ofOption]
  | str s => cases text <;> simp [Value.text, plain, Json.ofText, Json.ofOption]
  | _ => cases text <;> simp [Value.text, plain, Json.ofText, Json.ofOption,
      Checked.under_eq_valid, Checked.wrong_ne_valid]

theorem Json.ofText_inj {a b : Option String} (h : Json.ofText a = Json.ofText b) : a = b := by
  cases a <;> cases b <;> simp_all [Json.ofText, Json.ofOption]

theorem Value.eq_of_plain {v : Value} {text : Option String} (h : v.plain = .ofText text) :
    v = text.elim .null .str := by
  cases text with
  | none => cases v <;> cases h; rfl
  | some s =>
    cases v with
    | str t => exact congrArg Value.str (Json.str.inj h)
    | _ => cases h

theorem Value.isOneOf_true {v : Value} {texts : List String} :
    v.isOneOf texts = .ok true ↔ ∃ text ∈ texts, v = .str text := by
  cases v <;> simp [isOneOf, asKey, Bind.bind, Except.bind, Pure.pure, Except.pure]

theorem Value.isOneOf_false {v : Value} {texts : List String} (h : v.isOneOf texts = .ok false) :
    ∀ text ∈ texts, v ≠ .str text := by
  intro text ht hv
  have hone := isOneOf_true.mpr ⟨text, ht, hv⟩
  rw [h] at hone
  cases hone

namespace Graph

variable (g : Graph)

/-- The object at a place is an element of a kind. -/
def IsA (place : Nat) (kind : String) : Prop := g.field place "$type" = .str kind

instance (place : Nat) (kind : String) : Decidable (g.IsA place kind) :=
  inferInstanceAs (Decidable (g.field place "$type" = .str kind))

/-- An element that only refers to others. -/
def IsSkipped (place : Nat) : Prop := ∃ kind ∈ Kind.skipped, g.IsA place kind

/-- An element whose own elements stand in it. -/
def IsScope (place : Nat) : Prop := g.IsA place Kind.process ∨ g.IsA place Kind.subProcess

instance (place : Nat) : Decidable (g.IsSkipped place) :=
  inferInstanceAs (Decidable (∃ kind ∈ Kind.skipped, g.IsA place kind))

instance (place : Nat) : Decidable (g.IsScope place) :=
  inferInstanceAs (Decidable (_ ∨ _))

variable {g}

theorem IsA.unique {place : Nat} {kind kind' : String} (h : g.IsA place kind)
    (h' : g.IsA place kind') : kind = kind' :=
  Value.str.inj (h.symm.trans h')

theorem placeOf_ok {v : Value} {place : Nat} : placeOf v = .ok place ↔ v = .node place := by
  cases v <;> simp [placeOf]

theorem IsA.not {place : Nat} {kind kind' : String} (h : g.IsA place kind) (hne : kind ≠ kind') :
    ¬ g.IsA place kind' :=
  fun h' => hne (h.unique h')

theorem IsA.iff {place : Nat} {kind kind' : String} (h : g.IsA place kind) :
    g.IsA place kind' ↔ kind = kind' := by
  constructor
  · exact h.unique
  · rintro rfl
    exact h

end Graph

namespace Flattened

/-- Scripts alone. -/
def ofScripts (scripts : List Script) : Flattened := { empty with scripts }

variable (a b : Flattened)

@[simp] theorem processes_append : (a ++ b).processes = a.processes ++ b.processes := rfl

@[simp] theorem activities_append : (a ++ b).activities = a.activities ++ b.activities := rfl

@[simp] theorem dataObjects_append : (a ++ b).dataObjects = a.dataObjects ++ b.dataObjects := rfl

@[simp] theorem sequenceFlows_append :
    (a ++ b).sequenceFlows = a.sequenceFlows ++ b.sequenceFlows := rfl

@[simp] theorem messageFlows_append :
    (a ++ b).messageFlows = a.messageFlows ++ b.messageFlows := rfl

@[simp] theorem scripts_append : (a ++ b).scripts = a.scripts ++ b.scripts := rfl

@[simp] theorem empty_append : empty ++ a = a := rfl

end Flattened

namespace Survey

variable {s : Survey} {parent : ScopeRef} {place : Nat}

theorem entity_of_process {p : Process} (h : s.process parent place = .ok p) :
    ∃ b, Bundle.ofElement s.graph s.links [] place = .ok b ∧
      s.entity parent place b = .valid p.toEntity := by
  obtain ⟨b, hb, h⟩ := ok_bind.mp h
  obtain ⟨e, he, rfl⟩ := Checked.map_eq_valid.mp (Checked.as_eq_ok.mp h)
  exact ⟨b, hb, he⟩

/-- An activity of a document has no service. -/
theorem entity_of_activity {extra : List (String × Json)} {a : Activity}
    (h : s.activity parent extra place = .ok a) :
    ∃ b, Bundle.ofElement s.graph s.links extra place = .ok b ∧
      s.entity parent place b = .valid a.toEntity ∧ a.serviceBinding = .null := by
  obtain ⟨b, hb, h⟩ := ok_bind.mp h
  obtain ⟨e, he, rfl⟩ := Checked.map_eq_valid.mp (Checked.as_eq_ok.mp h)
  exact ⟨b, hb, he, rfl⟩

theorem activity_of_boundaryEvent {a : Activity} (h : s.boundaryEvent parent place = .ok a) :
    ∃ attachedTo, s.graph.spread (s.graph.field place "attachedToRef") = .ok attachedTo ∧
      s.activity parent [("attachedTo", attachedTo)] place = .ok a :=
  ok_bind.mp h

theorem entity_of_sequenceFlow {edge : FlowEdge} {f : SequenceFlow}
    (h : s.sequenceFlow parent edge place = .ok f) :
    ∃ b, Bundle.ofFlow s.graph place = .ok b ∧ s.entity parent place b = .valid f.toEntity := by
  obtain ⟨b, hb, h⟩ := ok_bind.mp h
  obtain ⟨_, target, h₁, -, rfl⟩ := Checked.seq_eq_valid.mp (Checked.as_eq_ok.mp h)
  obtain ⟨_, source, h₂, -, rfl⟩ := Checked.seq_eq_valid.mp h₁
  obtain ⟨e, he, rfl⟩ := Checked.map_eq_valid.mp h₂
  exact ⟨b, hb, he⟩

theorem entity_of_messageFlow {f : MessageFlow} (h : s.messageFlow parent place = .ok f) :
    ∃ b, Bundle.raw s.graph (.node place) = .ok b ∧ s.entity parent place b = .valid f.toEntity := by
  obtain ⟨edge, -, h⟩ := ok_bind.mp h
  obtain ⟨source, -, h⟩ := ok_bind.mp h
  obtain ⟨target, -, h⟩ := ok_bind.mp h
  obtain ⟨b, hb, h⟩ := ok_bind.mp h
  obtain ⟨e, he, rfl⟩ := Checked.map_eq_valid.mp (Checked.as_eq_ok.mp h)
  exact ⟨b, hb, he⟩

/-- A data object has the references that name it. -/
theorem entity_of_dataObject {d : DataObject} (h : s.dataObject parent place = .ok d) :
    (∃ b, Bundle.raw s.graph (.node place) = .ok b ∧ s.entity parent place b = .valid d.toEntity) ∧
      ∀ r ∈ d.references, ∃ link, s.dataObjectReference link = .ok r := by
  obtain ⟨references, hreferences, h⟩ := ok_bind.mp h
  obtain ⟨b, hb, h⟩ := ok_bind.mp h
  obtain ⟨e, he, rfl⟩ := Checked.map_eq_valid.mp (Checked.as_eq_ok.mp h)
  refine ⟨⟨b, hb, he⟩, ?_⟩
  intro r hr
  obtain ⟨link, -, hlink⟩ := exists_of_ok_filterMapM hreferences r hr
  obtain ⟨same, -, hlink⟩ := ok_bind.mp hlink
  cases same with
  | false => cases ok_pure.mp hlink
  | true =>
    obtain ⟨r', hr', hsome⟩ := ok_map.mp hlink
    obtain rfl := Option.some.inj hsome
    exact ⟨link, hr'⟩

end Survey

namespace Survey

variable (s : Survey)

/-- What elements in a scope add to the lists, from one diary to another. -/
inductive Yields : ScopeRef → List Value → Diary → Flattened → Diary → Prop where
  | nil {parent d} : Yields parent [] d .empty d
  | skipped {parent place rest d f d'} (kind : s.graph.IsSkipped place)
      (later : Yields parent rest d f d') : Yields parent (.node place :: rest) d f d'
  | collaboration {parent place rest children d inner d₁ f d'}
      (kind : s.graph.IsA place Kind.collaboration)
      (items : s.graph.itemsOrNone (s.graph.field place "messageFlows") = .ok children)
      (below : Yields parent children d inner d₁) (later : Yields parent rest d₁ f d') :
      Yields parent (.node place :: rest) d (inner.messages ++ f) d'
  | scope {parent place rest children own scope d scripts d₁ inner d₂ f d'}
      (kind : s.graph.IsScope place)
      (made : s.container parent (s.graph.field place "$type") place = .ok (own, scope))
      (seen : (s.visit place).Gives d scripts d₁)
      (items : s.graph.itemsOrNone (s.graph.field place "flowElements") = .ok children)
      (below : Yields scope children d₁ inner d₂) (later : Yields parent rest d₂ f d') :
      Yields parent (.node place :: rest) d
        (own ++ Flattened.ofScripts scripts ++ inner.carried ++ f) d'
  | leaf {parent place rest own d scripts d₁ f d'}
      (unskipped : ¬ s.graph.IsSkipped place)
      (single : ¬ s.graph.IsA place Kind.collaboration ∧ ¬ s.graph.IsScope place)
      (made : s.leaf parent (s.graph.field place "$type") place = .ok own)
      (seen : (s.visit place).Gives d scripts d₁) (later : Yields parent rest d₁ f d') :
      Yields parent (.node place :: rest) d (own ++ Flattened.ofScripts scripts ++ f) d'

variable {s}

variable (s) in
/-- The scripts that an extension has registered for an element, given the elements it has seen before. -/
def answered (seen : List Nat) (place : Nat) : Except Fault (List Script) :=
  match s.extension with
  | none => return []
  | some extension => do
    let owner ← s.owner place
    (extension seen place).mapM fun request => request.bind (s.requested owner)

/-- A visit notes the element and what the extension answers; without an extension there is nothing to
note. -/
theorem diary_of_visit {place : Nat} {d d' : Diary} {scripts : List Script}
    (h : (s.visit place).Gives d scripts d') :
    d'.visited = d.visited ++ (if s.extension.isSome then [place] else []) ∧
      d'.registered = d.registered ++ scripts ∧ s.answered d.visited place = .ok scripts := by
  rw [visit] at h
  rw [answered]
  cases he : s.extension with
  | none =>
    rw [he] at h
    obtain ⟨rfl, rfl⟩ := Walk.gives_pure.mp h
    exact ⟨by simp, by simp, rfl⟩
  | some extension =>
    rw [he] at h
    simp only [Walk.gives_bind, Walk.gives_lift, Walk.gives_get, Walk.gives_set,
      Walk.gives_mapM_lift, Walk.gives_pure] at h
    obtain ⟨owner, _, ⟨howner, rfl⟩, _, _, ⟨rfl, rfl⟩, made, _, ⟨hmade, rfl⟩, _, _, rfl, rfl, rfl⟩ := h
    exact ⟨by simp, by simp, ok_bind.mpr ⟨owner, howner, hmade⟩⟩

/-- A walk over elements takes the first of them, given how it goes on below it, and then the rest. -/
theorem Yields.cons {depth : Nat} {parent : ScopeRef} {v : Value} {rest : List Value}
    {d d₁ d' : Diary} {own f : Flattened} (h : (s.element (depth + 1) parent v).Gives d own d₁)
    (below : ∀ scope items d fs d', (items.mapM (s.element depth scope)).Gives d fs d' →
      s.Yields scope items d (.join fs) d')
    (later : s.Yields parent rest d₁ f d') : s.Yields parent (v :: rest) d (own ++ f) d' := by
  rw [element] at h
  simp only [Walk.gives_bind, Walk.gives_lift] at h
  obtain ⟨place, _, ⟨hplace, rfl⟩, skip, _, ⟨hskip, rfl⟩, h⟩ := h
  obtain rfl := Graph.placeOf_ok.mp hplace
  cases skip
  case true =>
    obtain ⟨rfl, rfl⟩ := Walk.gives_pure.mp h
    exact .skipped (Value.isOneOf_true.mp hskip) later
  simp only [Bool.false_eq_true, if_false, Bool.or_eq_true, Value.isText_iff] at h
  have hunskipped : ¬ s.graph.IsSkipped place := by
    rintro ⟨kind, hk, hkind⟩
    exact Value.isOneOf_false hskip kind hk hkind
  split at h
  · next hc =>
    simp only [Walk.gives_bind, Walk.gives_lift, Walk.gives_pure] at h
    obtain ⟨_, _, ⟨children, _, ⟨hitems, rfl⟩, fs, d₂, hfs, rfl, rfl⟩, rfl, rfl⟩ := h
    exact .collaboration hc hitems (below _ _ _ _ _ hfs) later
  split at h
  · next hkind =>
    simp only [Walk.gives_bind, Walk.gives_lift, Walk.gives_pure, Walk.gives_debug] at h
    obtain ⟨⟨made, scope⟩, _, ⟨hmade, rfl⟩, scripts, d₂, hseen, _, d₃,
      ⟨children, _, ⟨hitems, rfl⟩, fs, d₄, hfs, rfl, rfl⟩, _, _, rfl, rfl, rfl⟩ := h
    exact .scope hkind hmade hseen hitems (below _ _ _ _ _ hfs) later
  · next hc hkind =>
    simp only [Walk.gives_bind, Walk.gives_lift, Walk.gives_pure] at h
    obtain ⟨made, _, ⟨hmade, rfl⟩, scripts, d₂, hseen, rfl, rfl⟩ := h
    exact .leaf hunskipped ⟨hc, hkind⟩ hmade hseen later

/-- Every walk that ends well is described. -/
theorem Yields.of_mapM {depth : Nat} {parent : ScopeRef} {items : List Value} {d d' : Diary}
    {fs : List Flattened} (h : (items.mapM (s.element depth parent)).Gives d fs d') :
    s.Yields parent items d (.join fs) d' := by
  induction depth generalizing parent items d d' fs with
  | zero =>
    cases items with
    | nil =>
      obtain ⟨rfl, rfl⟩ := Walk.gives_nil.mp h
      exact .nil
    | cons v rest =>
      obtain ⟨own, d₁, fs, hv, -, -⟩ := Walk.gives_cons.mp h
      rw [element, Walk.gives_lift] at hv
      cases hv.1
  | succ depth ih =>
    induction items generalizing d fs with
    | nil =>
      obtain ⟨rfl, rfl⟩ := Walk.gives_nil.mp h
      exact .nil
    | cons v rest ihr =>
      obtain ⟨own, d₁, fs, hv, hrest, rfl⟩ := Walk.gives_cons.mp h
      exact .cons hv (fun _ _ _ _ _ h => ih h) (ihr hrest)

end Survey

theorem Graph.itemsOrNone_orAbsent (g : Graph) (v : Value) :
    g.itemsOrNone ((g.orAbsent v).getD .null) = g.itemsOrNone v := by
  have hnull : g.truthy .null = false := rfl
  cases h : g.truthy v with
  | false => simp [itemsOrNone, orAbsent, h, hnull]
  | true => simp [itemsOrNone, orAbsent, h]

/-- A document has a root and elements below it. -/
structure Graph.HasRoot (g : Graph) (document : Value) (root : Nat) (elements : List Value) : Prop where
  isRoot : (Source.ofValue g document).map Source.root = .ok (.node root)
  areElements : g.itemsOrNone (g.field root "rootElements") = .ok elements

theorem Graph.HasRoot.unique {g : Graph} {document : Value} {root root' : Nat}
    {items items' : List Value} (h : g.HasRoot document root items)
    (h' : g.HasRoot document root' items') : root = root' ∧ items = items' := by
  have hroot := h.isRoot
  rw [h'.isRoot] at hroot
  obtain rfl := Value.node.inj (Except.ok.inj hroot)
  have hitems := h.areElements
  rw [h'.areElements] at hitems
  exact ⟨rfl, (Except.ok.inj hitems).symm⟩

/-- The survey of a document, of whose top-level elements each message flow asks the process of its
ends. -/
def Graph.survey (g : Graph) (links : Links) (root : Nat) (extension : Option Extension) : Survey :=
  ⟨g, links, (g.orAbsent (g.field root "rootElements")).getD .null, extension⟩

namespace MappedContext

/-- A mapping that ends well has walked over the elements of the root, beginning with nothing in the
diary. -/
theorem yields_of_ofDocument {g : Graph} {document : Value} {extension : Option Extension}
    {m : MappedContext} {diary : Diary}
    (h : (ofDocument g document extension).result = .ok (m, diary)) :
    ∃ root definition links items f,
      g.HasRoot document root items ∧ g.definition root = .ok definition ∧
      (g.survey links root extension).Yields ⟨definition.id, definition.type⟩ items ⟨[], []⟩ f diary ∧
      m = ofFlattened definition f := by
  simp only [ofDocument, Traced.result_bind, Traced.result_lift, Traced.result_span,
    Traced.result_pure, ok_bind] at h
  obtain ⟨source, hsource, root, hroot, definition, hdefinition, ⟨f, diary⟩, hwalk, _, _, hm⟩ := h
  obtain ⟨rfl, rfl⟩ := Prod.mk.inj (Except.ok.inj hm)
  have hwalk : (flattenSource g source root definition extension).Gives ⟨[], []⟩ f diary := hwalk
  rw [flattenSource, Walk.gives_bind] at hwalk
  obtain ⟨links, d, hlinks, hflat⟩ := hwalk
  obtain rfl : d = ⟨[], []⟩ := Walk.diary_of_gives_run hlinks
  have hflat : ((g.survey links root extension).flatten ⟨definition.id, definition.type⟩
      (g.survey links root extension).roots).Gives ⟨[], []⟩ f diary := hflat
  simp only [Survey.flatten, Walk.gives_bind, Walk.gives_lift, Walk.gives_pure] at hflat
  obtain ⟨items, _, ⟨hitems, rfl⟩, fs, d', hfs, rfl, rfl⟩ := hflat
  refine ⟨root, definition, links, items, _, ⟨?_, ?_⟩, hdefinition, Survey.Yields.of_mapM hfs, rfl⟩
  · rw [hsource]
    exact congrArg Except.ok (Graph.placeOf_ok.mp hroot)
  · rw [← hitems]
    exact (g.itemsOrNone_orAbsent _).symm

end MappedContext

end Bpmn
