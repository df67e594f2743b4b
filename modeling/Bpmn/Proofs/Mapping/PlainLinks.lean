import Bpmn.Proofs.Document.Trees
import Bpmn.Proofs.Mapping.Pairing
import Bpmn.Proofs.Model.Checks

namespace Bpmn

/-- A text or null. -/
def Value.isName : Value → Bool
  | .null => true
  | .str _ => true
  | _ => false

/-- The identifier, type and name of an object are texts or missing. -/
def Graph.Named (g : Graph) (place : Nat) : Prop :=
  ∀ key ∈ ["id", "$type", "name"], (g.field place key).isName = true

instance (g : Graph) (place : Nat) : Decidable (g.Named place) :=
  inferInstanceAs (Decidable (∀ key ∈ ["id", "$type", "name"], (g.field place key).isName = true))

/-- A record whose property is a text, whose identifier is a text or null, and whose element is null or a
named object. -/
structure ReferenceRecord.Plain (g : Graph) (r : ReferenceRecord) : Prop where
  property : ∃ property, r.property = .str property
  id : r.id.isName = true
  element : r.element = .null ∨ ∃ place, r.element = .node place ∧ g.Named place

/-- Every record is plain and every element that is found by its identifier is an object. -/
structure Source.Plain (g : Graph) (s : Source) : Prop where
  references : ∀ r ∈ s.references, r.Plain g
  elements : ∀ entry ∈ s.elements, ∃ place, entry.2 = .node place

/-- No element that refers to a data object has a list that leads back into itself through lists alone. -/
def Source.Loopless (g : Graph) (s : Source) : Prop :=
  ∀ r ∈ s.references, r.property = .str Role.dataObject →
    ∀ place, r.element = .node place → g.Loopless place

/-- A link made of a plain record. -/
structure Link.Plain (g : Graph) (link : Link) : Prop where
  role : ∃ role, link.role = .str role
  id : link.id.isName = true
  named : g.Named link.place

/-- Links made of plain records. -/
structure Links.Plain (g : Graph) (links : Links) : Prop where
  edges : ∀ e ∈ links.edges, e.source.isName = true ∧ e.target.isName = true
  dataObjects : ∀ link ∈ links.dataObjects, link.Plain g ∧ g.Loopless link.place
  directions : ∀ (d : Direction), ∀ link ∈ d.links links, link.Plain g

theorem Value.isName_iff {v : Value} : v.isName = true ↔ v = .null ∨ ∃ s, v = .str s := by
  cases v <;> simp [isName]

theorem Value.isName_iff_text {v : Value} (name : String) :
    v.isName = true ↔ ∃ text, v.text name = .valid text := by
  cases v <;> simp [isName, Value.text, Checked.under_eq_valid, Checked.wrong_ne_valid]

theorem Value.asKey_of_isName {v : Value} (h : v.isName = true) : v.asKey = .ok v := by
  rcases isName_iff.mp h with rfl | ⟨s, rfl⟩ <;> rfl

/-- No comparison with a text or null fails. -/
theorem Graph.exists_same (g : Graph) (v : Value) {name : Value} (h : name.isName = true) :
    ∃ found, g.same v name = .ok found := by
  rcases Value.isName_iff.mp h with rfl | ⟨s, rfl⟩
  · rw [same]
    split
    · exact ⟨_, rfl⟩
    · cases v <;> exact ⟨_, rfl⟩
  · exact ⟨_, same_text v s⟩

section Change

variable {id : Value} {f : FlowEdge → FlowEdge}

theorem Links.mem_change {edges : List FlowEdge} {e : FlowEdge} (h : e ∈ change id f edges) :
    e ∈ edges ∨ (∃ e' ∈ edges, e = f e') ∨ e = f (.bare id) := by
  induction edges with
  | nil => exact .inr (.inr (List.mem_singleton.mp h))
  | cons edge rest ih =>
    rw [change] at h
    split at h
    · rcases List.mem_cons.mp h with rfl | h
      · exact .inr (.inl ⟨edge, by simp, rfl⟩)
      · exact .inl (List.mem_cons_of_mem _ h)
    · rcases List.mem_cons.mp h with rfl | h
      · exact .inl List.mem_cons_self
      · rcases ih h with h | ⟨e', he', rfl⟩ | h
        · exact .inl (List.mem_cons_of_mem _ h)
        · exact .inr (.inl ⟨e', List.mem_cons_of_mem _ he', rfl⟩)
        · exact .inr (.inr h)

end Change

namespace Links

variable {g : Graph} {elements : Index} {records : List ReferenceRecord} {links links' : Links}

theorem Plain.none : Links.none.Plain g where
  edges _ h := nomatch h
  dataObjects _ h := nomatch h
  directions d _ h := by cases d <;> cases h

/-- The element of a flow is an object when all indexed elements are. -/
theorem typeOf_flowElement (helements : ∀ entry ∈ elements, ∃ place, entry.2 = .node place)
    (id : Value) (place : Nat) : ∃ type, g.typeOf (flowElement g elements id place) = .ok type := by
  have hfound : elements.find id = .null ∨ ∃ inner, elements.find id = .node inner := by
    rw [Index.find]
    split
    · next key value hfind =>
      obtain ⟨inner, hinner⟩ := helements _ (List.mem_of_find?_eq_some hfind)
      exact .inr ⟨inner, hinner⟩
    · exact .inl rfl
  rw [flowElement]
  rcases hfound with hnull | ⟨inner, hinner⟩
  · rw [hnull]
    exact ⟨_, rfl⟩
  · rw [hinner, Graph.orAbsent]
    split
    · exact ⟨_, rfl⟩
    · exact ⟨_, rfl⟩

/-- A plain link is noted on the edges. -/
theorem exists_addEdge (helements : ∀ entry ∈ elements, ∃ place, entry.2 = .node place)
    {edges : List FlowEdge} (hedges : ∀ e ∈ edges, e.source.isName = true ∧ e.target.isName = true)
    {link : Link} (hlink : link.Plain g) :
    ∃ edges', addEdge g elements edges link = .ok edges' ∧
      ∀ e ∈ edges', e.source.isName = true ∧ e.target.isName = true := by
  have hflow := Value.asKey_of_isName (hlink.named "id" (by simp))
  -- Whatever is changed on an edge, both ends stay names.
  have hchange {id : Value} {f : FlowEdge → FlowEdge}
      (hf : ∀ e : FlowEdge, e.source.isName = true ∧ e.target.isName = true →
        (f e).source.isName = true ∧ (f e).target.isName = true) :
      ∀ e ∈ change id f edges, e.source.isName = true ∧ e.target.isName = true := by
    intro e he
    rcases mem_change he with he | ⟨e', he', rfl⟩ | rfl
    · exact hedges e he
    · exact hf e' (hedges e' he')
    · exact hf _ ⟨rfl, rfl⟩
  rw [addEdge]
  split
  · obtain ⟨type, htype⟩ := typeOf_flowElement (g := g) helements (g.field link.place "id") link.place
    rw [hflow, bind_of_ok]
    dsimp only
    rw [htype, bind_of_ok]
    refine ⟨_, rfl, hchange ?_⟩
    intro e he
    exact ⟨hlink.id, he.2⟩
  · split
    · rw [hflow, bind_of_ok]
      refine ⟨_, rfl, hchange ?_⟩
      intro e he
      exact ⟨he.1, hlink.id⟩
    · split
      · rw [Value.asKey_of_isName hlink.id, bind_of_ok]
        refine ⟨_, rfl, hchange ?_⟩
        intro e he
        exact he
      · exact ⟨edges, rfl, hedges⟩

theorem mem_keep {wanted : Bool} {kept : List Link} {link link' : Link}
    (h : link' ∈ if wanted then kept ++ [link] else kept) :
    link' ∈ kept ∨ (wanted = true ∧ link' = link) := by
  split at h
  · next hwanted =>
    rcases List.mem_append.mp h with h | h
    · exact .inl h
    · exact .inr ⟨hwanted, List.mem_singleton.mp h⟩
  · exact .inl h

/-- A plain record is added to plain links. -/
theorem Plain.exists_add (hlinks : links.Plain g)
    (helements : ∀ entry ∈ elements, ∃ place, entry.2 = .node place) {record : ReferenceRecord}
    (hrecord : record.Plain g)
    (hloopless : record.property = .str Role.dataObject →
      ∀ place, record.element = .node place → g.Loopless place) :
    ∃ links', Links.add g elements links record = .ok links' ∧ links'.Plain g := by
  rw [add]
  split
  · exact ⟨links, rfl, hlinks⟩
  · next element helement =>
    obtain rfl : element = record.element := by
      rw [Graph.orAbsent] at helement
      split at helement
      · exact (Option.some.inj helement).symm
      · cases helement
    rcases hrecord.element with hnull | ⟨place, hplace, hnamed⟩
    · rw [hnull] at helement
      cases helement
    have hlink : Link.Plain g ⟨record.property, record.id, place⟩ :=
      ⟨hrecord.property, hrecord.id, hnamed⟩
    obtain ⟨edges, hadd, hedges⟩ := exists_addEdge helements hlinks.edges hlink
    rw [hplace, Graph.placeOf, bind_of_ok]
    dsimp only
    rw [hadd, bind_of_ok]
    refine ⟨_, rfl, hedges, ?_, ?_⟩
    · intro link hmem
      rcases mem_keep hmem with hmem | ⟨hrole, rfl⟩
      · exact hlinks.dataObjects link hmem
      · exact ⟨hlink, hloopless (Value.isText_iff.mp hrole) place hplace⟩
    · intro d link hmem
      have hmem : link ∈ d.links links ∨ link = ⟨record.property, record.id, place⟩ := by
        cases d with
        | input => exact (mem_keep hmem).imp_right And.right
        | output => exact (mem_keep hmem).imp_right And.right
      rcases hmem with hmem | rfl
      · exact hlinks.directions d link hmem
      · exact hlink

/-- Plain records are sorted without a failure. -/
theorem exists_ofRecords {s : Source} (hplain : s.Plain g) (hloopless : s.Loopless g) :
    ∃ links, ofRecords g s.elements s.references = .ok links ∧ links.Plain g := by
  have hfold {records : List ReferenceRecord} (hrecords : ∀ r ∈ records, r ∈ s.references)
      {start : Links} (hstart : start.Plain g) :
      ∃ links, records.foldlM (add g s.elements) start = .ok links ∧ links.Plain g := by
    induction records generalizing start with
    | nil => exact ⟨start, rfl, hstart⟩
    | cons record rest ih =>
      have hmem := hrecords record List.mem_cons_self
      obtain ⟨next, hnext, hplain'⟩ :=
        hstart.exists_add hplain.elements (hplain.references record hmem) (hloopless record hmem)
      obtain ⟨links, hlinks, hdone⟩ := ih (fun r hr => hrecords r (List.mem_cons_of_mem _ hr)) hplain'
      exact ⟨links, by rw [List.foldlM_cons, hnext, bind_of_ok, hlinks], hdone⟩
  exact hfold (fun r hr => hr) Plain.none

end Links

theorem exists_ok_findM? {α : Type} {p : α → Except Fault Bool} {l : List α}
    (h : ∀ a ∈ l, ∃ found, p a = .ok found) : ∃ o, l.findM? p = .ok o := by
  induction l with
  | nil => exact ⟨none, rfl⟩
  | cons a rest ih =>
    obtain ⟨found, hfound⟩ := h a List.mem_cons_self
    obtain ⟨o, ho⟩ := ih fun a ha => h a (List.mem_cons_of_mem _ ha)
    rw [List.findM?, hfound, bind_of_ok]
    cases found with
    | true => exact ⟨_, rfl⟩
    | false => exact ⟨o, ho⟩

theorem exists_ok_filterMapM {α β : Type} {f : α → Except Fault (Option β)} {l : List α}
    (h : ∀ a ∈ l, ∃ o, f a = .ok o) : ∃ bs, l.filterMapM f = .ok bs := by
  induction l with
  | nil => exact ⟨[], rfl⟩
  | cons a rest ih =>
    obtain ⟨o, ho⟩ := h a List.mem_cons_self
    obtain ⟨bs, hbs⟩ := ih fun a ha => h a (List.mem_cons_of_mem _ ha)
    rw [List.filterMapM_cons, ho, bind_of_ok]
    cases o with
    | none => exact ⟨bs, hbs⟩
    | some b => exact ⟨b :: bs, by dsimp only; rw [hbs]; rfl⟩

theorem Check.dataParameterWith_eq_valid {association : Association} {fields : List (String × Json)}
    {p : DataParameter} :
    dataParameterWith (.valid association) fields = .valid p ↔
      maybeText fields "id" = .valid p.id ∧ maybeText fields "type" = .valid p.type ∧
        maybeText fields "name" = .valid p.name ∧ p.association = association ∧
        p.extras = Fields.without fields parameterKeys := by
  obtain ⟨id, type, name, association', extras⟩ := p
  simp only [dataParameterWith, Checked.seq_eq_valid, Checked.map_eq_valid, Checked.valid.injEq]
  constructor
  · rintro ⟨_, _, ⟨_, _, ⟨_, _, ⟨_, _, ⟨_, hid, rfl⟩, htype, rfl⟩, hname, rfl⟩, rfl, rfl⟩, rfl, h⟩
    cases h
    exact ⟨hid, htype, hname, rfl, rfl⟩
  · rintro ⟨hid, htype, hname, rfl, rfl⟩
    exact ⟨_, _, ⟨_, _, ⟨_, _, ⟨_, _, ⟨_, hid, rfl⟩, htype, rfl⟩, hname, rfl⟩, rfl, rfl⟩, rfl, rfl⟩

namespace Link

variable {g : Graph} {link : Link}

theorem Plain.exists_fields (h : link.Plain g) (element : ElementRef) :
    ∃ fields, link.fields element = .valid fields := by
  obtain ⟨role, hrole⟩ := h.role
  obtain ⟨id, hid⟩ := (Value.isName_iff_text _).mp h.id
  exact ⟨⟨id, role, some element⟩, by rw [fields, hid, hrole]; rfl⟩

theorem Plain.exists_elementRefAt (h : link.Plain g) :
    ∃ element, g.elementRefAt link.place = .ok element := by
  obtain ⟨id, hid⟩ := (Value.isName_iff_text _).mp (h.named "id" (by simp))
  obtain ⟨type, htype⟩ := (Value.isName_iff_text _).mp (h.named "$type" (by simp))
  obtain ⟨name, hname⟩ := (Value.isName_iff_text _).mp (h.named "name" (by simp))
  refine ⟨⟨id, type, name⟩, ?_⟩
  rw [Graph.elementRefAt, Graph.idText, Graph.typeText, Graph.nameText, hid, htype, hname]
  rfl

theorem Plain.exists_toReference (h : link.Plain g) : ∃ r, link.toReference g = .ok r := by
  obtain ⟨element, helement⟩ := h.exists_elementRefAt
  obtain ⟨fields, hfields⟩ := h.exists_fields element
  exact ⟨fields, by rw [toReference, helement, bind_of_ok, hfields]; rfl⟩

theorem Plain.exists_toEnd (h : link.Plain g) (dataObject : Option ReferenceLink) :
    ∃ e, link.toEnd g dataObject = .ok e := by
  obtain ⟨element, helement⟩ := h.exists_elementRefAt
  obtain ⟨fields, hfields⟩ := h.exists_fields element
  exact ⟨⟨fields, dataObject⟩, by rw [toEnd, helement, bind_of_ok, hfields]; rfl⟩

end Link

namespace Links

variable {g : Graph} {links : Links}

theorem Plain.exists_dataObjectRef (h : links.Plain g) {reference : Value}
    (hreference : reference.isName = true) : ∃ r, links.dataObjectRef g reference = .ok r := by
  rw [dataObjectRef]
  split
  · exact ⟨_, rfl⟩
  obtain ⟨o, ho⟩ := exists_ok_findM? (l := links.dataObjects)
    (p := fun link => g.same (link.elementId g) reference) fun link _ => g.exists_same _ hreference
  rw [ho, bind_of_ok]
  cases o with
  | none => exact ⟨_, rfl⟩
  | some link =>
    obtain ⟨r, hr⟩ := (h.dataObjects link (Graph.mem_of_findM? ho)).1.exists_toReference
    exact ⟨some r, by dsimp only; rw [hr]; rfl⟩

theorem Plain.exists_near (h : links.Plain g) (d : Direction) {parameter : Value}
    (hparameter : parameter.isName = true) :
    ∃ near, links.near g d parameter = .ok near ∧ ∀ n, near = some n → n.Plain g := by
  rw [near]
  split
  · obtain ⟨o, ho⟩ := exists_ok_findM? (l := (d.links links).filter (·.role.isText d.nearRole))
      (p := fun link => g.same link.id parameter) fun link _ => g.exists_same _ hparameter
    refine ⟨o, ho, ?_⟩
    rintro n rfl
    exact h.directions d n (List.mem_of_mem_filter (Graph.mem_of_findM? ho))
  · exact ⟨Option.none, rfl, by simp⟩

theorem Plain.exists_far (h : links.Plain g) (d : Direction) {near : Option Link}
    (hnear : ∀ n, near = some n → n.Plain g) :
    ∃ far, links.far g d near = .ok far ∧ ∀ f, far = some f → f.Plain g := by
  cases near with
  | none => exact ⟨Option.none, rfl, by simp⟩
  | some n =>
    rw [far, onElement]
    split
    · refine ⟨_, rfl, ?_⟩
      intro f hf
      exact h.directions d f (List.mem_of_mem_filter (List.mem_of_head? hf))
    · obtain ⟨o, ho⟩ := exists_ok_findM? (l := (d.links links).filter (·.role.isText d.farRole))
        (p := fun link => g.same (link.elementId g) (n.elementId g))
        fun link _ => g.exists_same _ ((hnear n rfl).named "id" (by simp))
      refine ⟨o, ho, ?_⟩
      rintro f rfl
      exact h.directions d f (List.mem_of_mem_filter (Graph.mem_of_findM? ho))

/-- Every parameter with a plain identifier has an association. -/
theorem Plain.exists_association (h : links.Plain g) (d : Direction) {parameter : Value}
    (hparameter : parameter.isName = true) : ∃ a, links.association g d parameter = .ok a := by
  obtain ⟨near, hnear, hnearPlain⟩ := h.exists_near d hparameter
  obtain ⟨far, hfar, hfarPlain⟩ := h.exists_far d hnearPlain
  obtain ⟨nearEnd, hnearEnd⟩ : ∃ e, Links.nearEnd g near = .ok e := by
    cases near with
    | none => exact ⟨_, rfl⟩
    | some n =>
      obtain ⟨e, he⟩ := (hnearPlain n rfl).exists_toEnd .none
      exact ⟨some e, by rw [Links.nearEnd, he]; rfl⟩
  obtain ⟨farEnd, hfarEnd⟩ : ∃ e, links.farEnd g far = .ok e := by
    cases far with
    | none => exact ⟨_, rfl⟩
    | some f =>
      obtain ⟨r, hr⟩ := h.exists_dataObjectRef (hfarPlain f rfl).id
      obtain ⟨e, he⟩ := (hfarPlain f rfl).exists_toEnd r
      exact ⟨some e, by rw [Links.farEnd, hr, bind_of_ok, he]; rfl⟩
  exact ⟨_, Graph.association_of_ends hnear hfar hnearEnd hfarEnd⟩

theorem isName_of_copied {depth : Nat} {path : List Nat} {v : Value} {j : Json}
    (hcopy : g.copyValue depth path v = .ok j) (hj : j = .null ∨ ∃ s, j = .str s) :
    v.isName = true := by
  cases depth with
  | zero => cases hcopy
  | succ depth =>
    cases v with
    | list place =>
      have hlist := Graph.copyValue_list hcopy
      obtain ⟨_, items, -, rfl, -⟩ := hlist
      simp at hj
    | node place =>
      by_cases hmem : place ∈ path
      · have hdescribed := Graph.copyValue_again hmem hcopy
        rw [hdescribed, Graph.describe] at hj
        simp at hj
      · have hfresh := Graph.copyValue_fresh hmem hcopy
        obtain ⟨_, fields, -, rfl, -⟩ := hfresh
        simp at hj
    | null => rfl
    | str s => rfl
    | _ =>
      have hplain := Graph.copyValue_plain rfl hcopy
      rw [hplain] at hj
      simp [Value.plain] at hj

/-- An element whose copy has a valid identifier has a plain one. -/
theorem isName_of_maybeText {place : Nat} {own : List (String × Json)} {type : Json}
    {id : Option String} (hown : g.ownFieldsAt place = .ok own)
    (hid : Check.maybeText (Fields.put own "type" type) "id" = .valid id) :
    (g.field place "id").isName = true := by
  have hput : Fields.get? (Fields.put own "type" type) "id" = Fields.get? own "id" := by
    rw [Fields.get?_put, if_neg (by decide)]
  have hkeep : Fields.get? (g.ownEntries place) "id" = Fields.get? (g.fields place) "id" :=
    Fields.get?_filter Key.isOwn (by decide)
  have hcopied := (Fields.ok_mapM_values.mp hown).get? "id"
  rw [hkeep] at hcopied
  rw [Graph.field]
  cases hget : Fields.get? (g.fields place) "id" with
  | none => rfl
  | some v =>
    rw [hget] at hcopied
    generalize hvalue : Fields.get? own "id" = value at hcopied
    cases hcopied with
    | @some _ j hj =>
      apply isName_of_copied hj
      rw [Check.maybeText, Check.maybe, Check.defaulted_eq_valid, hput, hvalue] at hid
      rcases hid with ⟨hnone, -⟩ | ⟨j', hj', hcheck⟩
      · cases hnone
      · obtain rfl := Option.some.inj hj'
        rcases Check.optional_eq_valid.mp hcheck with ⟨hnull, -⟩ | ⟨-, text, htext, -⟩
        · exact .inl hnull
        · exact .inr ⟨text, Check.text_eq_valid.mp htext⟩

end Links

namespace Survey

variable {s : Survey} {parent : ScopeRef} {place : Nat}

/-- The name, the type and the identifier of an entity do not depend on its bundle. -/
theorem exists_entity {b : Behaviour} {e : Entity} (h : s.entity parent place b = .valid e)
    (c : Behaviour) :
    e.behaviour = b ∧ s.entity parent place c = .valid { e with behaviour := c } ∧
      (s.graph.field place "id").isName = true ∧ (s.graph.field place "$type").isName = true := by
  obtain ⟨_, name, h₁, hname, rfl⟩ := Checked.seq_eq_valid.mp h
  obtain ⟨_, type, h₂, htype, rfl⟩ := Checked.seq_eq_valid.mp h₁
  obtain ⟨id, hid, rfl⟩ := Checked.map_eq_valid.mp h₂
  obtain ⟨text, htext, rfl⟩ := Checked.map_eq_valid.mp htype
  refine ⟨rfl, ?_, (Value.isName_iff_text _).mpr ⟨id, hid⟩, (Value.isName_iff_text _).mpr ⟨text, htext⟩⟩
  rw [entity, hid, htext, hname]
  rfl

end Survey

end Bpmn
