import Bpmn.Mapping.Association
import Bpmn.Proofs.Mapping.Yield
import Mathlib.Data.List.Find

namespace Bpmn

/-- The kind of the associations of a direction. -/
def Direction.kind : Direction → String
  | input => "bpmn:DataInputAssociation"
  | output => "bpmn:DataOutputAssociation"

namespace Graph

variable (g : Graph)

/-- A record as a link, if its element counts for something. -/
def link? (record : ReferenceRecord) : Option Link :=
  match g.orAbsent record.element with
  | some (.node place) => some ⟨record.property, record.id, place⟩
  | _ => none

def linksOf (records : List ReferenceRecord) : List Link := records.filterMap g.link?

def joins (d : Direction) (link : Link) : Bool := (g.field link.place "$type").isText d.kind

/-- Links on elements with the same identifier are on the same element. -/
def Identified (records : List ReferenceRecord) : Prop :=
  ∀ link ∈ g.linksOf records, ∀ link' ∈ g.linksOf records,
    link.elementId g ≠ .null → link.elementId g = link'.elementId g → link.place = link'.place

/-- The first link of the far role on an element. -/
def partner (records : List ReferenceRecord) (d : Direction) (place : Nat) : Option Link :=
  (g.linksOf records).find? fun link => link.role.isText d.farRole && link.place == place

/-- The first link of the far role on any association of a direction. -/
def foremost (records : List ReferenceRecord) (d : Direction) : Option Link :=
  (g.linksOf records).find? fun link => g.joins d link && link.role.isText d.farRole

/-- The ends of an association belong together: they are on one element, and an element that has a link of
the far role gives the first. -/
structure Paired (records : List ReferenceRecord) (d : Direction) (near far : Option Link) : Prop where
  same : ∀ n f, near = some n → far = some f → f.place = n.place
  first : ∀ n f, near = some n → g.partner records d n.place = some f → far = some f

variable {g} {elements : Index} {records : List ReferenceRecord} {links : Links} {d : Direction}

theorem links_of_add {links' : Links} {record : ReferenceRecord}
    (h : Links.add g elements links record = .ok links') :
    d.links links' = d.links links ++ (g.link? record).toList.filter (g.joins d) := by
  rw [Links.add] at h
  split at h
  · next hnone =>
    obtain rfl := ok_pure.mp h
    rw [link?, hnone]
    exact (List.append_nil _).symm
  · next element hsome =>
    simp only [ok_bind, ok_pure, placeOf_ok] at h
    obtain ⟨place, rfl, edges, -, rfl⟩ := h
    rw [link?, hsome]
    cases d <;> simp [Direction.links, joins, Direction.kind, List.filter_cons] <;> split <;> simp

theorem dataObjects_of_add {links' : Links} {record : ReferenceRecord}
    (h : Links.add g elements links record = .ok links') :
    links'.dataObjects = links.dataObjects ++
      (g.link? record).toList.filter (·.role.isText Role.dataObject) := by
  rw [Links.add] at h
  split at h
  · next hnone =>
    obtain rfl := ok_pure.mp h
    rw [link?, hnone]
    exact (List.append_nil _).symm
  · next element hsome =>
    simp only [ok_bind, ok_pure, placeOf_ok] at h
    obtain ⟨place, rfl, edges, -, rfl⟩ := h
    rw [link?, hsome, Option.toList_some, List.filter_singleton]
    cases record.property.isText Role.dataObject <;> simp

theorem linksOf_cons {record : ReferenceRecord} :
    g.linksOf (record :: records) = (g.link? record).toList ++ g.linksOf records := by
  rw [linksOf, List.filterMap_cons]
  cases g.link? record <;> rfl

/-- Where each record adds its link if it is wanted, all records add their wanted links. -/
theorem selected_of_foldlM {select : Links → List Link} {wanted : Link → Bool}
    (hadd : ∀ {links links' record}, Links.add g elements links record = .ok links' →
      select links' = select links ++ (g.link? record).toList.filter wanted) {start : Links}
    (h : records.foldlM (Links.add g elements) start = .ok links) :
    select links = select start ++ (g.linksOf records).filter wanted := by
  induction records generalizing start with
  | nil =>
    obtain rfl := ok_pure.mp h
    exact (List.append_nil _).symm
  | cons record rest ih =>
    obtain ⟨next, hnext, hrest⟩ := ok_bind.mp h
    rw [ih hrest, hadd hnext, linksOf_cons, List.filter_append, List.append_assoc]

theorem links_of_ofRecords (h : Links.ofRecords g elements records = .ok links) :
    d.links links = (g.linksOf records).filter (g.joins d) := by
  rw [selected_of_foldlM links_of_add h]
  cases d <;> rfl

theorem dataObjects_of_ofRecords (h : Links.ofRecords g elements records = .ok links) :
    links.dataObjects = (g.linksOf records).filter (·.role.isText Role.dataObject) :=
  selected_of_foldlM dataObjects_of_add h

theorem same_text (v : Value) (s : String) : g.same v (.str s) = .ok (v.isText s) := by
  have hnumber (n : Number) : Json.sameKey (.num n) (.str s) = false := by
    cases n with
    | int i => rfl
    | float b => cases b <;> rfl
  cases v with
  | num n =>
    rw [same]
    split
    · rfl
    · simp [alike, Value.sameKey, Value.plain, hnumber, Value.isText]
  | str s' => simp [same, alike, Value.isNaN, Value.sameKey, Value.plain, Json.sameKey, Value.isText]
  | _ => rfl

theorem mem_of_findM? {α : Type} {p : α → Except Fault Bool} {l : List α} {a : α}
    (h : l.findM? p = .ok (some a)) : a ∈ l := by
  induction l with
  | nil => cases h
  | cons b rest ih =>
    rw [List.findM?, ok_bind] at h
    obtain ⟨found, -, h⟩ := h
    cases found with
    | true =>
      obtain rfl := Option.some.inj (ok_pure.mp h)
      exact List.mem_cons_self
    | false => exact List.mem_cons_of_mem b (ih h)

theorem findM?_elementId (l : List Link) (s : String) :
    l.findM? (fun link => g.same (link.elementId g) (.str s)) =
      .ok (l.find? fun link => (link.elementId g).isText s) := by
  simp only [same_text]
  exact List.findM?_pure (m := Except Fault) (fun link => (link.elementId g).isText s) l

theorem mem_of_near {parameter : Value} {n : Link} (h : links.near g d parameter = .ok (some n)) :
    n ∈ d.links links := by
  rw [Links.near] at h
  split at h
  · exact (List.mem_filter.mp (mem_of_findM? h)).1
  · cases h

/-- An element that can be described has a text or nothing as its identifier. -/
theorem elementId_of_nearEnd {n : Link} {e : Option AssociationEnd}
    (h : Links.nearEnd g (some n) = .ok e) : n.elementId g = .null ∨ ∃ s, n.elementId g = .str s := by
  obtain ⟨_, h, -⟩ := ok_bind.mp h
  obtain ⟨element, h, -⟩ := ok_bind.mp h
  simp only [elementRefAt, Checked.as_eq_ok, Checked.seq_eq_valid, Checked.map_eq_valid] at h
  obtain ⟨_, name, ⟨_, type, ⟨id, hid, -⟩, -⟩, -⟩ := h
  have hplain := Value.text_eq_valid.mp hid
  rw [Link.elementId]
  cases hv : g.field n.place "id" with
  | null => exact .inl rfl
  | str s => exact .inr ⟨s, rfl⟩
  | _ =>
    rw [hv] at hplain
    cases id <;> cases hplain

theorem far_of_null {n : Link} (hlinks : Links.ofRecords g elements records = .ok links)
    (hid : n.elementId g = .null) : links.far g d (some n) = .ok (g.foremost records d) := by
  have hnull : (n.elementId g).isNull = true := by rw [hid]; rfl
  rw [Links.far, Links.onElement, if_pos hnull, List.head?_filter, links_of_ofRecords hlinks,
    List.find?_filter, foremost]
  simp only [Bool.decide_and, Bool.decide_eq_true]

theorem far_of_text {n : Link} {s : String} (hlinks : Links.ofRecords g elements records = .ok links)
    (hidentified : g.Identified records) (hmem : n ∈ d.links links) (hid : n.elementId g = .str s) :
    links.far g d (some n) = .ok (g.partner records d n.place) := by
  rw [links_of_ofRecords hlinks] at hmem
  obtain ⟨hlisted, hjoins⟩ := List.mem_filter.mp hmem
  have hsame (link : Link) (hlink : link ∈ g.linksOf records) :
      (g.joins d link && (link.role.isText d.farRole && (link.elementId g).isText s)) =
        (link.role.isText d.farRole && link.place == n.place) := by
    by_cases hplace : link.place = n.place
    · -- The same element has the same kind and identifier.
      have hid' : link.elementId g = .str s := by
        rw [← hid, Link.elementId, Link.elementId, hplace]
      have hjoins' : g.joins d link = true := by
        rw [← hjoins, joins, joins, hplace]
      simp [hplace, hid', hjoins']
    · have hother : (link.elementId g).isText s = false := by
        rw [Bool.eq_false_iff, ne_eq, Value.isText_iff]
        intro hid'
        refine hplace (hidentified link hlink n hlisted ?_ ?_)
        · rw [hid']
          nofun
        · rw [hid', hid]
      simp [hplace, hother]
  rw [Links.far, Links.onElement, hid, if_neg (by simp [Value.isNull]), findM?_elementId,
    links_of_ofRecords hlinks, List.find?_filter, List.find?_filter, partner,
    ← List.find?_congr hsame]
  simp only [Bool.decide_and, Bool.decide_eq_true]

theorem ends_of_association {parameter : Value} {a : Association}
    (h : links.association g d parameter = .ok a) :
    ∃ near far nearEnd farEnd, links.near g d parameter = .ok near ∧ links.far g d near = .ok far ∧
      Links.nearEnd g near = .ok nearEnd ∧ links.farEnd g far = .ok farEnd ∧
      a = d.join nearEnd farEnd := by
  cases d with
  | input =>
    obtain ⟨near, hnear, h⟩ := ok_bind.mp h
    obtain ⟨far, hfar, h⟩ := ok_bind.mp h
    obtain ⟨farEnd, hfarEnd, h⟩ := ok_bind.mp h
    obtain ⟨nearEnd, hnearEnd, h⟩ := ok_bind.mp h
    exact ⟨near, far, nearEnd, farEnd, hnear, hfar, hnearEnd, hfarEnd, (ok_pure.mp h).symm⟩
  | output =>
    obtain ⟨near, hnear, h⟩ := ok_bind.mp h
    obtain ⟨far, hfar, h⟩ := ok_bind.mp h
    obtain ⟨nearEnd, hnearEnd, h⟩ := ok_bind.mp h
    obtain ⟨farEnd, hfarEnd, h⟩ := ok_bind.mp h
    exact ⟨near, far, nearEnd, farEnd, hnear, hfar, hnearEnd, hfarEnd, (ok_pure.mp h).symm⟩

theorem association_of_ends {parameter : Value} {near far : Option Link}
    {nearEnd farEnd : Option AssociationEnd} (hnear : links.near g d parameter = .ok near)
    (hfar : links.far g d near = .ok far) (hnearEnd : Links.nearEnd g near = .ok nearEnd)
    (hfarEnd : links.farEnd g far = .ok farEnd) :
    links.association g d parameter = .ok (d.join nearEnd farEnd) := by
  cases d with
  | input =>
    rw [Links.association, Links.dataInput, hnear, bind_of_ok, hfar, bind_of_ok, hfarEnd, bind_of_ok, hnearEnd]
    rfl
  | output =>
    rw [Links.association, Links.dataOutput, hnear, bind_of_ok, hfar, bind_of_ok, hnearEnd, bind_of_ok,
      hfarEnd]
    rfl

theorem place_of_partner {place : Nat} {f : Link} (h : g.partner records d place = some f) :
    f.place = place := by
  have hf := List.find?_some h
  simp only [Bool.and_eq_true, beq_iff_eq] at hf
  exact hf.2

theorem partner_of_foremost {n f : Link} (hjoins : g.joins d n = true)
    (h : g.foremost records d = some f) (hplace : f.place = n.place) :
    g.partner records d n.place = some f := by
  obtain ⟨hf, before, after, hrecords, hbefore⟩ := List.find?_eq_some_iff_append.mp h
  rw [Bool.and_eq_true] at hf
  refine List.find?_eq_some_iff_append.mpr ⟨?_, before, after, hrecords, ?_⟩
  · simp [hf.2, hplace]
  · intro link hlink
    have hnot := hbefore link hlink
    by_cases heq : link.place = n.place
    · -- A link on the same element joins the same direction.
      have hlinked : g.joins d link = true := by
        rw [← hjoins, joins, joins, heq]
      rw [hlinked, Bool.true_and] at hnot
      rw [Bool.not_eq_true'] at hnot
      simp [hnot]
    · simp [heq]

theorem foremost_of_partner {n f : Link} (hjoins : g.joins d n = true)
    (h : g.partner records d n.place = some f) : ∃ f', g.foremost records d = some f' := by
  have hplace := place_of_partner h
  have hlinked : g.joins d f = true := by
    rw [← hjoins, joins, joins, hplace]
  have hrole := List.find?_some h
  rw [Bool.and_eq_true] at hrole
  rw [← Option.isSome_iff_exists, foremost, List.find?_isSome]
  exact ⟨f, List.mem_of_find?_eq_some h, by rw [hlinked, hrole.1]; rfl⟩

theorem paired_none : g.Paired records d none none where
  same _ _ h := nomatch h
  first _ _ h := nomatch h

theorem paired_partner {n : Link} :
    g.Paired records d (some n) (g.partner records d n.place) where
  same n' f hn hf := by
    obtain rfl := Option.some.inj hn
    exact place_of_partner hf
  first n' f hn hf := by
    obtain rfl := Option.some.inj hn
    exact hf

theorem paired_foremost_iff {n : Link} (hjoins : g.joins d n = true) :
    g.Paired records d (some n) (g.foremost records d) ↔
      ∀ f, g.foremost records d = some f → f.place = n.place := by
  constructor
  · intro hpaired f hf
    exact hpaired.same n f rfl hf
  · intro hforemost
    constructor
    · intro n' f hn hf
      obtain rfl := Option.some.inj hn
      exact hforemost f hf
    · intro n' f hn hpartner
      obtain rfl := Option.some.inj hn
      obtain ⟨f', hf'⟩ := foremost_of_partner hjoins hpartner
      have hsame := partner_of_foremost hjoins hf' (hforemost f' hf')
      rw [hf', ← hsame, hpartner]

/-- The ends of a found association belong together, unless the element of its near end has no identifier
and the foremost link of the far role is on another element. -/
theorem paired_iff {parameter : Value} {a : Association} (hidentified : g.Identified records)
    (hlinks : Links.ofRecords g elements records = .ok links)
    (ha : links.association g d parameter = .ok a) :
    ∃ near far nearEnd farEnd, links.near g d parameter = .ok near ∧ links.far g d near = .ok far ∧
      Links.nearEnd g near = .ok nearEnd ∧ links.farEnd g far = .ok farEnd ∧
      a = d.join nearEnd farEnd ∧
      (g.Paired records d near far ↔ ∀ n, near = some n → n.elementId g = .null →
        ∀ f, g.foremost records d = some f → f.place = n.place) := by
  obtain ⟨near, far, nearEnd, farEnd, hnear, hfar, hnearEnd, hfarEnd, rfl⟩ := ends_of_association ha
  refine ⟨near, far, nearEnd, farEnd, hnear, hfar, hnearEnd, hfarEnd, rfl, ?_⟩
  cases near with
  | none =>
    obtain rfl : none = far := Except.ok.inj hfar
    exact iff_of_true paired_none fun n h => nomatch h
  | some n =>
    have hmem := mem_of_near hnear
    simp only [Option.some.injEq, forall_eq']
    -- Whether its element has an identifier decides where the far end is looked for.
    rcases elementId_of_nearEnd hnearEnd with hnull | ⟨s, htext⟩
    · have hjoins : g.joins d n = true := by
        rw [links_of_ofRecords hlinks] at hmem
        exact (List.mem_filter.mp hmem).2
      obtain rfl : g.foremost records d = far :=
        Except.ok.inj ((far_of_null hlinks hnull).symm.trans hfar)
      simp only [paired_foremost_iff hjoins, hnull, true_imp_iff]
    · obtain rfl : g.partner records d n.place = far :=
        Except.ok.inj ((far_of_text hlinks hidentified hmem htext).symm.trans hfar)
      refine iff_of_true paired_partner ?_
      intro hnull
      rw [htext] at hnull
      cases hnull

def twoInputs (id id' : Value) : Graph where
  contents := #[.object [("$type", .str "bpmn:DataInputAssociation"), ("id", id)],
    .object [("$type", .str "bpmn:DataInputAssociation"), ("id", id')]]

/-- Both associations have a source, and the second leads into a parameter. -/
def threeRecords : List ReferenceRecord :=
  [⟨.str Role.source, .str "d", .node 0⟩, ⟨.str Role.source, .str "e", .node 1⟩,
    ⟨.str Role.target, .str "in", .node 1⟩]

theorem identified_twoInputs {id id' : Value} (h : id ≠ .null → id ≠ id') :
    (twoInputs id id').Identified threeRecords := by
  have hlinks : (twoInputs id id').linksOf threeRecords =
      [⟨.str Role.source, .str "d", 0⟩, ⟨.str Role.source, .str "e", 1⟩,
        ⟨.str Role.target, .str "in", 1⟩] := rfl
  have hfirst : (twoInputs id id').field 0 "id" = id := rfl
  have hsecond : (twoInputs id id').field 1 "id" = id' := rfl
  have hback : id' ≠ .null → id' ≠ id := by
    intro hnull heq
    exact h (heq ▸ hnull) heq.symm
  have hboth : (id ≠ .null → id ≠ id') ∧ (id' ≠ .null → id' ≠ id) := ⟨h, hback⟩
  simpa [Identified, hlinks, Link.elementId, hfirst, hsecond] using hboth

theorem paired_twoInputs :
    let g := twoInputs (.str "a") (.str "b")
    ∃ links a near far, Links.ofRecords g .empty threeRecords = .ok links ∧
      links.association g .input (.str "in") = .ok a ∧
      links.near g .input (.str "in") = .ok near ∧ links.far g .input near = .ok far ∧
      g.Paired threeRecords .input near far := by
  intro g
  have hidentified : g.Identified threeRecords := identified_twoInputs (by decide)
  obtain ⟨links, a, hlinks, ha⟩ : ∃ links a, Links.ofRecords g .empty threeRecords = .ok links ∧
      links.association g .input (.str "in") = .ok a := ⟨_, _, rfl, rfl⟩
  obtain ⟨near, far, -, -, hnear, hfar, -, -, -, hpaired⟩ := paired_iff hidentified hlinks ha
  refine ⟨links, a, near, far, hlinks, ha, hnear, hfar, hpaired.mpr ?_⟩
  intro n hn hnull
  have hall : ∀ n ∈ g.linksOf threeRecords, n.elementId g ≠ .null := by decide
  rw [hn] at hnear
  have hmem := mem_of_near hnear
  rw [links_of_ofRecords hlinks] at hmem
  exact absurd hnull (hall n (List.mem_filter.mp hmem).1)

/-- A parameter is given the source of another association when the associations have no identifiers. -/
theorem unpaired_twoInputs :
    let g := twoInputs .null .null
    g.Identified threeRecords ∧ ∃ links a near far, Links.ofRecords g .empty threeRecords = .ok links ∧
      links.association g .input (.str "in") = .ok a ∧
      links.near g .input (.str "in") = .ok near ∧ links.far g .input near = .ok far ∧
      ¬ g.Paired threeRecords .input near far := by
  intro g
  refine ⟨identified_twoInputs (by simp), _, _, some ⟨.str Role.target, .str "in", 1⟩,
    some ⟨.str Role.source, .str "d", 0⟩, rfl, rfl, rfl, rfl, ?_⟩
  intro hpaired
  have hplace : (0 : Nat) = 1 := hpaired.same _ _ rfl rfl
  cases hplace

end Graph

end Bpmn
