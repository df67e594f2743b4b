import Bpmn.Proofs.Fields
import Bpmn.Proofs.Mapping.Pairing
import Bpmn.Proofs.Mapping.PlainLinks
import Mathlib.Logic.Equiv.Basic

namespace Bpmn

namespace Direction

def opposite : Direction → Direction
  | input => output
  | output => input

/-- The two ends of an association exchanged; other roles stay. -/
def roles : Equiv.Perm String := Equiv.swap Role.source Role.target

/-- The kinds of the associations of both directions exchanged; other types stay. -/
def kinds : Equiv.Perm String := Equiv.swap input.kind output.kind

theorem kinds_kind (d : Direction) : kinds d.kind = d.opposite.kind := by
  cases d with
  | input => exact Equiv.swap_apply_left _ _
  | output => exact Equiv.swap_apply_right _ _

theorem roles_nearRole (d : Direction) : roles d.nearRole = d.opposite.nearRole := by
  cases d with
  | input => exact Equiv.swap_apply_right _ _
  | output => exact Equiv.swap_apply_left _ _

theorem roles_farRole (d : Direction) : roles d.farRole = d.opposite.farRole := by
  cases d with
  | input => exact Equiv.swap_apply_left _ _
  | output => exact Equiv.swap_apply_right _ _

theorem roles_dataObject : roles Role.dataObject = Role.dataObject :=
  Equiv.swap_apply_of_ne_of_ne (by decide) (by decide)

theorem roles_default : roles Role.default = Role.default :=
  Equiv.swap_apply_of_ne_of_ne (by decide) (by decide)

end Direction

namespace Value

/-- A text replaced by another one; other values stay. -/
def mapText (f : String → String) : Value → Value
  | .str s => .str (f s)
  | v => v

variable {f : String → String}

theorem isText_mapText (hf : f.Injective) (v : Value) (s : String) :
    (v.mapText f).isText (f s) = v.isText s := by
  cases v with
  | str s' => simp [mapText, isText, hf.eq_iff]
  | _ => rfl

theorem sameKey_mapText (hf : f.Injective) (a b : Value) :
    (a.mapText f).sameKey (b.mapText f) = a.sameKey b := by
  cases a with
  | str s =>
    cases b with
    | str s' => simp [mapText, sameKey, plain, Json.sameKey, hf.eq_iff]
    | _ => rfl
  | num n =>
    cases b with
    | str s' => cases n with
      | int i => rfl
      | float x => cases x <;> rfl
    | _ => rfl
  | _ => cases b <;> rfl

theorem text_mapText (v : Value) (name : String) :
    (v.mapText f).text name = Option.map f <$> v.text name := by
  cases v <;> rfl

end Value

def ReferenceRecord.reversed (r : ReferenceRecord) : ReferenceRecord :=
  { r with property := r.property.mapText Direction.roles }

def Link.reversed (link : Link) : Link := { link with role := link.role.mapText Direction.roles }

def ElementRef.reversed (e : ElementRef) : ElementRef := { e with type := e.type.map Direction.kinds }

def ReferenceLink.reversed (l : ReferenceLink) : ReferenceLink :=
  { l with property := Direction.roles l.property, element := l.element.map ElementRef.reversed }

def AssociationEnd.reversed (e : AssociationEnd) : AssociationEnd :=
  { e.toReferenceLink.reversed with dataObject := e.dataObject.map ReferenceLink.reversed }

/-- The ends exchanged, each with its role, its kind and its data object. -/
def Association.reversed (a : Association) : Association :=
  ⟨a.target.map AssociationEnd.reversed, a.source.map AssociationEnd.reversed⟩

theorem ElementRef.reversed_involutive : Function.Involutive ElementRef.reversed := by
  intro e
  have hkinds : Function.Involutive Direction.kinds := Equiv.swap_apply_self _ _
  simp [reversed, hkinds.comp_self]

theorem ReferenceLink.reversed_involutive : Function.Involutive ReferenceLink.reversed := by
  intro l
  have hroles : Function.Involutive Direction.roles := Equiv.swap_apply_self _ _
  simp [reversed, hroles l.property, ElementRef.reversed_involutive.comp_self]

theorem AssociationEnd.reversed_involutive : Function.Involutive AssociationEnd.reversed := by
  intro e
  simp [reversed, ReferenceLink.reversed_involutive e.toReferenceLink,
    ReferenceLink.reversed_involutive.comp_self]

theorem Association.reversed_involutive : Function.Involutive Association.reversed := by
  intro a
  simp [reversed, AssociationEnd.reversed_involutive.comp_self]

namespace Graph

/-- A field, with the kinds of associations exchanged if it is a type. -/
def reversedField : String × Value → String × Value
  | (key, v) => (key, if key = "$type" then v.mapText Direction.kinds else v)

/-- The document with the kinds of its associations exchanged. -/
def reversed (g : Graph) : Graph where
  contents := g.contents.map fun
    | .list items => .list items
    | .object fields => .object (fields.map reversedField)

variable {g : Graph}

theorem listed_reversed (place : Nat) : g.reversed.listed place = g.listed place := by
  rw [listed, listed, reversed, Array.getElem?_map]
  cases g.contents[place]? with
  | none => rfl
  | some content => cases content <;> rfl

theorem fields_reversed (place : Nat) :
    g.reversed.fields place = (g.fields place).map reversedField := by
  rw [fields, fields, reversed, Array.getElem?_map]
  cases g.contents[place]? with
  | none => rfl
  | some content => cases content <;> rfl

theorem get?_map_reversedField (fields : Fields Value) (key : String) :
    Fields.get? (fields.map reversedField) key =
      (fields.get? key).map fun v => if key = "$type" then v.mapText Direction.kinds else v :=
  Fields.get?_map (fun key v => if key = "$type" then Value.mapText Direction.kinds v else v) key

theorem field_reversed {place : Nat} {key : String} (hkey : key ≠ "$type") :
    g.reversed.field place key = g.field place key := by
  rw [field, field, fields_reversed, get?_map_reversedField]
  simp [hkey]

theorem type_reversed (place : Nat) :
    g.reversed.field place "$type" = (g.field place "$type").mapText Direction.kinds := by
  rw [field, field, fields_reversed, get?_map_reversedField]
  cases (g.fields place).get? "$type" <;> rfl

theorem truthy_reversed (v : Value) : g.reversed.truthy v = g.truthy v := by
  cases v with
  | list place => rw [truthy, truthy, listed_reversed]
  | node place => simp [truthy, fields_reversed]
  | _ => rfl

theorem orAbsent_reversed (v : Value) : g.reversed.orAbsent v = g.orAbsent v := by
  rw [orAbsent, orAbsent, truthy_reversed]

theorem alike_mapText {f : String → String} (hf : f.Injective) (depth : Nat) (a b : Value) :
    g.alike depth (a.mapText f) (b.mapText f) = g.alike depth a b := by
  have hkey := Value.sameKey_mapText hf a b
  cases a with
  | str s =>
    cases b <;> simpa [alike, Value.mapText] using hkey
  | _ =>
    cases b with
    | str s' => simpa [alike, Value.mapText] using hkey
    | _ => rfl

theorem alikeFields_reversed {alike : Value → Value → Except Fault Bool}
    (halike : ∀ a b, alike (a.mapText Direction.kinds) (b.mapText Direction.kinds) = alike a b)
    (others fields : Fields Value) :
    alikeFields alike (others.map reversedField) (fields.map reversedField) =
      alikeFields alike others fields := by
  induction fields with
  | nil => rfl
  | cons field rest ih =>
    obtain ⟨key, x⟩ := field
    rw [List.map_cons, reversedField, alikeFields, alikeFields, get?_map_reversedField, ih]
    cases others.get? key with
    | none => rfl
    | some y =>
      by_cases hkey : key = "$type"
      · simp only [hkey, if_true, Option.map_some, halike]
      · simp only [hkey, if_false, Option.map_some]

theorem alike_reversed (depth : Nat) (a b : Value) : g.reversed.alike depth a b = g.alike depth a b := by
  induction depth generalizing a b with
  | zero =>
    cases a <;> cases b <;> simp [alike, listed_reversed, fields_reversed]
  | succ depth ih =>
    have hsame : g.reversed.alike depth = g.alike depth := by
      funext a b
      exact ih a b
    have hfields (others fields : Fields Value) :
        alikeFields (g.alike depth) (others.map reversedField) (fields.map reversedField) =
          alikeFields (g.alike depth) others fields :=
      alikeFields_reversed (alike_mapText Direction.kinds.injective depth) others fields
    cases a <;> cases b <;> simp [alike, listed_reversed, fields_reversed, hsame, hfields]

theorem same_reversed (a b : Value) : g.reversed.same a b = g.same a b := by
  rw [same, same, alike_reversed]

theorem joins_reversed (d : Direction) (link : Link) :
    g.reversed.joins d.opposite link.reversed = g.joins d link := by
  rw [joins, joins, ← Direction.kinds_kind, Link.reversed, type_reversed]
  exact Value.isText_mapText Direction.kinds.injective _ _

theorem link?_reversed (record : ReferenceRecord) :
    g.reversed.link? record.reversed = (g.link? record).map Link.reversed := by
  rw [link?, link?, ReferenceRecord.reversed, orAbsent_reversed]
  cases g.orAbsent record.element with
  | none => rfl
  | some element => cases element <;> rfl

theorem linksOf_reversed (records : List ReferenceRecord) :
    g.reversed.linksOf (records.map ReferenceRecord.reversed) =
      (g.linksOf records).map Link.reversed := by
  rw [linksOf, linksOf, List.filterMap_map, List.map_filterMap]
  congr 1
  funext record
  exact link?_reversed record

theorem elementRefAt_reversed (place : Nat) :
    g.reversed.elementRefAt place = ElementRef.reversed <$> g.elementRefAt place := by
  have hid : g.reversed.field place "id" = g.field place "id" := field_reversed (by decide)
  have hname : g.reversed.field place "name" = g.field place "name" := field_reversed (by decide)
  rw [elementRefAt, elementRefAt, idText, idText, nameText, nameText, typeText, typeText, hid, hname,
    type_reversed, Value.text_mapText]
  cases (g.field place "id").text "id" <;> cases (g.field place "$type").text "type" <;>
    cases (g.field place "name").text "name" <;> rfl

end Graph

namespace Link

variable {g : Graph}

theorem isText_reversed (link : Link) (role : String) :
    link.reversed.role.isText (Direction.roles role) = link.role.isText role :=
  Value.isText_mapText Direction.roles.injective _ _

theorem elementId_reversed (link : Link) : link.reversed.elementId g.reversed = link.elementId g :=
  Graph.field_reversed (by decide)

theorem fields_reversed (link : Link) (element : ElementRef) :
    link.reversed.fields element.reversed = ReferenceLink.reversed <$> link.fields element := by
  obtain ⟨role, id, place⟩ := link
  rw [fields, fields, reversed]
  cases id.text "id" <;> cases role <;> rfl

theorem toReference_reversed (link : Link) :
    link.reversed.toReference g.reversed = ReferenceLink.reversed <$> link.toReference g := by
  have hplace : link.reversed.place = link.place := rfl
  rw [toReference, toReference, hplace, Graph.elementRefAt_reversed]
  cases g.elementRefAt link.place with
  | error fault => rfl
  | ok element =>
    show (link.reversed.fields element.reversed).as .referenceLink =
      ReferenceLink.reversed <$> (link.fields element).as .referenceLink
    rw [fields_reversed]
    cases link.fields element <;> rfl

theorem toEnd_reversed (link : Link) (dataObject : Option ReferenceLink) :
    link.reversed.toEnd g.reversed (dataObject.map ReferenceLink.reversed) =
      AssociationEnd.reversed <$> link.toEnd g dataObject := by
  have hplace : link.reversed.place = link.place := rfl
  rw [toEnd, toEnd, hplace, Graph.elementRefAt_reversed]
  cases g.elementRefAt link.place with
  | error fault => rfl
  | ok element =>
    show (AssociationEnd.mk <$> link.reversed.fields element.reversed
        <*> .valid (dataObject.map ReferenceLink.reversed)).as .associationEnd =
      AssociationEnd.reversed <$>
        (AssociationEnd.mk <$> link.fields element <*> .valid dataObject).as .associationEnd
    rw [fields_reversed]
    cases link.fields element <;> rfl

end Link

namespace Links

variable {g : Graph} {elements elements' : Index} {records : List ReferenceRecord}
  {links links' : Links} {d : Direction}

/-- The links of a reversed document: those of one direction are those of the other. -/
structure Reverses (links links' : Links) : Prop where
  directions : ∀ d : Direction, d.opposite.links links' = (d.links links).map Link.reversed
  dataObjects : links'.dataObjects = links.dataObjects.map Link.reversed

theorem findM?_map {α β : Type} (f : α → β) (p : β → Except Fault Bool) (l : List α) :
    (l.map f).findM? p = Option.map f <$> l.findM? fun a => p (f a) := by
  induction l with
  | nil => rfl
  | cons a rest ih =>
    rw [List.map_cons, List.findM?, List.findM?, ih]
    cases p (f a) with
    | error fault => rfl
    | ok found => cases found <;> rfl

theorem filter_role_reversed (l : List Link) (role : String) :
    (l.map Link.reversed).filter (·.role.isText (Direction.roles role)) =
      (l.filter (·.role.isText role)).map Link.reversed := by
  rw [List.filter_map]
  congr 2
  funext link
  exact link.isText_reversed role

theorem Reverses.near (h : links.Reverses links') (parameter : Value) :
    links'.near g.reversed d.opposite parameter = Option.map Link.reversed <$> links.near g d parameter := by
  rw [Links.near, Links.near, Graph.truthy_reversed, naming, naming, h.directions,
    ← Direction.roles_nearRole, filter_role_reversed, findM?_map]
  simp only [Graph.same_reversed]
  split
  · rfl
  · rfl

theorem Reverses.far (h : links.Reverses links') (near : Option Link) :
    links'.far g.reversed d.opposite (near.map Link.reversed) =
      Option.map Link.reversed <$> links.far g d near := by
  cases near with
  | none => rfl
  | some link =>
    rw [Option.map_some, Links.far, Links.far, link.elementId_reversed, onElement, onElement,
      h.directions, ← Direction.roles_farRole, filter_role_reversed, findM?_map]
    simp only [Graph.same_reversed, Link.elementId_reversed]
    split
    · rw [List.head?_map]
      rfl
    · rfl

theorem Reverses.dataObjectRef (h : links.Reverses links') (reference : Value) :
    links'.dataObjectRef g.reversed reference =
      Option.map ReferenceLink.reversed <$> links.dataObjectRef g reference := by
  rw [Links.dataObjectRef, Links.dataObjectRef, h.dataObjects, findM?_map]
  simp only [Graph.same_reversed, Link.elementId_reversed]
  split
  · rfl
  · cases links.dataObjects.findM? fun link => g.same (link.elementId g) reference with
    | error fault => rfl
    | ok found =>
      cases found with
      | none => rfl
      | some link =>
        show some <$> link.reversed.toReference g.reversed =
          Option.map ReferenceLink.reversed <$> some <$> link.toReference g
        rw [Link.toReference_reversed]
        cases link.toReference g <;> rfl

theorem nearEnd_reversed (near : Option Link) :
    nearEnd g.reversed (near.map Link.reversed) =
      Option.map AssociationEnd.reversed <$> nearEnd g near := by
  cases near with
  | none => rfl
  | some link =>
    have hend : link.reversed.toEnd g.reversed .none = AssociationEnd.reversed <$> link.toEnd g .none :=
      link.toEnd_reversed .none
    show some <$> link.reversed.toEnd g.reversed .none =
      Option.map AssociationEnd.reversed <$> some <$> link.toEnd g .none
    rw [hend]
    cases link.toEnd g .none <;> rfl

theorem Reverses.farEnd (h : links.Reverses links') (far : Option Link) :
    links'.farEnd g.reversed (far.map Link.reversed) =
      Option.map AssociationEnd.reversed <$> links.farEnd g far := by
  cases far with
  | none => rfl
  | some link =>
    show (do return some (← link.reversed.toEnd g.reversed (← links'.dataObjectRef g.reversed link.id))) =
      Option.map AssociationEnd.reversed <$> links.farEnd g (some link)
    rw [h.dataObjectRef, Links.farEnd]
    cases links.dataObjectRef g link.id with
    | error fault => rfl
    | ok dataObject =>
      show some <$> link.reversed.toEnd g.reversed (dataObject.map ReferenceLink.reversed) =
        Option.map AssociationEnd.reversed <$> some <$> link.toEnd g dataObject
      rw [Link.toEnd_reversed]
      cases link.toEnd g dataObject <;> rfl

theorem join_reversed (near far : Option AssociationEnd) :
    d.opposite.join (near.map AssociationEnd.reversed) (far.map AssociationEnd.reversed) =
      (d.join near far).reversed := by
  cases d <;> rfl

/-- The association of a parameter is found in a reversed document exactly when it is found, reversed. -/
theorem Reverses.association_iff (h : links.Reverses links') {parameter : Value} {a' : Association} :
    links'.association g.reversed d.opposite parameter = .ok a' ↔
      ∃ a, links.association g d parameter = .ok a ∧ a.reversed = a' := by
  constructor
  · intro ha
    obtain ⟨near', far', nearEnd', farEnd', hnear, hfar, hnearEnd, hfarEnd, rfl⟩ :=
      Graph.ends_of_association ha
    rw [h.near, ok_map] at hnear
    obtain ⟨near, hnear, rfl⟩ := hnear
    rw [h.far, ok_map] at hfar
    obtain ⟨far, hfar, rfl⟩ := hfar
    rw [nearEnd_reversed, ok_map] at hnearEnd
    obtain ⟨nearEnd, hnearEnd, rfl⟩ := hnearEnd
    rw [h.farEnd, ok_map] at hfarEnd
    obtain ⟨farEnd, hfarEnd, rfl⟩ := hfarEnd
    exact ⟨_, Graph.association_of_ends hnear hfar hnearEnd hfarEnd, (join_reversed nearEnd farEnd).symm⟩
  · rintro ⟨a, ha, rfl⟩
    obtain ⟨near, far, nearEnd, farEnd, hnear, hfar, hnearEnd, hfarEnd, rfl⟩ :=
      Graph.ends_of_association ha
    rw [← join_reversed]
    apply Graph.association_of_ends
    · rw [h.near, hnear]
      rfl
    · rw [h.far, hfar]
      rfl
    · rw [nearEnd_reversed, hnearEnd]
      rfl
    · rw [h.farEnd, hfarEnd]
      rfl

theorem reverses_of_ofRecords (h : ofRecords g elements records = .ok links)
    (h' : ofRecords g.reversed elements' (records.map ReferenceRecord.reversed) = .ok links') :
    links.Reverses links' where
  directions d := by
    rw [Graph.links_of_ofRecords h', Graph.links_of_ofRecords h, Graph.linksOf_reversed, List.filter_map]
    congr 2
    funext link
    exact Graph.joins_reversed d link
  dataObjects := by
    rw [Graph.dataObjects_of_ofRecords h', Graph.dataObjects_of_ofRecords h, Graph.linksOf_reversed,
      ← filter_role_reversed, Direction.roles_dataObject]

/-- The flow that a link speaks of can be looked up. -/
structure Sortable (g : Graph) (link : Link) : Prop where
  flow : link.role = .str Role.source ∨ link.role = .str Role.target →
    ∃ key, (link.elementId g).asKey = .ok key
  marked : link.role = .str Role.default → ∃ key, link.id.asKey = .ok key

theorem Sortable.reversed {link : Link} (h : Sortable g link) : Sortable g.reversed link.reversed := by
  have hrole (role : String) : link.reversed.role = .str (Direction.roles role) ↔ link.role = .str role := by
    rw [← Value.isText_iff, ← Value.isText_iff, Link.isText_reversed]
  -- Both ends of a flow are looked up alike, so it is no matter which of them the link is.
  have hsource : link.reversed.role = .str Role.target ↔ link.role = .str Role.source := by
    have h := hrole Direction.input.farRole
    rwa [Direction.roles_farRole] at h
  have htarget : link.reversed.role = .str Role.source ↔ link.role = .str Role.target := by
    have h := hrole Direction.output.farRole
    rwa [Direction.roles_farRole] at h
  have hdefault : link.reversed.role = .str Role.default ↔ link.role = .str Role.default := by
    have h := hrole Role.default
    rwa [Direction.roles_default] at h
  constructor
  · intro hend
    rw [htarget, hsource, or_comm] at hend
    rw [Link.elementId_reversed]
    exact h.flow hend
  · intro hmarked
    exact h.marked (hdefault.mp hmarked)

theorem Sortable.exists_addEdge {link : Link} (h : Sortable g link)
    (helements : ∀ entry ∈ elements, ∃ place, entry.2 = .node place) (edges : List FlowEdge) :
    ∃ edges', addEdge g elements edges link = .ok edges' := by
  rw [addEdge]
  simp only [Bool.and_eq_true, Value.isText_iff]
  split
  · next hsource =>
    obtain ⟨key, hkey⟩ := h.flow (.inl hsource.1)
    obtain ⟨type, htype⟩ := typeOf_flowElement (g := g) helements key link.place
    rw [Link.elementId] at hkey
    rw [hkey, bind_of_ok, htype]
    exact ⟨_, rfl⟩
  · split
    · next htarget =>
      obtain ⟨key, hkey⟩ := h.flow (.inr htarget.1)
      rw [Link.elementId] at hkey
      rw [hkey]
      exact ⟨_, rfl⟩
    · split
      · next hdefault =>
        obtain ⟨key, hkey⟩ := h.marked hdefault.1
        rw [hkey]
        exact ⟨_, rfl⟩
      · exact ⟨edges, rfl⟩

theorem sortable_of_addEdge {link : Link} {edges edges' : List FlowEdge}
    (h : addEdge g elements edges link = .ok edges') : Sortable g link := by
  have hnull {v : Value} (hv : v.isNull = true) : ∃ key, v.asKey = .ok key := by
    cases v with
    | null => exact ⟨_, rfl⟩
    | _ => cases hv
  rw [addEdge] at h
  simp only [Bool.and_eq_true, Bool.not_eq_true', Value.isText_iff] at h
  split at h
  · next hsource =>
    obtain ⟨key, hkey, -⟩ := ok_bind.mp h
    refine ⟨fun _ => ⟨key, hkey⟩, ?_⟩
    intro hdefault
    rw [hsource.1] at hdefault
    exact absurd hdefault (by decide)
  · next hsource =>
    split at h
    · next htarget =>
      obtain ⟨key, hkey, -⟩ := ok_bind.mp h
      refine ⟨fun _ => ⟨key, hkey⟩, ?_⟩
      intro hdefault
      rw [htarget.1] at hdefault
      exact absurd hdefault (by decide)
    · next htarget =>
      constructor
      · intro hend
        rw [Link.elementId]
        apply hnull
        rcases hend with hend | hend
        · simpa only [hend, true_and, Bool.not_eq_false] using hsource
        · simpa only [hend, true_and, Bool.not_eq_false] using htarget
      · -- No flow is looked up for a marker without an identifier, but null is a key as well.
        intro hdefault
        by_cases hid : link.id.isNull = true
        · exact hnull hid
        · rw [if_pos ⟨hdefault, by simpa using hid⟩] at h
          obtain ⟨key, hkey, -⟩ := ok_bind.mp h
          exact ⟨key, hkey⟩

/-- A record that was sorted in can be sorted in reversed, whatever was before it. -/
theorem exists_add_reversed (helements : ∀ entry ∈ elements', ∃ place, entry.2 = .node place)
    {record : ReferenceRecord} {next : Links} (h : add g elements links record = .ok next)
    (start : Links) : ∃ next', add g.reversed elements' start record.reversed = .ok next' := by
  have helement : record.reversed.element = record.element := rfl
  rw [add, helement, Graph.orAbsent_reversed]
  rw [add] at h
  cases hcounts : g.orAbsent record.element with
  | none => exact ⟨start, rfl⟩
  | some element =>
    rw [hcounts] at h
    obtain ⟨place, hplace, h⟩ := ok_bind.mp h
    obtain ⟨edges, hedges, -⟩ := ok_bind.mp h
    obtain ⟨edges', hedges'⟩ :=
      (sortable_of_addEdge hedges).reversed.exists_addEdge helements start.edges
    rw [Link.reversed] at hedges'
    show ∃ next', (Graph.placeOf element >>= _) = .ok next'
    rw [hplace, bind_of_ok]
    dsimp only [ReferenceRecord.reversed]
    rw [hedges']
    exact ⟨_, rfl⟩

theorem exists_foldlM_reversed (helements : ∀ entry ∈ elements', ∃ place, entry.2 = .node place)
    {start : Links} (h : records.foldlM (add g elements) start = .ok links) (start' : Links) :
    ∃ links', (records.map ReferenceRecord.reversed).foldlM (add g.reversed elements') start' =
      .ok links' := by
  induction records generalizing start start' with
  | nil => exact ⟨start', rfl⟩
  | cons record rest ih =>
    obtain ⟨next, hnext, hrest⟩ := ok_bind.mp h
    obtain ⟨next', hnext'⟩ := exists_add_reversed helements hnext start'
    obtain ⟨links', hlinks'⟩ := ih hrest next'
    exact ⟨links', ok_bind.mpr ⟨next', hnext', hlinks'⟩⟩

/-- An end of an association of the direction opposite to one. -/
def opposes (g : Graph) (d : Direction) (record : ReferenceRecord) : Bool :=
  (record.property.isText Role.source || record.property.isText Role.target) &&
    (g.link? record).any (g.joins d.opposite)

/-- Links that are wanted are not lost with records that have none of them. -/
theorem filter_linksOf_filter {keep : ReferenceRecord → Bool} {wanted : Link → Bool}
    (h : ∀ record link, g.link? record = some link → wanted link = true → keep record = true) :
    (g.linksOf (records.filter keep)).filter wanted = (g.linksOf records).filter wanted := by
  induction records with
  | nil => rfl
  | cons record rest ih =>
    rw [Graph.linksOf_cons, List.filter_append, ← ih]
    by_cases hkeep : keep record = true
    · rw [List.filter_cons_of_pos hkeep, Graph.linksOf_cons, List.filter_append]
    · have hnone : (g.link? record).toList.filter wanted = [] := by
        rw [List.filter_eq_nil_iff]
        intro link hlink hwanted
        exact hkeep (h record link (Option.mem_toList.mp hlink) hwanted)
      rw [List.filter_cons_of_neg hkeep, hnone, List.nil_append]

theorem role_of_link? {record : ReferenceRecord} {link : Link} (h : g.link? record = some link) :
    link.role = record.property := by
  rw [Graph.link?] at h
  split at h
  · obtain rfl := Option.some.inj h
    rfl
  · cases h

theorem joins_opposite {link : Link} (h : g.joins d link = true) : g.joins d.opposite link = false := by
  rw [Graph.joins, Value.isText_iff] at h
  rw [Graph.joins, h]
  cases d <;> decide

/-- What opposes a direction is no link of it and binds no data object. -/
theorem parts_of_filter_opposes {records' : List ReferenceRecord}
    (h : ofRecords g elements records = .ok links) (h' : ofRecords g elements' records' = .ok links')
    (hsame : records.filter (fun r => !opposes g d r) = records'.filter fun r => !opposes g d r) :
    d.links links' = d.links links ∧ links'.dataObjects = links.dataObjects := by
  have hjoins (record : ReferenceRecord) (link : Link) (hlink : g.link? record = some link)
      (hwanted : g.joins d link = true) : (!opposes g d record) = true := by
    rw [opposes, hlink, Option.any_some, joins_opposite hwanted, Bool.and_false]
    rfl
  have hbinds (record : ReferenceRecord) (link : Link) (hlink : g.link? record = some link)
      (hwanted : link.role.isText Role.dataObject = true) : (!opposes g d record) = true := by
    rw [Value.isText_iff, role_of_link? hlink] at hwanted
    rw [opposes, hwanted]
    rfl
  constructor
  · rw [Graph.links_of_ofRecords h', Graph.links_of_ofRecords h, ← filter_linksOf_filter hjoins, ← hsame,
      filter_linksOf_filter hjoins]
  · rw [Graph.dataObjects_of_ofRecords h', Graph.dataObjects_of_ofRecords h,
      ← filter_linksOf_filter hbinds, ← hsame, filter_linksOf_filter hbinds]

/-- An association is found among the links of its direction and those that bind data objects. -/
theorem association_congr (hdirection : d.links links' = d.links links)
    (hdataObjects : links'.dataObjects = links.dataObjects) (parameter : Value) :
    links'.association g d parameter = links.association g d parameter := by
  have hnear : links'.near g d parameter = links.near g d parameter := by
    rw [Links.near, Links.near, hdirection]
  have hfar (near : Option Link) : links'.far g d near = links.far g d near := by
    cases near with
    | none => rfl
    | some link => rw [Links.far, Links.far, hdirection]
  have hfarEnd (far : Option Link) : links'.farEnd g far = links.farEnd g far := by
    cases far with
    | none => rfl
    | some link => simp only [Links.farEnd, Links.dataObjectRef, hdataObjects]
  cases d <;> simp only [Links.association, Links.dataInput, Links.dataOutput, hnear, hfar, hfarEnd]

/-- Reversed records are sorted as the records are, and a parameter has the association among them that it
has in the opposite direction among the records, reversed.  In neither direction does an association depend
on the ends of those of the other. -/
theorem association_reversed (h : ofRecords g elements records = .ok links) :
    (∀ elements' : Index, (∀ entry ∈ elements', ∃ place, entry.2 = .node place) →
      ∃ links', ofRecords g.reversed elements' (records.map ReferenceRecord.reversed) = .ok links') ∧
    (∀ elements' links', ofRecords g.reversed elements' (records.map ReferenceRecord.reversed) = .ok links' →
      ∀ (d : Direction) (parameter : Value), (links.association g d parameter).toOption =
        (links'.association g.reversed d.opposite parameter).toOption.map Association.reversed) ∧
    (∀ (d : Direction) elements' records' links', ofRecords g elements' records' = .ok links' →
      records.filter (fun r => !opposes g d r) = records'.filter (fun r => !opposes g d r) →
      ∀ parameter, links'.association g d parameter = links.association g d parameter) := by
  refine ⟨?_, ?_, ?_⟩
  · intro elements' helements
    exact exists_foldlM_reversed helements h .none
  · intro elements' links' h' d parameter
    have hreverses := reverses_of_ofRecords h h'
    cases ha : links.association g d parameter with
    | ok a =>
      have ha' := hreverses.association_iff.mpr ⟨a, ha, rfl⟩
      rw [ha']
      exact congrArg some (Association.reversed_involutive a).symm
    | error fault =>
      cases ha' : links'.association g.reversed d.opposite parameter with
      | ok a' =>
        obtain ⟨a, hfound, -⟩ := hreverses.association_iff.mp ha'
        rw [hfound] at ha
        cases ha
      | error fault' => rfl
  · intro d elements' records' links' h' hsame
    obtain ⟨hdirection, hdataObjects⟩ := parts_of_filter_opposes h h' hsame
    exact association_congr hdirection hdataObjects

/-- A data object reference that feeds an input and is fed by an output. -/
def bothWays : Graph where
  contents := #[.object [("$type", .str "bpmn:DataInputAssociation"), ("id", .str "into")],
    .object [("$type", .str "bpmn:DataOutputAssociation"), ("id", .str "outOf")],
    .object [("$type", .str "bpmn:DataObjectReference"), ("id", .str "ref")]]

def fiveRecords : List ReferenceRecord :=
  [⟨.str Role.source, .str "ref", .node 0⟩, ⟨.str Role.target, .str "in", .node 0⟩,
    ⟨.str Role.source, .str "out", .node 1⟩, ⟨.str Role.target, .str "ref", .node 1⟩,
    ⟨.str Role.dataObject, .str "o", .node 2⟩]

theorem association_reversed_bothWays :
    ∃ links links', ofRecords bothWays .empty fiveRecords = .ok links ∧
      ofRecords bothWays.reversed .empty (fiveRecords.map ReferenceRecord.reversed) = .ok links' ∧
      (∀ (d : Direction) (parameter : Value), (links.association bothWays d parameter).toOption =
        (links'.association bothWays.reversed d.opposite parameter).toOption.map Association.reversed) ∧
      ∀ d : Direction, ∃ links', ofRecords bothWays .empty
          (fiveRecords.filter fun r => !opposes bothWays d r) = .ok links' ∧
        ∀ parameter, links'.association bothWays d parameter = links.association bothWays d parameter := by
  obtain ⟨links, h⟩ : ∃ links, ofRecords bothWays .empty fiveRecords = .ok links := ⟨_, rfl⟩
  obtain ⟨hexists, hreversed, hopposed⟩ := association_reversed h
  obtain ⟨links', h'⟩ := hexists .empty (fun _ hentry => nomatch hentry)
  refine ⟨links, links', h, h', hreversed .empty links' h', ?_⟩
  intro d
  obtain ⟨kept, hkept⟩ : ∃ kept, ofRecords bothWays .empty
      (fiveRecords.filter fun r => !opposes bothWays d r) = .ok kept := by
    cases d <;> exact ⟨_, rfl⟩
  refine ⟨kept, hkept, hopposed d .empty _ kept hkept ?_⟩
  rw [List.filter_filter]
  simp only [Bool.and_self]

/-- The output feeds the data object reference. -/
example :
    (ofRecords bothWays .empty fiveRecords >>= fun links =>
      links.association bothWays .output (.str "out")).toOption.map (·.target.map (·.id)) =
        some (some (some "ref")) := by
  decide +kernel

end Links

end Bpmn
