import Bpmn.Mapping.Bundle
import Bpmn.Proofs.Document.Mirrors

namespace Bpmn

variable {g g' : Graph}

/-- Links whose parts hold the same trees. -/
structure Link.Mirrors (g g' : Graph) (link link' : Link) : Prop where
  role : g.Mirrors g' link.role link'.role
  id : g.Mirrors g' link.id link'.id
  element : g.Mirrors g' (.node link.place) (.node link'.place)

/-- Edges of one flow with the same mark and ends that hold the same trees. -/
structure FlowEdge.Mirrors (g g' : Graph) (e e' : FlowEdge) : Prop where
  id : e.id = e'.id
  source : g.Mirrors g' e.source e'.source
  target : g.Mirrors g' e.target e'.target
  isDefault : e.isDefault = e'.isDefault

/-- Links that tell the same one by one. -/
structure Links.Mirrors (g g' : Graph) (links links' : Links) : Prop where
  edges : List.Forall₂ (FlowEdge.Mirrors g g') links.edges links'.edges
  dataObjects : List.Forall₂ (Link.Mirrors g g') links.dataObjects links'.dataObjects
  inputs : List.Forall₂ (Link.Mirrors g g') links.inputs links'.inputs
  outputs : List.Forall₂ (Link.Mirrors g g') links.outputs links'.outputs

theorem FlowEdge.Mirrors.bare (id : Value) : FlowEdge.Mirrors g g' (.bare id) (.bare id) :=
  ⟨rfl, .null, .null, rfl⟩

namespace Link.Mirrors

variable {link link' : Link}

theorem elementId (h : Link.Mirrors g g' link link') :
    g.Mirrors g' (link.elementId g) (link'.elementId g') :=
  h.element.field "id"

theorem fields_eq (h : Link.Mirrors g g' link link') (element : ElementRef) :
    link.fields element = link'.fields element := by
  have hrole := h.role.shape_eq (f := fun role => Link.fields ⟨role, link.id, link.place⟩ element)
    (fun _ _ => rfl) fun _ _ => rfl
  have hid := h.id.shape_eq (f := fun id => Link.fields ⟨link'.role, id, link.place⟩ element)
    (fun _ _ => rfl) fun _ _ => rfl
  exact hrole.trans hid

theorem toReference_eq (h : Link.Mirrors g g' link link') :
    link.toReference g = link'.toReference g' := by
  simp only [Link.toReference, h.element.elementRefAt_eq, h.fields_eq]

theorem toEnd_eq (h : Link.Mirrors g g' link link') (dataObject : Option ReferenceLink) :
    link.toEnd g dataObject = link'.toEnd g' dataObject := by
  simp only [Link.toEnd, h.element.elementRefAt_eq, h.fields_eq]

end Link.Mirrors

namespace Links.Mirrors

variable {links links' : Links} {elements elements' : Index} {id id' : Value} {d : Direction}

theorem none : Links.Mirrors g g' .none .none := ⟨.nil, .nil, .nil, .nil⟩

theorem directions (h : Links.Mirrors g g' links links') (d : Direction) :
    List.Forall₂ (Link.Mirrors g g') (d.links links) (d.links links') := by
  cases d with
  | input => exact h.inputs
  | output => exact h.outputs

theorem change {f f' : FlowEdge → FlowEdge} {edges edges' : List FlowEdge}
    (hf : ∀ e e', FlowEdge.Mirrors g g' e e' → FlowEdge.Mirrors g g' (f e) (f' e'))
    (h : List.Forall₂ (FlowEdge.Mirrors g g') edges edges') (id : Value) :
    List.Forall₂ (FlowEdge.Mirrors g g') (Links.change id f edges) (Links.change id f' edges') := by
  induction h with
  | nil => exact .cons (hf _ _ (.bare id)) .nil
  | cons he hrest ih =>
    rw [Links.change, Links.change, he.id]
    split
    · exact .cons (hf _ _ he) hrest
    · exact .cons he ih

section Sorting

variable (helements : Index.Mirrors g g' elements elements')

include helements

theorem addEdge {edges edges' : List FlowEdge} {link link' : Link}
    (hedges : List.Forall₂ (FlowEdge.Mirrors g g') edges edges') (hlink : Link.Mirrors g g' link link') :
    Carries (List.Forall₂ (FlowEdge.Mirrors g g')) (Links.addEdge g elements edges link)
      (Links.addEdge g' elements' edges' link') := by
  have hflow := hlink.element.field "id"
  rw [Links.addEdge, Links.addEdge]
  simp only [hlink.role.isText_eq, hflow.isNull_eq, hlink.id.isNull_eq]
  split
  · refine .bind_eq (.of_eq hflow.asKey_eq) ?_
    intro flow _
    have hfound := Graph.Mirrors.getD (helements.find flow).orAbsent hlink.element
    refine .bind hfound.typeOf ?_
    intro type type' _ _ _
    refine .ok (change ?_ hedges flow)
    intro e e' he
    exact ⟨he.id, hlink.id, he.target, he.isDefault⟩
  · split
    · refine .bind_eq (.of_eq hflow.asKey_eq) ?_
      intro flow _
      refine .ok (change ?_ hedges flow)
      intro e e' he
      exact ⟨he.id, he.source, hlink.id, he.isDefault⟩
    · split
      · refine .bind_eq (.of_eq hlink.id.asKey_eq) ?_
        intro flow _
        refine .ok (change ?_ hedges flow)
        intro e e' he
        exact ⟨he.id, he.source, he.target, rfl⟩
      · exact .ok hedges

theorem add (h : Links.Mirrors g g' links links') {record record' : ReferenceRecord}
    (hrecord : ReferenceRecord.Mirrors g g' record record') :
    Carries (Links.Mirrors g g') (Links.add g elements links record)
      (Links.add g' elements' links' record') := by
  have helement := hrecord.element.orAbsent
  rw [Links.add, Links.add]
  generalize g.orAbsent record.element = o, g'.orAbsent record'.element = o' at helement
  cases helement with
  | none => exact .ok h
  | some helement =>
    refine .bind helement.placeOf ?_
    intro place place' _ _ hplace
    have hlink : Link.Mirrors g g' ⟨record.property, record.id, place⟩
        ⟨record'.property, record'.id, place'⟩ := ⟨hrecord.property, hrecord.id, hplace⟩
    have htype := hplace.field "$type"
    refine .bind (addEdge helements h.edges hlink) ?_
    intro edges edges' _ _ hedges
    -- A link is kept in both lists or in none.
    have hkeep {wanted : Bool} {kept kept' : List Link}
        (hkept : List.Forall₂ (Link.Mirrors g g') kept kept') :
        List.Forall₂ (Link.Mirrors g g')
          (if wanted then kept ++ [⟨record.property, record.id, place⟩] else kept)
          (if wanted then kept' ++ [⟨record'.property, record'.id, place'⟩] else kept') := by
      split
      · exact List.rel_append hkept (.cons hlink .nil)
      · exact hkept
    simp only [hrecord.property.isText_eq, htype.isText_eq]
    exact .ok ⟨hedges, hkeep h.dataObjects, hkeep h.inputs, hkeep h.outputs⟩

theorem ofRecords {records records' : List ReferenceRecord}
    (hrecords : List.Forall₂ (ReferenceRecord.Mirrors g g') records records') :
    Carries (Links.Mirrors g g') (Links.ofRecords g elements records)
      (Links.ofRecords g' elements' records') :=
  .foldlM hrecords none fun _ _ _ _ hlinks hrecord => add helements hlinks hrecord

end Sorting

theorem edge (h : Links.Mirrors g g' links links') (hid : g.Mirrors g' id id') :
    Carries (FlowEdge.Mirrors g g') (links.edge id) (links'.edge id') := by
  rw [Links.edge, Links.edge, hid.asKey_eq]
  refine .bind_eq (.of_eq rfl) ?_
  intro key _
  split
  · exact .ok (.bare .null)
  · have hfound : Option.Rel _ (links.edges.find? fun e => e.id.sameKey key)
        (links'.edges.find? fun e => e.id.sameKey key) :=
      rel_find? h.edges fun e e' he => by rw [he.id]
    apply Carries.ok
    generalize links.edges.find? (fun e => e.id.sameKey key) = o,
      links'.edges.find? (fun e => e.id.sameKey key) = o' at hfound
    cases hfound with
    | none => exact .bare key
    | some he => exact he

theorem withRole {l l' : List Link} (hl : List.Forall₂ (Link.Mirrors g g') l l') (role : String) :
    List.Forall₂ (Link.Mirrors g g') (l.filter (·.role.isText role)) (l'.filter (·.role.isText role)) := by
  refine List.rel_filter ?_ hl
  intro link link' hlink
  dsimp only
  rw [hlink.role.isText_eq]

theorem dataObjectRef (h : Links.Mirrors g g' links links') (hid : g.Mirrors g' id id')
    (hname : id.isName = true) :
    Carries Eq (links.dataObjectRef g id) (links'.dataObjectRef g' id') := by
  rw [Links.dataObjectRef, Links.dataObjectRef, hid.isNull_eq]
  split
  · exact .ok rfl
  · refine .bind (.findM? h.dataObjects fun _ _ _ hlink => .of_eq (hlink.elementId.same_eq hid hname)) ?_
    intro found found' _ _ hfound
    cases hfound with
    | none => exact .ok rfl
    | some hlink =>
      dsimp only
      rw [hlink.toReference_eq]
      exact .of_eq rfl

theorem near (h : Links.Mirrors g g' links links') (hid : g.Mirrors g' id id')
    (hname : id.isName = true) :
    Carries (Option.Rel (Link.Mirrors g g')) (links.near g d id) (links'.near g' d id') := by
  rw [Links.near, Links.near, hid.truthy_eq]
  split
  · exact .findM? (withRole (h.directions d) d.nearRole) fun _ _ _ hlink =>
      .of_eq (hlink.id.same_eq hid hname)
  · exact .ok .none

theorem far (h : Links.Mirrors g g' links links') {near near' : Option Link}
    (hnear : Option.Rel (Link.Mirrors g g') near near')
    (hname : ∀ n, near = some n → (n.elementId g).isName = true) :
    Carries (Option.Rel (Link.Mirrors g g')) (links.far g d near) (links'.far g' d near') := by
  cases hnear with
  | none => exact .ok .none
  | @some n n' hn =>
    have hlinks := withRole (h.directions d) d.farRole
    rw [Links.far, Links.far, Links.onElement, Links.onElement, hn.elementId.isNull_eq]
    split
    · apply Carries.ok
      generalize (d.links links).filter (·.role.isText d.farRole) = l,
        (d.links links').filter (·.role.isText d.farRole) = l' at hlinks
      cases hlinks with
      | nil => exact .none
      | cons hlink _ => exact .some hlink
    · exact .findM? hlinks fun _ _ _ hlink => .of_eq (hlink.elementId.same_eq hn.elementId (hname n rfl))

theorem nearEnd_eq {near near' : Option Link} (h : Option.Rel (Link.Mirrors g g') near near') :
    Links.nearEnd g near = Links.nearEnd g' near' := by
  cases h with
  | none => rfl
  | some hlink => simp only [Links.nearEnd, hlink.toEnd_eq]

/-- A far end that can be described has a text or nothing as its identifier. -/
theorem isName_of_toEnd {link : Link} {dataObject : Option ReferenceLink} {e : AssociationEnd}
    (h : link.toEnd g dataObject = .ok e) : link.id.isName = true := by
  obtain ⟨element, -, h⟩ := ok_bind.mp h
  obtain ⟨_, _, hfields, -, -⟩ := Checked.seq_eq_valid.mp (Checked.as_eq_ok.mp h)
  obtain ⟨fields, hfields, -⟩ := Checked.map_eq_valid.mp hfields
  obtain ⟨_, _, hrole, -, -⟩ := Checked.seq_eq_valid.mp hfields
  obtain ⟨_, _, hid, -, -⟩ := Checked.seq_eq_valid.mp hrole
  obtain ⟨id, hid, -⟩ := Checked.map_eq_valid.mp hid
  exact (Value.isName_iff_text "id").mpr ⟨id, hid⟩

theorem farEnd (h : Links.Mirrors g g' links links') {far far' : Option Link}
    (hfar : Option.Rel (Link.Mirrors g g') far far') :
    Carries Eq (links.farEnd g far) (links'.farEnd g' far') := by
  cases hfar with
  | none => exact .ok rfl
  | some hlink =>
    intro e he
    obtain ⟨r, hr, he⟩ := ok_bind.mp he
    obtain ⟨e', he', he⟩ := ok_bind.mp he
    have hr' := (h.dataObjectRef hlink.id (isName_of_toEnd he')).eq_ok hr
    refine ⟨e, ?_, rfl⟩
    rw [Links.farEnd]
    exact ok_bind.mpr ⟨r, hr', ok_bind.mpr ⟨e', hlink.toEnd_eq r ▸ he', he⟩⟩

theorem association (h : Links.Mirrors g g' links links') (hid : g.Mirrors g' id id')
    (hname : id.isName = true) :
    Carries Eq (links.association g d id) (links'.association g' d id') := by
  intro a ha
  obtain ⟨near, far, nearEnd, farEnd, hnear, hfar, hnearEnd, hfarEnd, rfl⟩ :=
    Graph.ends_of_association ha
  have hnamed : ∀ n, near = some n → (n.elementId g).isName = true := by
    intro n hn
    subst hn
    exact Value.isName_iff.mpr (Graph.elementId_of_nearEnd hnearEnd)
  obtain ⟨near', hnear', hnears⟩ := h.near (d := d) hid hname near hnear
  obtain ⟨far', hfar', hfars⟩ := h.far (d := d) hnears hnamed far hfar
  exact ⟨_, Graph.association_of_ends hnear' hfar' (nearEnd_eq hnears ▸ hnearEnd)
    ((h.farEnd hfars).eq_ok hfarEnd), rfl⟩

theorem parameter (h : Links.Mirrors g g' links links') {v v' : Value} (hv : g.Mirrors g' v v') :
    Carries Eq (links.parameter g d v) (links'.parameter g' d v') := by
  refine .bind hv.placeOf ?_
  intro place place' _ _ hplace
  refine .bind_eq (.of_eq hplace.ownFieldsAt_eq) ?_
  intro own hown p hp
  obtain ⟨association, hassociation, hp⟩ := ok_bind.mp hp
  -- The identifier is looked up before it is checked; here the check has succeeded.
  have hname := isName_of_maybeText hown (Check.dataParameterWith_eq_valid.mp (Checked.as_eq_ok.mp hp)).1
  refine ⟨p, ok_bind.mpr ⟨association, ?_, ?_⟩, rfl⟩
  · exact (h.association (hplace.field "id") hname).eq_ok hassociation
  · rw [← (hplace.field "$type").unfold_eq]
    exact hp

theorem parameters (h : Links.Mirrors g g' links links') {v v' : Value} (hv : g.Mirrors g' v v') :
    Carries Eq (links.parameters g d v) (links'.parameters g' d v') := by
  have hlist := hv.nonNull?
  rw [Links.parameters, Links.parameters]
  generalize v.nonNull? = o, v'.nonNull? = o' at hlist
  cases hlist with
  | none => exact .ok rfl
  | some hlist =>
    refine .bind hlist.items ?_
    intro items items' _ _ hitems
    exact .followed (.mapM_eq hitems fun _ _ _ hitem => h.parameter hitem) _

theorem ioParameters (h : Links.Mirrors g g' links links') {place place' : Nat}
    (hplace : g.Mirrors g' (.node place) (.node place')) :
    Carries Eq (links.ioParameters g place) (links'.ioParameters g' place') := by
  refine .bind_eq (h.parameters (hplace.field _)) ?_
  intro inputs _
  exact .followed (h.parameters (hplace.field _)) _

end Links.Mirrors

namespace Bundle

variable {links links' : Links} {v v' : Value} {place place' : Nat}

theorem computed_eq (h : g.Mirrors g' v v') : computed v = computed v' :=
  h.shape_eq (fun _ _ => rfl) fun _ _ => rfl

theorem carries_each_eq {α : Type} {read read' : Value → Except Fault (Option α)}
    (hread : ∀ v v', g.Mirrors g' v v' → Carries Eq (read v) (read' v')) (h : g.Mirrors g' v v') :
    Carries Eq (each g v read) (each g' v' read') := by
  have hlist := h.nonNull?
  rw [each, each]
  generalize v.nonNull? = o, v'.nonNull? = o' at hlist
  cases hlist with
  | none => exact .ok rfl
  | some hlist =>
    refine .bind hlist.items ?_
    intro items items' _ _ hitems
    exact .followed (.mapM_eq hitems fun v v' _ hv => hread v v' hv) _

theorem conditionBody_rel (h : g.Mirrors g' (.node place) (.node place')) :
    Option.Rel (g.Mirrors g') (conditionBody g place) (conditionBody g' place') := by
  have hcondition := h.field "conditionExpression"
  rw [conditionBody, conditionBody]
  generalize g.field place "conditionExpression" = v, g'.field place' "conditionExpression" = v'
    at hcondition
  rcases hcondition.cases with ⟨hplain, rfl⟩ | ⟨p, q, rfl, rfl, -⟩ | ⟨p, q, rfl, rfl, -⟩
  · cases v <;> first | exact .none | cases hplain
  · exact .none
  · dsimp only
    rw [(hcondition.field "$type").truthy_eq]
    split
    · exact (hcondition.field "body").nonNull?
    · exact .none

theorem carries_resource (h : g.Mirrors g' v v') : Carries Eq (resource g v) (resource g' v') := by
  have habsent := h.orAbsent
  rw [resource, resource]
  generalize g.orAbsent v = o, g'.orAbsent v' = o' at habsent
  cases habsent with
  | none => exact .ok rfl
  | some h =>
    refine .bind h.placeOf ?_
    intro place place' _ _ hplace
    have hassignment := (hplace.field "resourceAssignmentExpression").orAbsent
    generalize g.orAbsent (g.field place "resourceAssignmentExpression") = o,
      g'.orAbsent (g'.field place' "resourceAssignmentExpression") = o' at hassignment
    have hrest {expression expression' : Value} (hexpression : g.Mirrors g' expression expression') :
        Carries Eq (do
            let own ← g.ownFieldsAt place
            let resource ← (Resource.mk <$> g.typeText place <*> (g.bodyOf expression).text "expression"
              <*> .valid own).as .resource
            return some resource)
          (do
            let own ← g'.ownFieldsAt place'
            let resource ← (Resource.mk <$> g'.typeText place' <*>
              (g'.bodyOf expression').text "expression" <*> .valid own).as .resource
            return some resource) := by
      rw [hplace.ownFieldsAt_eq, hplace.typeText_eq, hexpression.bodyOf.text_eq]
      exact .of_eq rfl
    cases hassignment with
    | none => exact hrest .null
    | some hassignment => exact .bind (hassignment.get "expression") fun _ _ _ _ => hrest

section Links

variable (hlinks : Links.Mirrors g g' links links')

include hlinks

theorem carries_ofDefinition (h : g.Mirrors g' (.node place) (.node place')) :
    Carries Eq (ofDefinition g links place) (ofDefinition g' links' place') := by
  have htype := h.field "$type"
  rw [ofDefinition, ofDefinition]
  dsimp only
  rw [htype.isText_eq, computed_eq htype]
  split
  · refine .bind_eq (hlinks.ioParameters h) ?_
    rintro ⟨inputs, outputs⟩ -
    exact .ok rfl
  · refine .bind_eq h.spreadFields ?_
    intro fields _
    simp only [h.bodyAt_eq]
    exact .of_eq rfl

theorem carries_definition_eq (h : g.Mirrors g' v v') :
    Carries Eq (definition g links v) (definition g' links' v') := by
  have habsent := h.orAbsent
  rw [definition, definition]
  generalize g.orAbsent v = o, g'.orAbsent v' = o' at habsent
  cases habsent with
  | none => exact .ok rfl
  | some h =>
    refine .bind h.placeOf ?_
    intro place place' _ _ hplace
    refine .bind_eq (carries_ofDefinition hlinks hplace) ?_
    intro behaviour _
    rw [hplace.typeText_eq]
    exact .of_eq rfl

theorem carries_ofElement_eq (h : g.Mirrors g' (.node place) (.node place')) (extra : List (String × Json)) :
    Carries Eq (ofElement g links extra place) (ofElement g' links' extra place') := by
  refine .bind_eq (.of_eq h.ownFieldsAt_eq) ?_
  intro own _
  have hcheck : Carries Eq (checkElement g links (Fields.update extra own) place)
      (checkElement g' links' (Fields.update extra own) place') := by
    refine .bind_eq (carries_each_eq (fun _ _ => carries_definition_eq hlinks) (h.field _)) ?_
    intro events _
    refine .bind_eq (carries_definition_eq hlinks (h.field _)) ?_
    intro loop _
    refine .bind_eq (carries_definition_eq hlinks (h.field _)) ?_
    intro io _
    exact .followed (carries_each_eq (fun _ _ => carries_resource) (h.field _)) _
  exact .followed hcheck _

end Links

theorem ofFlow_eq (h : g.Mirrors g' (.node place) (.node place')) : ofFlow g place = ofFlow g' place' := by
  have hbody := conditionBody_rel h
  rw [ofFlow, ofFlow, h.ownFieldsAt_eq]
  generalize conditionBody g place = o, conditionBody g' place' = o' at hbody
  cases hbody with
  | none => rfl
  | some hbody =>
    dsimp only
    rw [hbody.unfold_eq]

theorem carries_raw (h : g.Mirrors g' v v') : Carries Eq (raw g v) (raw g' v') := by
  exact .followed h.ownFields _

end Bundle

end Bpmn
