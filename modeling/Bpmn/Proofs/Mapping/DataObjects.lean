import Bpmn.Proofs.Mapping.Elements
import Bpmn.Proofs.Mapping.Origins
import Bpmn.Proofs.Mapping.Pairing

namespace Bpmn

/-- Every step of a run over a list has succeeded, and what it gives is in the result. -/
theorem each_of_ok_filterMapM {α β : Type} {f : α → Except Fault (Option β)} {l : List α}
    {l' : List β} (h : l.filterMapM f = .ok l') :
    ∀ a ∈ l, ∃ o, f a = .ok o ∧ ∀ b, o = some b → b ∈ l' := by
  induction l generalizing l' with
  | nil => simp
  | cons first rest ih =>
    rw [List.filterMapM_cons, ok_bind] at h
    obtain ⟨o, ho, h⟩ := h
    cases o with
    | none => exact List.forall_mem_cons.mpr ⟨⟨none, ho, fun b hb => nomatch hb⟩, ih h⟩
    | some b =>
      obtain ⟨bs, hbs, h⟩ := ok_bind.mp h
      obtain rfl := ok_pure.mp h
      refine List.forall_mem_cons.mpr ⟨⟨some b, ho, ?_⟩, ?_⟩
      · rintro _ ⟨⟩
        exact List.mem_cons_self
      · intro a ha
        obtain ⟨o, ho, hmem⟩ := ih hbs a ha
        exact ⟨o, ho, fun b hb => List.mem_cons_of_mem _ (hmem b hb)⟩

namespace Graph

variable {g : Graph} {links : Links} {id : String}

theorem same_of_plain {a b : Value} {text : Option String} (ha : a.plain = .ofText text)
    (hb : b.plain = .ofText text) : g.same a b = .ok true := by
  obtain rfl := Value.eq_of_plain ha
  obtain rfl := Value.eq_of_plain hb
  cases text with
  | none => rfl
  | some s =>
    rw [Option.elim_some, same_text]
    exact congrArg Except.ok (Value.isText_iff.mpr rfl)

theorem parts_of_fields {link : Link} {element : ElementRef} {l : ReferenceLink}
    (h : link.fields element = .valid l) : link.id.plain = .ofText l.id ∧ l.element = some element := by
  obtain ⟨_, _, h₁, hsome, rfl⟩ := Checked.seq_eq_valid.mp h
  cases hsome
  obtain ⟨_, role, h₂, -, rfl⟩ := Checked.seq_eq_valid.mp h₁
  obtain ⟨own, hown, rfl⟩ := Checked.map_eq_valid.mp h₂
  exact ⟨Value.text_eq_valid.mp hown, rfl⟩

/-- A description names the identifier of its record and of the element that refers. -/
theorem parts_of_toReference {link : Link} {l : ReferenceLink} (h : link.toReference g = .ok l) :
    link.id.plain = .ofText l.id ∧
      ∃ element, l.element = some element ∧ (link.elementId g).plain = .ofText element.id := by
  obtain ⟨element, helement, h⟩ := ok_bind.mp h
  obtain ⟨hown, hl⟩ := parts_of_fields (Checked.as_eq_ok.mp h)
  simp only [elementRefAt, Checked.as_eq_ok, Checked.seq_eq_valid, Checked.map_eq_valid] at helement
  obtain ⟨_, name, ⟨_, type, ⟨elementId, hid, rfl⟩, -, rfl⟩, -, rfl⟩ := helement
  exact ⟨hown, _, hl, Value.text_eq_valid.mp hid⟩

/-- The search for a data object describes a record whose element has the identifier; it finds one unless
there is none. -/
theorem dataObjectRef_cases {found : Option ReferenceLink}
    (h : links.dataObjectRef g (.str id) = .ok found) :
    (∃ link ∈ links.dataObjects, link.elementId g = .str id ∧
        ∃ l, link.toReference g = .ok l ∧ found = some l) ∨
      found = none ∧ ∀ link ∈ links.dataObjects, link.elementId g ≠ .str id := by
  rw [Links.dataObjectRef, if_neg (by simp [Value.isNull]), findM?_elementId, bind_of_ok] at h
  cases hfind : links.dataObjects.find? fun link => (link.elementId g).isText id with
  | none =>
    rw [hfind] at h
    obtain rfl := ok_pure.mp h
    refine .inr ⟨rfl, fun link hlink hid => ?_⟩
    exact List.find?_eq_none.mp hfind link hlink (Value.isText_iff.mpr hid)
  | some link =>
    rw [hfind] at h
    obtain ⟨l, hl, h⟩ := ok_bind.mp h
    obtain rfl := ok_pure.mp h
    have hid : (link.elementId g).isText id = true := by
      simpa using List.find?_some hfind
    exact .inl ⟨link, List.mem_of_find?_eq_some hfind, Value.isText_iff.mp hid, l, hl, rfl⟩

/-- The far end of an association carries what the search for its data object gives. -/
theorem dataObject_of_farEnd {far : Option Link} {side : AssociationEnd}
    (h : links.farEnd g far = .ok (some side)) (hid : side.id = some id) :
    links.dataObjectRef g (.str id) = .ok side.dataObject := by
  cases far with
  | none => cases h
  | some link =>
    simp only [Links.farEnd, Link.toEnd, ok_bind, ok_pure, Checked.as_eq_ok, Checked.seq_eq_valid,
      Checked.map_eq_valid] at h
    obtain ⟨found, hfound, end', ⟨element, -, _, _, ⟨l, hl, rfl⟩, hvalid, rfl⟩, hside⟩ := h
    cases hvalid
    obtain rfl := Option.some.inj hside
    obtain ⟨hplain, -⟩ := parts_of_fields hl
    have hlid : l.id = some id := hid
    rw [hlid] at hplain
    have hlink : link.id = .str id := Value.eq_of_plain hplain
    rw [← hlink]
    exact hfound

/-- The side of an association that a data object is bound to. -/
def farSide (d : Direction) (a : Association) : Option AssociationEnd :=
  match d with
  | .input => a.source
  | .output => a.target

theorem farEnd_of_association {d : Direction} {parameter : Value} {a : Association}
    (h : links.association g d parameter = .ok a) :
    ∃ far, links.farEnd g far = .ok (farSide d a) := by
  obtain ⟨-, far, -, farEnd, -, -, -, hfarEnd, rfl⟩ := ends_of_association h
  refine ⟨far, ?_⟩
  cases d with
  | input => exact hfarEnd
  | output => exact hfarEnd

theorem association_of_parameter {d : Direction} {v : Value} {p : DataParameter}
    (h : links.parameter g d v = .ok p) :
    ∃ place, links.association g d (g.field place "id") = .ok p.association := by
  obtain ⟨place, -, h⟩ := ok_bind.mp h
  obtain ⟨own, -, h⟩ := ok_bind.mp h
  obtain ⟨a, ha, h⟩ := ok_bind.mp h
  obtain ⟨_, _, h₁, -, rfl⟩ := Checked.seq_eq_valid.mp (Checked.as_eq_ok.mp h)
  obtain ⟨_, a', h₂, ha', rfl⟩ := Checked.seq_eq_valid.mp h₁
  cases ha'
  obtain ⟨_, _, h₃, -, rfl⟩ := Checked.seq_eq_valid.mp h₂
  obtain ⟨_, _, h₄, -, rfl⟩ := Checked.seq_eq_valid.mp h₃
  obtain ⟨_, -, rfl⟩ := Checked.map_eq_valid.mp h₄
  exact ⟨place, ha⟩

/-- The sides of the parameters of a direction that data objects are bound to. -/
def dataSides (d : Direction) (parameters : Option (List DataParameter)) : List AssociationEnd :=
  (parameters.getD []).filterMap fun p => farSide d p.association

theorem farEnd_of_parameters {d : Direction} {v : Value} {parameters : Option (List DataParameter)}
    (h : links.parameters g d v = .ok parameters) :
    ∀ side ∈ dataSides d parameters, ∃ far, links.farEnd g far = .ok (some side) := by
  intro side hside
  obtain ⟨p, hp, hpside⟩ := List.mem_filterMap.mp hside
  rw [Links.parameters] at h
  cases hv : v.nonNull? with
  | none =>
    rw [hv] at h
    obtain rfl := ok_pure.mp h
    cases hp
  | some w =>
    rw [hv] at h
    simp only [ok_bind, ok_pure] at h
    obtain ⟨items, -, ps, hps, rfl⟩ := h
    obtain ⟨item, -, hitem⟩ := exists_of_ok_mapM hps p hp
    obtain ⟨place, hplace⟩ := association_of_parameter hitem
    obtain ⟨far, hfar⟩ := farEnd_of_association hplace
    exact ⟨far, hpside ▸ hfar⟩

end Graph

namespace Bundle

variable {g : Graph} {links : Links}

/-- The I/O specification of an element is read from its field. -/
theorem ioSpecification_of_ofElement {extra : List (String × Json)} {place : Nat} {b : Behaviour}
    (h : ofElement g links extra place = .ok b) :
    definition g links (g.field place "ioSpecification") = .ok b.ioSpecification := by
  obtain ⟨own, -, h⟩ := ok_bind.mp h
  obtain ⟨checked, hchecked, h⟩ := ok_bind.mp h
  rw [Checked.as_eq_ok.mp h] at hchecked
  obtain ⟨-, -, hio, -⟩ := parts_of_checkElement hchecked
  exact hio

/-- An I/O specification holds the parameters that have been read for it. -/
theorem parameters_of_definition {v : Value} {io : BehaviourDefinition}
    (h : definition g links v = .ok (some io)) (htype : io.type = some "bpmn:InputOutputSpecification") :
    ∃ place, links.ioParameters g place =
      .ok (io.behaviour.attachments.dataInputs, io.behaviour.attachments.dataOutputs) := by
  rw [definition] at h
  cases hv : g.orAbsent v with
  | none =>
    rw [hv] at h
    cases h
  | some w =>
    rw [hv] at h
    simp only [ok_bind, ok_pure, Checked.as_eq_ok] at h
    obtain ⟨place, -, behaviour, hbehaviour, type, htext, hio⟩ := h
    obtain rfl := Option.some.inj hio
    obtain rfl : type = some "bpmn:InputOutputSpecification" := htype
    have hkind : g.field place "$type" = .str "bpmn:InputOutputSpecification" :=
      Value.eq_of_plain (Value.text_eq_valid.mp htext)
    rw [ofDefinition, if_pos (Value.isText_iff.mpr hkind)] at hbehaviour
    obtain ⟨⟨inputs, outputs⟩, hparameters, hmk⟩ := ok_bind.mp hbehaviour
    obtain rfl := ok_pure.mp hmk
    exact ⟨place, hparameters⟩

end Bundle

/-- The sides of the associations of an I/O specification that data objects are bound to: the sources of
its inputs and the targets of its outputs. -/
def BehaviourDefinition.dataSides (io : BehaviourDefinition) : List AssociationEnd :=
  Graph.dataSides .input io.behaviour.attachments.dataInputs ++
    Graph.dataSides .output io.behaviour.attachments.dataOutputs

namespace Survey

variable {s : Survey} {parent : ScopeRef} {place : Nat}

/-- The sides in the I/O specification of an element are far ends of associations of the document. -/
theorem farEnd_of_ofElement {extra : List (String × Json)} {b : Behaviour} {io : BehaviourDefinition}
    (h : Bundle.ofElement s.graph s.links extra place = .ok b) (hio : b.ioSpecification = some io)
    (htype : io.type = some "bpmn:InputOutputSpecification") :
    ∀ side ∈ io.dataSides, ∃ far, s.links.farEnd s.graph far = .ok (some side) := by
  have hdefinition := Bundle.ioSpecification_of_ofElement h
  rw [hio] at hdefinition
  obtain ⟨specification, hparameters⟩ := Bundle.parameters_of_definition hdefinition htype
  obtain ⟨inputs, hinputs, hparameters⟩ := ok_bind.mp hparameters
  obtain ⟨outputs, houtputs, hparameters⟩ := ok_bind.mp hparameters
  obtain ⟨rfl, rfl⟩ := Prod.mk.inj (ok_pure.mp hparameters)
  intro side hside
  rcases List.mem_append.mp hside with hside | hside
  · exact Graph.farEnd_of_parameters hinputs side hside
  · exact Graph.farEnd_of_parameters houtputs side hside

theorem id_of_dataObjectReference {link : Link} {r : DataObjectReference}
    (h : s.dataObjectReference link = .ok r) : (link.elementId s.graph).plain = .ofText r.id := by
  obtain ⟨own, -, h⟩ := ok_bind.mp h
  obtain ⟨_, _, h₁, -, rfl⟩ := Checked.seq_eq_valid.mp (Checked.as_eq_ok.mp h)
  obtain ⟨_, hid, rfl⟩ := Checked.map_eq_valid.mp h₁
  exact Value.text_eq_valid.mp hid

theorem id_of_entity {behaviour : Behaviour} {e : Entity}
    (h : s.entity parent place behaviour = .valid e) :
    (s.graph.field place "id").plain = .ofText e.id := by
  obtain ⟨_, name, h₁, -, rfl⟩ := Checked.seq_eq_valid.mp h
  obtain ⟨_, type, h₂, -, rfl⟩ := Checked.seq_eq_valid.mp h₁
  obtain ⟨own, hown, rfl⟩ := Checked.map_eq_valid.mp h₂
  exact Value.text_eq_valid.mp hown

/-- A data object is referred to by the records that name it. -/
theorem references_of_dataObject {d : DataObject} (h : s.dataObject parent place = .ok d) :
    (∀ r ∈ d.references, ∃ link ∈ s.links.dataObjects, s.dataObjectReference link = .ok r) ∧
      ∀ link ∈ s.links.dataObjects, link.id.plain = .ofText d.id →
        ∃ r ∈ d.references, s.dataObjectReference link = .ok r := by
  obtain ⟨references, hreferences, h⟩ := ok_bind.mp h
  obtain ⟨b, -, h⟩ := ok_bind.mp h
  obtain ⟨e, he, rfl⟩ := Checked.map_eq_valid.mp (Checked.as_eq_ok.mp h)
  constructor
  · intro r hr
    obtain ⟨link, hlink, hstep⟩ := exists_of_ok_filterMapM hreferences r hr
    obtain ⟨same, -, hstep⟩ := ok_bind.mp hstep
    cases same with
    | false => cases ok_pure.mp hstep
    | true =>
      obtain ⟨r', hr', hsome⟩ := ok_map.mp hstep
      obtain rfl := Option.some.inj hsome
      exact ⟨link, hlink, hr'⟩
  · intro link hlink hid
    have hsame : s.graph.same link.id (s.graph.field place "id") = .ok true :=
      Graph.same_of_plain hid (id_of_entity he)
    obtain ⟨o, hstep, hmem⟩ := each_of_ok_filterMapM hreferences link hlink
    rw [hsame, bind_of_ok, if_pos rfl, ok_map] at hstep
    obtain ⟨r, hr, rfl⟩ := hstep
    exact ⟨r, hmem r rfl, hr⟩

/-- Activities and processes have the bundles of their elements. -/
theorem Makes.bundled {f : Flattened} (h : s.Makes f) :
    ∀ e ∈ f.activities.map (·.toEntity) ++ f.processes.map (·.toEntity), ∃ extra place,
      Bundle.ofElement s.graph s.links extra place = .ok e.behaviour := by
  have ofActivity {a : Activity} {extra : List (String × Json)} {parent : ScopeRef} {place : Nat}
      (ha : s.activity parent extra place = .ok a) :
      Bundle.ofElement s.graph s.links extra place = .ok a.behaviour := by
    obtain ⟨b, hb, he, -⟩ := entity_of_activity ha
    rw [(parts_of_entity he).2]
    exact hb
  intro e he
  rcases List.mem_append.mp he with he | he
  · obtain ⟨a, ha, rfl⟩ := List.mem_map.mp he
    obtain ⟨parent, place, hactivity | hevent⟩ := h.activities a ha
    · exact ⟨_, place, ofActivity hactivity⟩
    · obtain ⟨_, -, hactivity⟩ := activity_of_boundaryEvent hevent
      exact ⟨_, place, ofActivity hactivity⟩
  · obtain ⟨p, hp, rfl⟩ := List.mem_map.mp he
    obtain ⟨parent, place, -, hprocess⟩ := h.processes p hp
    obtain ⟨b, hb, he⟩ := entity_of_process hprocess
    rw [(parts_of_entity he).2]
    exact ⟨_, place, hb⟩

end Survey

namespace MappedContext

/-- What a side of an association says of its data object is what the data objects say: a data object that
is found there is described by the element with the identifier of the side, which is among the references of
each data object with its identifier, and one is found when any data object is referred to so. -/
structure Agrees (m : MappedContext) (side : AssociationEnd) (id : String) : Prop where
  described : ∀ link, side.dataObject = some link →
    ∃ element, link.element = some element ∧ element.id = some id
  listed : ∀ link, side.dataObject = some link → ∀ d ∈ m.dataObjects, d.id = link.id →
    ∃ r ∈ d.references, r.id = some id
  found : ∀ d ∈ m.dataObjects, ∀ r ∈ d.references, r.id = some id → side.dataObject.isSome

variable {g : Graph} {document : Value} {extension : Option Extension} {m : MappedContext} {diary : Diary}

/-- A far end of the document agrees with its data objects. -/
theorem agrees_of_farEnd {s : Survey} {f : Flattened} {definition : Definition} (hmakes : s.Makes f)
    {far : Option Link} {side : AssociationEnd} {id : String}
    (hfar : s.links.farEnd s.graph far = .ok (some side)) (hid : side.id = some id) :
    (ofFlattened definition f).Agrees side id := by
  have hsearch := Graph.dataObject_of_farEnd hfar hid
  -- Whatever is found is a record on the element with the identifier.
  have hlink (l : ReferenceLink) (hl : side.dataObject = some l) :
      ∃ link ∈ s.links.dataObjects, link.elementId s.graph = .str id ∧ link.toReference s.graph = .ok l := by
    rcases Graph.dataObjectRef_cases hsearch with ⟨link, hmem, helement, l', hl', hfound⟩ | ⟨hnone, -⟩
    · obtain rfl := Option.some.inj (hl.symm.trans hfound)
      exact ⟨link, hmem, helement, hl'⟩
    · rw [hl] at hnone
      cases hnone
  constructor
  · intro l hl
    obtain ⟨link, -, helement, hreference⟩ := hlink l hl
    obtain ⟨-, element, hsome, hplain⟩ := Graph.parts_of_toReference hreference
    rw [helement] at hplain
    exact ⟨element, hsome, Json.ofText_inj hplain.symm⟩
  · intro l hl d hd hdid
    obtain ⟨link, hmem, helement, hreference⟩ := hlink l hl
    obtain ⟨hplain, -⟩ := Graph.parts_of_toReference hreference
    obtain ⟨parent, place, -, hmade⟩ := hmakes.dataObjects d hd
    obtain ⟨r, hr, hrmade⟩ := (Survey.references_of_dataObject hmade).2 link hmem (hdid ▸ hplain)
    have hrid := Survey.id_of_dataObjectReference hrmade
    rw [helement] at hrid
    exact ⟨r, hr, Json.ofText_inj hrid.symm⟩
  · intro d hd r hr hrid
    obtain ⟨parent, place, -, hmade⟩ := hmakes.dataObjects d hd
    obtain ⟨link, hmem, hrmade⟩ := (Survey.references_of_dataObject hmade).1 r hr
    have helement := Survey.id_of_dataObjectReference hrmade
    rw [hrid] at helement
    rcases Graph.dataObjectRef_cases hsearch with ⟨-, -, -, l, -, hfound⟩ | ⟨-, hnot⟩
    · rw [hfound]
      rfl
    · exact absurd (Value.eq_of_plain helement) (hnot link hmem)

/-- The associations of an I/O specification tell the same of the data objects as these do. -/
theorem dataObjects_of_ofDocument (h : (ofDocument g document extension).result = .ok (m, diary)) :
    ∀ e ∈ m.activities.map (·.toEntity) ++ m.processes.map (·.toEntity), ∀ io,
      e.behaviour.ioSpecification = some io → io.type = some "bpmn:InputOutputSpecification" →
      ∀ side ∈ io.dataSides, ∀ id, side.id = some id → m.Agrees side id := by
  obtain ⟨root, definition, links, items, f, -, -, hyields, rfl⟩ := yields_of_ofDocument h
  intro e he io hio htype side hside id hid
  obtain ⟨extra, place, hbundle⟩ := hyields.makes.bundled e he
  obtain ⟨far, hfar⟩ := Survey.farEnd_of_ofElement hbundle hio htype side hside
  exact agrees_of_farEnd hyields.makes hfar hid

/-- A task whose data input is fed from a data object through a reference. -/
def feeding : Graph where
  contents := #[
    .object [("$type", .str "bpmn:DataInput"), ("id", .str "in")],
    .list [.node 0],
    .object [("$type", .str "bpmn:InputOutputSpecification"), ("dataInputs", .list 1)],
    .object [("$type", .str "bpmn:Task"), ("id", .str "t"), ("ioSpecification", .node 2)],
    .object [("$type", .str Kind.dataObject), ("id", .str "o")],
    .object [("$type", .str "bpmn:DataObjectReference"), ("id", .str "r")],
    .list [.node 3, .node 4, .node 5],
    .object [("$type", .str Kind.process), ("id", .str "p"), ("flowElements", .list 6)],
    .list [.node 7],
    .object [("$type", .str "bpmn:Definitions"), ("id", .str "d"), ("rootElements", .list 8)],
    .object [("$type", .str "bpmn:DataInputAssociation"), ("id", .str "a")],
    .object [("property", .str Role.target), ("id", .str "in"), ("element", .node 10)],
    .object [("property", .str Role.source), ("id", .str "r"), ("element", .node 10)],
    .object [("property", .str Role.dataObject), ("id", .str "o"), ("element", .node 5)],
    .list [.node 11, .node 12, .node 13],
    .object [("rootElement", .node 9), ("references", .list 14)]]

theorem dataObjects_feeding :
    ∃ m diary, (ofDocument feeding (.node 15) none).result = .ok (m, diary) ∧
      ∃ e ∈ m.activities.map (·.toEntity) ++ m.processes.map (·.toEntity), ∃ io,
        e.behaviour.ioSpecification = some io ∧ io.type = some "bpmn:InputOutputSpecification" ∧
        ∃ side ∈ io.dataSides, side.id = some "r" ∧ side.dataObject.isSome ∧ m.Agrees side "r" := by
  have hsides : (ofDocument feeding (.node 15) none).result.toOption.map (fun made =>
      made.1.activities.any fun a => a.behaviour.ioSpecification.any fun io =>
        io.type == some "bpmn:InputOutputSpecification" &&
          io.dataSides.any fun side => side.id == some "r" && side.dataObject.isSome) = some true := by
    decide +kernel
  cases hrun : (ofDocument feeding (.node 15) none).result with
  | error fault =>
    rw [hrun] at hsides
    cases hsides
  | ok made =>
    rw [hrun] at hsides
    obtain ⟨a, ha, hany⟩ := List.any_eq_true.mp (Option.some.inj hsides)
    obtain ⟨io, hio, hany⟩ := (Option.any_eq_true _ _).mp hany
    obtain ⟨htype, hany⟩ := Bool.and_eq_true_iff.mp hany
    obtain ⟨side, hside, hboth⟩ := List.any_eq_true.mp hany
    obtain ⟨hid, hfound⟩ := Bool.and_eq_true_iff.mp hboth
    have htype : io.type = some "bpmn:InputOutputSpecification" := beq_iff_eq.mp htype
    have hid : side.id = some "r" := beq_iff_eq.mp hid
    have he : a.toEntity ∈ made.1.activities.map (·.toEntity) ++ made.1.processes.map (·.toEntity) :=
      List.mem_append_left _ (List.mem_map_of_mem ha)
    exact ⟨made.1, made.2, rfl, a.toEntity, he, io, hio, htype, side, hside, hid, hfound,
      dataObjects_of_ofDocument hrun a.toEntity he io hio htype side hside "r" hid⟩

end MappedContext

end Bpmn
