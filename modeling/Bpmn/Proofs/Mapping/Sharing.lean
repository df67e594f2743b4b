import Bpmn.Command.Flatten
import Bpmn.Proofs.Command.Folders
import Bpmn.Proofs.Mapping.Mirrors
import Bpmn.Proofs.Mapping.Tables

namespace Bpmn

namespace Survey

/-- Surveys of two graphs that find the same and let no extension see their elements. -/
structure Mirrors (s s' : Survey) : Prop where
  links : Links.Mirrors s.graph s'.graph s.links s'.links
  roots : s.graph.Mirrors s'.graph s.roots s'.roots
  quiet : s.extension = none
  quiet' : s'.extension = none

variable {s s' : Survey} {parent : ScopeRef} {place place' : Nat} {id id' v v' : Value}

theorem visit_of_quiet (h : s.extension = none) (place : Nat) : s.visit place = pure [] := by
  rw [visit, h]

section Parts

variable (hplace : s.graph.Mirrors s'.graph (.node place) (.node place'))

include hplace

theorem owner_eq : s.owner place = s'.owner place' := by
  rw [owner, owner, hplace.idText_eq, hplace.typeText_eq]

theorem entity_eq (b : Behaviour) : s.entity parent place b = s'.entity parent place' b := by
  rw [entity, entity, hplace.idText_eq, hplace.typeText_eq, hplace.nameText_eq]

end Parts

theorem written_eq {parts parts' : Fields Value} (h : Fields.Match (s.graph.Mirrors s'.graph) parts parts') :
    (List.filter (fun p => !p.2.isNull) parts).map (fun p => (p.1, s.graph.unfold p.2)) =
      (List.filter (fun p => !p.2.isNull) parts').map fun p => (p.1, s'.graph.unfold p.2) := by
  induction h with
  | nil => rfl
  | cons hp _ ih =>
    rw [List.filter_cons, List.filter_cons, hp.2.isNull_eq]
    split
    · rw [List.map_cons, List.map_cons, ih, hp.1, hp.2.unfold_eq]
    · exact ih

theorem script_eq {parts parts' : Fields Value} {name name' : Value} (owner : ScopeRef)
    (hname : s.graph.Mirrors s'.graph name name')
    (hparts : Fields.Match (s.graph.Mirrors s'.graph) parts parts') :
    s.script owner name parts = s'.script owner name' parts' := by
  have hother : s.script owner name parts = s.script owner name' parts :=
    hname.shape_eq (f := fun name => s.script owner name parts) (fun _ _ => rfl) fun _ _ => rfl
  rw [hother]
  exact congrArg (fun written => Checked.as Model.script (_ <*> Checked.valid written)) (written_eq hparts)

theorem ownScript_eq {parts parts' : Fields Value}
    (hplace : s.graph.Mirrors s'.graph (.node place) (.node place'))
    (hparts : Fields.Match (s.graph.Mirrors s'.graph) parts parts') :
    s.ownScript place parts = s'.ownScript place' parts' := by
  simp only [ownScript, owner_eq hplace, script_eq _ (hplace.field "id") hparts]

theorem taskScript_eq (hplace : s.graph.Mirrors s'.graph (.node place) (.node place')) :
    s.taskScript place = s'.taskScript place' :=
  ownScript_eq hplace (.cons ⟨rfl, hplace.field _⟩ (.cons ⟨rfl, hplace.field _⟩
    (.cons ⟨rfl, hplace.field _⟩ (.cons ⟨rfl, hplace.field _⟩ .nil))))

theorem carries_condition (hplace : s.graph.Mirrors s'.graph (.node place) (.node place')) :
    Carries (Option.Rel fun p q => s.graph.Mirrors s'.graph (.node p) (.node q)) (s.condition place)
      (s'.condition place') := by
  have hcondition := hplace.field "conditionExpression"
  rw [condition, condition]
  generalize s.graph.field place "conditionExpression" = v,
    s'.graph.field place' "conditionExpression" = v' at hcondition
  rcases hcondition.cases with ⟨hplain, rfl⟩ | ⟨p, q, rfl, rfl, -⟩ | ⟨p, q, rfl, rfl, -⟩
  · cases v <;> first | exact .ok .none | cases hplain
  · exact .ok .none
  · refine .bind_eq (.of_eq ((hcondition.field "$type").isOneOf_eq _)) ?_
    intro formal _
    rw [(hcondition.field "language").truthy_eq]
    split
    · exact .ok (.some hcondition)
    · exact .ok .none

theorem carries_flowScripts (hplace : s.graph.Mirrors s'.graph (.node place) (.node place')) :
    Carries Eq (s.flowScripts place) (s'.flowScripts place') := by
  refine .bind (carries_condition hplace) ?_
  intro condition condition' _ _ hcondition
  cases hcondition with
  | none => exact .ok rfl
  | @some p q hcondition =>
    have hparts : Fields.Match (s.graph.Mirrors s'.graph)
        [("type", s.graph.field p "$type"), ("scriptFormat", s.graph.field p "language"),
          ("body", s.graph.field p "body"), ("resource", s.graph.field p "resource")]
        [("type", s'.graph.field q "$type"), ("scriptFormat", s'.graph.field q "language"),
          ("body", s'.graph.field q "body"), ("resource", s'.graph.field q "resource")] :=
      .cons ⟨rfl, hcondition.field _⟩ (.cons ⟨rfl, hcondition.field _⟩
        (.cons ⟨rfl, hcondition.field _⟩ (.cons ⟨rfl, hcondition.field _⟩ .nil)))
    dsimp only
    rw [ownScript_eq hplace hparts]
    exact .of_eq rfl

namespace Mirrors

theorem process (h : Mirrors s s') (hplace : s.graph.Mirrors s'.graph (.node place) (.node place')) :
    Carries Eq (s.process parent place) (s'.process parent place') := by
  refine .bind_eq (Bundle.carries_ofElement_eq h.links hplace []) ?_
  intro b _
  exact .of_eq (by rw [entity_eq hplace])

theorem activity (h : Mirrors s s') (hplace : s.graph.Mirrors s'.graph (.node place) (.node place'))
    (extra : List (String × Json)) :
    Carries Eq (s.activity parent extra place) (s'.activity parent extra place') := by
  refine .bind_eq (Bundle.carries_ofElement_eq h.links hplace extra) ?_
  intro b _
  exact .of_eq (by rw [entity_eq hplace])

theorem boundaryEvent (h : Mirrors s s') (hplace : s.graph.Mirrors s'.graph (.node place) (.node place')) :
    Carries Eq (s.boundaryEvent parent place) (s'.boundaryEvent parent place') := by
  refine .bind_eq (.of_eq (hplace.field "attachedToRef").spread_eq) ?_
  intro attachedTo _
  exact h.activity hplace _

theorem sequenceFlow {edge edge' : FlowEdge} (hedge : FlowEdge.Mirrors s.graph s'.graph edge edge')
    (hplace : s.graph.Mirrors s'.graph (.node place) (.node place')) :
    Carries Eq (s.sequenceFlow parent edge place) (s'.sequenceFlow parent edge' place') := by
  have hmark : edge.mark = edge'.mark := by rw [FlowEdge.mark, FlowEdge.mark, hedge.isDefault]
  refine .bind_eq (.of_eq (Bundle.ofFlow_eq hplace)) ?_
  intro b _
  rw [entity_eq hplace, hmark, hedge.source.text_eq, hedge.target.text_eq]
  exact .of_eq rfl

section Searching

variable (hid : s.graph.Mirrors s'.graph id id') (hname : id.isName = true)

include hid hname

theorem anyOf {children children' : List Value}
    (hchildren : List.Forall₂ (s.graph.Mirrors s'.graph) children children') :
    Carries Eq (declares.anyOf s id children) (declares.anyOf s' id' children') := by
  induction hchildren with
  | nil => exact .ok rfl
  | cons hchild _ ih =>
    rw [declares.anyOf, declares.anyOf]
    refine .bind (hchild.get "id") ?_
    intro childId childId' _ _ hchildId
    refine .bind_eq (.of_eq (hchildId.same_eq hid hname)) ?_
    intro found _
    split
    · exact .ok rfl
    · exact ih

theorem declares (hplace : s.graph.Mirrors s'.graph (.node place) (.node place')) :
    Carries Eq (s.declares place id) (s'.declares place' id') := by
  refine .bind (hplace.field "flowElements").itemsOrNone ?_
  intro children children' _ _ hchildren
  exact anyOf hid hname hchildren

theorem declaringProcess {items items' : List Value}
    (hitems : List.Forall₂ (s.graph.Mirrors s'.graph) items items') :
    Carries (s.graph.Mirrors s'.graph) (s.declaringProcess id items)
      (s'.declaringProcess id' items') := by
  induction hitems with
  | nil => exact .ok .null
  | cons hroot _ ih =>
    rw [Survey.declaringProcess, Survey.declaringProcess]
    refine .bind hroot.typeOf ?_
    intro type type' _ _ htype
    rw [htype.isText_eq]
    split
    · refine .bind hroot.placeOf ?_
      intro place place' _ _ hplace
      refine .bind_eq (declares hid hname hplace) ?_
      intro found _
      split
      · exact .ok (hplace.field "id")
      · exact ih
    · exact ih

end Searching

/-- The identifier at the end of a flow is checked, so it is compared only when it is a text. -/
theorem endpoint (h : Mirrors s s') (hid : s.graph.Mirrors s'.graph id id') :
    Carries Eq (s.endpoint id) (s'.endpoint id') := by
  intro e he
  obtain ⟨process, hprocess, he⟩ := ok_bind.mp he
  have hname : id.isName = true := by
    obtain ⟨_, text, -, htext, -⟩ := Checked.seq_eq_valid.mp (Checked.as_eq_ok.mp he)
    exact (Value.isName_iff_text "id").mpr ⟨text, htext⟩
  have hsearch : Carries (s.graph.Mirrors s'.graph) (s.processIdOf id) (s'.processIdOf id') := by
    rw [processIdOf, processIdOf, hid.isNull_eq]
    split
    · exact .ok .null
    · exact .bind h.roots.itemsOrNone fun _ _ _ _ hitems => declaringProcess hid hname hitems
  obtain ⟨process', hprocess', hmirrors⟩ := hsearch process hprocess
  refine ⟨e, ok_bind.mpr ⟨process', hprocess', ?_⟩, rfl⟩
  rw [← hmirrors.text_eq, ← hid.text_eq]
  exact he

theorem messageFlow (h : Mirrors s s') (hplace : s.graph.Mirrors s'.graph (.node place) (.node place')) :
    Carries Eq (s.messageFlow parent place) (s'.messageFlow parent place') := by
  refine .bind (h.links.edge (hplace.field "id")) ?_
  intro edge edge' _ _ hedge
  refine .bind_eq (h.endpoint hedge.source) ?_
  intro source _
  refine .bind_eq (h.endpoint hedge.target) ?_
  intro target _
  refine .bind_eq (Bundle.carries_raw hplace) ?_
  intro b _
  exact .of_eq (by rw [entity_eq hplace])

theorem dataObjectReference_eq {link link' : Link} (hlink : Link.Mirrors s.graph s'.graph link link') :
    s.dataObjectReference link = s'.dataObjectReference link' := by
  rw [dataObjectReference, dataObjectReference, hlink.element.ownFieldsAt_eq, hlink.element.idText_eq,
    hlink.element.typeText_eq]

theorem dataObject (h : Mirrors s s') (hplace : s.graph.Mirrors s'.graph (.node place) (.node place')) :
    Carries Eq (s.dataObject parent place) (s'.dataObject parent place') := by
  intro d hd
  obtain ⟨references, hreferences, hd⟩ := ok_bind.mp hd
  obtain ⟨b, hb, hd⟩ := ok_bind.mp hd
  obtain ⟨e, he, rfl⟩ := Checked.map_eq_valid.mp (Checked.as_eq_ok.mp hd)
  -- The identifier that the links are compared with is checked afterwards, so it is a text or missing.
  obtain ⟨-, -, hname, -⟩ := exists_entity he b
  have hbound : Carries (List.Forall₂ Eq)
      (s.links.dataObjects.filterMapM fun link => do
        if ← s.graph.same link.id (s.graph.field place "id") then some <$> s.dataObjectReference link
        else return none)
      (s'.links.dataObjects.filterMapM fun link => do
        if ← s'.graph.same link.id (s'.graph.field place' "id") then
          some <$> s'.dataObjectReference link
        else return none) := by
    refine .filterMapM h.links.dataObjects ?_
    intro link link' _ hlink
    rw [hlink.id.same_eq (hplace.field "id") hname, dataObjectReference_eq hlink]
    exact .same _ fun o => by cases o <;> constructor; rfl
  obtain ⟨references', hreferences', hsame⟩ := hbound references hreferences
  rw [List.forall₂_eq_eq_eq] at hsame
  subst hsame
  refine ⟨⟨e, references⟩, ?_, rfl⟩
  refine ok_bind.mpr ⟨references, hreferences', ok_bind.mpr ⟨b, ?_, ?_⟩⟩
  · exact (Bundle.carries_raw hplace).eq_ok hb
  · rw [← entity_eq hplace]
    exact hd

theorem leaf (h : Mirrors s s') (hplace : s.graph.Mirrors s'.graph (.node place) (.node place'))
    (hv : s.graph.Mirrors s'.graph v v') :
    Carries Eq (s.leaf parent v place) (s'.leaf parent v' place') := by
  rw [Survey.leaf, Survey.leaf]
  simp only [hv.isText_eq]
  split
  · exact .followed (h.messageFlow hplace) _
  split
  · exact .followed (h.dataObject hplace) _
  split
  · refine .bind (h.links.edge (hplace.field "id")) ?_
    intro edge edge' _ _ hedge
    refine .bind_eq (carries_flowScripts hplace) ?_
    intro scripts _
    exact .followed (sequenceFlow hedge hplace) _
  split
  · exact .followed (h.boundaryEvent hplace) _
  · refine .bind_eq (h.activity hplace []) ?_
    intro a _
    rw [taskScript_eq hplace]
    exact .of_eq rfl

theorem container (h : Mirrors s s') (hplace : s.graph.Mirrors s'.graph (.node place) (.node place'))
    (hv : s.graph.Mirrors s'.graph v v') :
    Carries Eq (s.container parent v place) (s'.container parent v' place') := by
  rw [Survey.container, Survey.container, hv.isText_eq, owner_eq hplace]
  split
  · exact .followed (h.process hplace) _
  · exact .followed (h.activity hplace []) _

/-- Walks over the items of values that hold the same tree meet the same if they do at each item. -/
theorem elements {depth depth' bound : Nat} {j : Json} (hv : s.graph.Mirrors s'.graph v v')
    (hj : s'.graph.UnfoldsIn bound v' j)
    (hitem : ∀ w w' t, s.graph.Mirrors s'.graph w w' → s'.graph.UnfoldsIn bound w' t →
      Walk.Carries Eq (s.element depth parent w) (s'.element depth' parent w')) :
    Walk.Carries Eq
      (do
        let items ← (s.graph.itemsOrNone v : Except Fault (List Value))
        return Flattened.join (← items.mapM (s.element depth parent)) : Walk Flattened)
      (do
        let items ← (s'.graph.itemsOrNone v' : Except Fault (List Value))
        return Flattened.join (← items.mapM (s'.element depth' parent))) := by
  have hitems : Carries
      (List.Forall₂ fun w w' => s.graph.Mirrors s'.graph w w' ∧ ∃ t, s'.graph.UnfoldsIn bound w' t)
      (s.graph.itemsOrNone v) (s'.graph.itemsOrNone v') := by
    refine hv.itemsOrNone.mono ?_
    intro items items' _ hitems' hmirrors
    exact forall₂_of_mem hmirrors fun _ w' hw' hw => ⟨hw, hj.itemsOrNone hitems' w' hw'⟩
  refine .bind (.lift hitems) ?_
  intro items items' hitems
  refine .bind_eq (.mapM_eq hitems ?_) fun _ => .same _
  intro w w' hw
  obtain ⟨hw, t, ht⟩ := hw
  exact hitem w w' t hw ht

/-- Walks over elements that hold the same trees meet the same.  The induction is on the depth that the
second walk may take, for which that of the tree is enough. -/
theorem element (h : Mirrors s s') {depth depth' bound : Nat} {j : Json}
    (hv : s.graph.Mirrors s'.graph v v') (hj : s'.graph.UnfoldsIn bound v' j) (hbound : bound < depth') :
    Walk.Carries Eq (s.element depth parent v) (s'.element depth' parent v') := by
  induction depth' generalizing depth bound parent v v' j with
  | zero => omega
  | succ depth' ih =>
    cases depth with
    | zero => exact .error
    | succ depth =>
      have hplaced : Carries (fun p q => s.graph.Mirrors s'.graph (.node p) (.node q) ∧ v' = .node q)
          (Graph.placeOf v) (Graph.placeOf v') :=
        hv.placeOf.mono fun p q _ hq hmirrors => ⟨hmirrors, Graph.placeOf_ok.mp hq⟩
      rw [Survey.element, Survey.element]
      refine .bind (.lift hplaced) ?_
      rintro place place' ⟨hplace, rfl⟩
      have htype := hplace.field "$type"
      obtain ⟨bound, fields, rfl, -⟩ := Graph.unfoldsIn_node.mp hj
      have hbelow (scope : ScopeRef) (key : String) :
          Walk.Carries Eq
            (do
              let items ← (s.graph.itemsOrNone (s.graph.field place key) : Except Fault (List Value))
              return Flattened.join (← items.mapM (s.element depth scope)) : Walk Flattened)
            (do
              let items ← (s'.graph.itemsOrNone (s'.graph.field place' key) : Except Fault (List Value))
              return Flattened.join (← items.mapM (s'.element depth' scope))) := by
        obtain ⟨t, ht⟩ := hj.field key
        exact elements (hplace.field key) ht fun w w' _ hw hw' => ih hw hw' (by omega)
      dsimp only
      rw [htype.isOneOf_eq]
      simp only [htype.isText_eq, visit_of_quiet h.quiet, visit_of_quiet h.quiet']
      refine .bind_eq (.same _) ?_
      intro skip
      split
      · exact .same _
      split
      · exact .bind_eq (hbelow parent "messageFlows") fun _ => .same _
      split
      · refine .bind_eq (.lift (h.container hplace htype)) ?_
        rintro ⟨own, scope⟩
        refine .bind_eq (.same _) ?_
        intro scripts
        exact .bind_eq (hbelow scope "flowElements") fun _ => .same _
      · exact .bind_eq (.lift (h.leaf hplace htype)) fun _ => .same _

theorem flatten (h : Mirrors s s') (parent : ScopeRef) :
    Walk.Carries Eq (s.flatten parent s.roots) (s'.flatten parent s'.roots) := by
  obtain ⟨t, -, ht⟩ := h.roots
  refine elements h.roots ht fun w w' _ hw hw' => h.element hw hw' ?_
  rw [Graph.depthBound]
  omega

end Mirrors

end Survey

namespace MappedContext

variable {g g' : Graph} {document document' : Value} {source source' : Source} {root root' : Nat}

theorem definition_eq (h : g.Mirrors g' (.node root) (.node root')) :
    g.definition root = g'.definition root' := by
  simp only [Graph.definition, h.idText_eq, h.typeText_eq, h.nameText_eq, (h.field _).text_eq]

theorem carries_flattenSource_eq (h : Source.Mirrors g g' source source')
    (hroot : g.Mirrors g' (.node root) (.node root')) (definition : Definition) :
    Walk.Carries Eq (flattenSource g source root definition none)
      (flattenSource g' source' root' definition none) := by
  intro d f d' hf
  simp only [Walk.Gives, StateT.run, run_flattenSource, Traced.result_bind, Traced.result_stage,
    Links.result_build] at hf ⊢
  obtain ⟨links, hlinks, hf⟩ := ok_bind.mp hf
  obtain ⟨links', hlinks', hmirrors⟩ :=
    Links.Mirrors.ofRecords h.elements h.references links hlinks
  have hsurvey : Survey.Mirrors (g.survey links root none) (g'.survey links' root' none) :=
    ⟨hmirrors, .getD (hroot.field _).orAbsent .null, rfl, rfl⟩
  obtain ⟨f', hf', rfl⟩ := hsurvey.flatten _ d f d' hf
  exact ⟨f, ok_bind.mpr ⟨links', hlinks', hf'⟩, rfl⟩

theorem carries_ofDocument_eq (h : g.Mirrors g' document document') :
    Carries Eq (ofDocument g document none).result (ofDocument g' document' none).result := by
  simp only [ofDocument, Traced.result_bind, Traced.result_lift, Traced.result_span]
  refine .bind (Source.Mirrors.ofValue h) ?_
  intro source source' _ _ hsource
  refine .bind hsource.root.placeOf ?_
  intro root root' _ _ hroot
  rw [definition_eq hroot]
  refine .bind_eq (.of_eq rfl) ?_
  intro definition _
  have hflat : Carries Eq ((flattenSource g source root definition none).run ⟨[], []⟩).result
      ((flattenSource g' source' root' definition none).run ⟨[], []⟩).result := by
    rintro ⟨f, d⟩ hf
    obtain ⟨f', hf', rfl⟩ := carries_flattenSource_eq hsource hroot definition _ f d hf
    exact ⟨(f, d), hf', rfl⟩
  exact .followed hflat _

/-- Documents that hold the same tree are mapped to the same context, or both refused. -/
theorem toOption_eq_of_mirrors (h : g.Mirrors g' document document') :
    (ofDocument g document none).result.toOption = (ofDocument g' document' none).result.toOption :=
  Carries.toOption_eq (carries_ofDocument_eq h) (carries_ofDocument_eq h.symm)

end MappedContext

/-- A value without cycles holds the same tree as the document that its unfolding is read as. -/
theorem Graph.Acyclic.mirrors_ofJson {g : Graph} {v : Value} (h : g.Acyclic v) :
    g.Mirrors (ofJson (g.unfold v)).1 v (ofJson (g.unfold v)).2 := by
  obtain ⟨j, hj⟩ := h.unfoldsIn_size .refl
  obtain rfl := hj.unfold (Nat.le_refl _)
  have hadded := takes_add hj.solid (Nat.le_refl _) empty
  refine hj.mirrors hadded.unfolds (Nat.le_refl _) ?_
  exact Nat.le_trans (Nat.le_add_left _ _) hadded.room

namespace Command

theorem Run.run_observed_bind {α β : Type} (run : Traced α) (next : α → Run β) (o : Observatory) :
    (Run.observed run >>= next).run.run o =
      match run.result with
      | .ok a => (next a).run.run (o.absorbAll run.events)
      | .error fault => (.error (.ofFault fault), o.absorbAll run.events) := by
  obtain ⟨events, result⟩ := run
  cases result <;> rfl

theorem Run.fst_observed {α : Type} (run : Traced α) (o o' : Observatory) :
    ((Run.observed run).run.run o).1 = ((Run.observed run).run.run o').1 := by
  obtain ⟨events, result⟩ := run
  cases result <;> rfl

/-- What a context is resolved to does not depend on what has been observed. -/
theorem fst_resolveWith (w : World) (reference : Option String) (m : MappedContext) (o o' : Observatory) :
    ((resolveWith w reference m).run.run o).1 = ((resolveWith w reference m).run.run o').1 := by
  rw [resolveWith]
  split
  · rfl
  · next reference _ =>
    cases loadTypes w reference with
    | error stop => rfl
    | ok types => exact Run.fst_observed _ o o'

/-- Maps a document in memory and resolves its context. -/
def inMemory (g : Graph) (document : Value) (w : World) (types : Option String) : Run MappedContext := do
  let (m, _) ← Run.observed (MappedContext.ofDocument g document none)
  resolveWith w types m

theorem toOption_inMemory_eq {g g' : Graph} {document document' : Value}
    (h : (MappedContext.ofDocument g document none).result.toOption =
      (MappedContext.ofDocument g' document' none).result.toOption)
    (w : World) (types : Option String) (o : Observatory) :
    ((inMemory g document w types).run.run o).1.toOption =
      ((inMemory g' document' w types).run.run o).1.toOption := by
  rw [inMemory, inMemory, Run.run_observed_bind, Run.run_observed_bind]
  cases hresult : (MappedContext.ofDocument g document none).result with
  | ok mapped =>
    cases hresult' : (MappedContext.ofDocument g' document' none).result with
    | ok mapped' =>
      rw [hresult, hresult'] at h
      obtain rfl := Option.some.inj h
      exact congrArg Except.toOption (fst_resolveWith w types mapped.1 _ _)
    | error fault =>
      rw [hresult, hresult'] at h
      cases h
  | error fault =>
    cases hresult' : (MappedContext.ofDocument g' document' none).result with
    | ok mapped' =>
      rw [hresult, hresult'] at h
      cases h
    | error fault' => rfl

end Command

namespace MappedContext

/-- A document without cycles is mapped like the tree it unfolds to, whether that is built in memory or read
from a file.  The own fields of an element in it are copied out of that tree. -/
theorem ofDocument_unfold {g g' : Graph} {document document' : Value} (h : g.Acyclic document)
    (hread : Graph.ofJson (g.unfold document) = (g', document')) :
    g'.unfold document' = g.unfold document ∧
    (ofDocument g' document' none).result.toOption = (ofDocument g document none).result.toOption ∧
    (∀ place, g.Reaches document (.node place) → ∃ fields, g.unfold (.node place) = .obj fields ∧
      g.ownFields (.node place) = .ok (Json.ownFields fields)) ∧
    ∀ (r : Command.FlattenRequest) (w : Command.World) (o : Observatory),
      Json.parse (w.textOf r.file) = .ok (g.unfold document) →
      ((r.context w).run.run o).1.toOption =
        ((Command.inMemory g document w r.types).run.run o).1.toOption := by
  have hmirrors : g.Mirrors g' document document' := by
    have hofJson := h.mirrors_ofJson
    rwa [hread] at hofJson
  have hmapped := toOption_eq_of_mirrors hmirrors
  refine ⟨hmirrors.unfold_eq.symm, hmapped.symm, ?_, ?_⟩
  · intro place hreached
    obtain ⟨j, hj⟩ := h.unfoldsIn_size hreached
    obtain ⟨fields, rfl, hown⟩ := hj.ownFieldsAt (Nat.le_refl _)
    exact ⟨fields, hj.unfold (Nat.le_refl _), by rw [Graph.ownFields_node, hown]⟩
  · intro r w o hparse
    have hcontext : r.context w = Command.inMemory g' document' w r.types := by
      rw [Command.FlattenRequest.context, hparse]
      dsimp only
      rw [hread]
      rfl
    rw [hcontext]
    exact Command.toOption_inMemory_eq hmapped.symm w r.types o

/-- A data object that stands below the root, is found by its identifier and is the element of a record. -/
def shared : Graph where
  contents := #[
    .object [("$type", .str Kind.dataObject), ("id", .str "o")],
    .list [.node 0],
    .object [("$type", .str "bpmn:Definitions"), ("id", .str "d"), ("rootElements", .list 1)],
    .object [("property", .str Role.dataObject), ("id", .str "o"), ("element", .node 0)],
    .list [.node 3],
    .object [("o", .node 0)],
    .object [("rootElement", .node 2), ("elementsById", .node 5), ("references", .list 4)]]

/-- A folder with the document in a file, written out. -/
def dumped : Command.World where
  entries := [("d", .file ((shared.unfold (.node 6)).render none))]
  environment := []
  modules := []
  attributes _ := []
  release := .keeping

def dumpRequest : Command.FlattenRequest := ⟨"d", none, none, none, false, false⟩

theorem acyclic_shared : shared.Acyclic (.node 6) :=
  Graph.acyclic_of_lt (by decide) (by decide) (by decide)

theorem textOf_dumped : dumped.textOf "d" = String.ofList
    (Command.World.unifyBreaks ((shared.unfold (.node 6)).render none).toList) := by
  have hfolder : dumped = Command.folder ((shared.unfold (.node 6)).render none) := rfl
  rw [hfolder, Command.World.textOf, Command.look_folder]

set_option maxRecDepth 20000 in
theorem parse_dumped : Json.parse (dumped.textOf dumpRequest.file) = .ok (shared.unfold (.node 6)) := by
  have htext : dumped.textOf dumpRequest.file = _ := textOf_dumped
  rw [htext, Json.render, Json.renderIn, String.toList_ofList, Json.parse, String.toList_ofList]
  rfl

theorem ofDocument_unfold_shared : ∃ g' document',
    shared.Acyclic (.node 6) ∧ Graph.ofJson (shared.unfold (.node 6)) = (g', document') ∧
      shared.contents.size < g'.contents.size ∧
      (ofDocument shared (.node 6) none).result.toOption.isSome = true ∧
      (ofDocument g' document' none).result.toOption = (ofDocument shared (.node 6) none).result.toOption ∧
      (∃ fields, shared.unfold (.node 0) = .obj fields ∧
        shared.ownFields (.node 0) = .ok (Json.ownFields fields)) ∧
      Json.parse (dumped.textOf dumpRequest.file) = .ok (shared.unfold (.node 6)) ∧
      ((dumpRequest.context dumped).run.run .dark).1.toOption =
        ((Command.inMemory shared (.node 6) dumped none).run.run .dark).1.toOption := by
  have hread : Graph.ofJson (shared.unfold (.node 6)) =
      ((Graph.ofJson (shared.unfold (.node 6))).1, (Graph.ofJson (shared.unfold (.node 6))).2) := rfl
  obtain ⟨-, hmapped, hown, hfile⟩ := ofDocument_unfold acyclic_shared hread
  have htable : shared.Leads (.node 6) (.node 5) := ⟨"elementsById", by decide⟩
  have hfound : shared.Leads (.node 5) (.node 0) := ⟨"o", by decide⟩
  have hreached : shared.Reaches (.node 6) (.node 0) := (Relation.ReflTransGen.single htable).tail hfound
  exact ⟨_, _, acyclic_shared, hread, by decide +kernel, by decide +kernel, hmapped, hown 0 hreached,
    parse_dumped, hfile dumpRequest dumped .dark parse_dumped⟩

end MappedContext

end Bpmn
