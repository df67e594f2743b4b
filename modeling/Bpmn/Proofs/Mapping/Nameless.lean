import Bpmn.Proofs.Mapping.Forgetting
import Bpmn.Proofs.Mapping.References
import Bpmn.Proofs.Mapping.Scripts
import Bpmn.Proofs.Mapping.Sharing

namespace Bpmn

/-- A script has the type of the element that owns it. -/
def Script.type (script : Script) : Json := .ofText script.parent.type

/-- Lists of the same types in the same order. -/
structure Flattened.SameTypes (f f' : Flattened) : Prop where
  processes : f.processes.map (·.type) = f'.processes.map (·.type)
  activities : f.activities.map (·.type) = f'.activities.map (·.type)
  dataObjects : f.dataObjects.map (·.type) = f'.dataObjects.map (·.type)
  sequenceFlows : f.sequenceFlows.map (·.type) = f'.sequenceFlows.map (·.type)
  messageFlows : f.messageFlows.map (·.type) = f'.messageFlows.map (·.type)
  scripts : f.scripts.map (·.type) = f'.scripts.map (·.type)

/-- The types in the entity lists, in the order the lists are counted. -/
def MappedContext.types (m : MappedContext) : List (String × List Json) :=
  [("processes", m.processes.map (·.type)), ("activities", m.activities.map (·.type)),
    ("data_objects", m.dataObjects.map (·.type)), ("message_flows", m.messageFlows.map (·.type)),
    ("sequence_flows", m.sequenceFlows.map (·.type)), ("scripts", m.scripts.map (·.type))]

/-- Lists of the same types have the same lengths. -/
theorem MappedContext.sizes_eq_of_types {m m' : MappedContext} (h : m.types = m'.types) :
    m.sizes = m'.sizes := by
  have hsizes (m : MappedContext) : m.sizes = m.types.map fun (list, types) => (list, types.length) := by
    simp [types, sizes]
  rw [hsizes, hsizes, h]

namespace Flattened.SameTypes

variable {a b c d : Flattened}

theorem refl : SameTypes a a := ⟨rfl, rfl, rfl, rfl, rfl, rfl⟩

theorem append (h : SameTypes a c) (h' : SameTypes b d) : SameTypes (a ++ b) (c ++ d) where
  processes := by simp [h.processes, h'.processes]
  activities := by simp [h.activities, h'.activities]
  dataObjects := by simp [h.dataObjects, h'.dataObjects]
  sequenceFlows := by simp [h.sequenceFlows, h'.sequenceFlows]
  messageFlows := by simp [h.messageFlows, h'.messageFlows]
  scripts := by simp [h.scripts, h'.scripts]

theorem carried (h : SameTypes a b) : SameTypes a.carried b.carried :=
  { h with processes := rfl, messageFlows := rfl }

theorem messages (h : SameTypes a b) : SameTypes a.messages b.messages :=
  { refl with messageFlows := h.messageFlows }

theorem join {parts parts' : List Flattened} (h : List.Forall₂ SameTypes parts parts') :
    SameTypes (.join parts) (.join parts') := by
  induction h with
  | nil => exact .refl
  | cons h _ ih => exact h.append ih

end Flattened.SameTypes

namespace Graph

variable {g g' : Graph} {hidden : Bool} {items : List Value} {stops : List Stop}

theorem Tours.nodes (h : g.Tours hidden items stops) : ∀ v ∈ items, ∃ place, v = .node place := by
  induction h with
  | nil => simp
  | skipped _ _ ih => exact List.forall_mem_cons.mpr ⟨⟨_, rfl⟩, ih⟩
  | collaboration _ _ _ _ _ ih => exact List.forall_mem_cons.mpr ⟨⟨_, rfl⟩, ih⟩
  | scope _ _ _ _ _ ih => exact List.forall_mem_cons.mpr ⟨⟨_, rfl⟩, ih⟩
  | leaf _ _ ih => exact List.forall_mem_cons.mpr ⟨⟨_, rfl⟩, ih⟩

/-- A tour over some items makes a tour over each of them. -/
theorem Tours.of_mem (h : g.Tours hidden items stops) {v : Value} (hv : v ∈ items) :
    ∃ part, g.Tours hidden [v] part ∧ part ⊆ stops := by
  induction h with
  | nil => cases hv
  | skipped kind _ ih =>
    rcases List.mem_cons.mp hv with rfl | hv
    · exact ⟨_, .skipped kind .nil, List.nil_subset _⟩
    · exact ih hv
  | @collaboration _ _ _ _ below _ kind items inside _ _ ih =>
    rcases List.mem_cons.mp hv with rfl | hv
    · exact ⟨_, .collaboration kind items inside .nil, by simp⟩
    · obtain ⟨part, hpart, hsub⟩ := ih hv
      exact ⟨part, hpart, List.subset_append_of_subset_right below hsub⟩
  | @scope _ _ _ _ below _ kind items inside _ _ ih =>
    rcases List.mem_cons.mp hv with rfl | hv
    · exact ⟨_, .scope kind items inside .nil, by simp⟩
    · obtain ⟨part, hpart, hsub⟩ := ih hv
      exact ⟨part, hpart, List.subset_append_of_subset_right (_ :: below) hsub⟩
  | leaf kind _ ih =>
    rcases List.mem_cons.mp hv with rfl | hv
    · exact ⟨_, .leaf kind .nil, by simp⟩
    · obtain ⟨part, hpart, hsub⟩ := ih hv
      exact ⟨part, hpart, List.subset_cons_of_subset _ hsub⟩

theorem Tours.below_collaboration {place : Nat} (h : g.Tours hidden [.node place] stops)
    (kind : g.IsA place Kind.collaboration) :
    ∃ children below, g.itemsOrNone (g.field place "messageFlows") = .ok children ∧
      g.Tours true children below ∧ below ⊆ stops := by
  cases h with
  | skipped kind' => exact absurd kind' (kind.not_skipped (by decide))
  | collaboration _ items inside _ => exact ⟨_, _, items, inside, by simp⟩
  | scope kind' => exact absurd (.inr kind) kind'.not_leftOut
  | leaf kind' => exact absurd (.inr kind) kind'.1

theorem Tours.below_scope {place : Nat} (h : g.Tours hidden [.node place] stops)
    (kind : g.IsScope place) :
    ∃ children below, g.itemsOrNone (g.field place "flowElements") = .ok children ∧
      g.Tours hidden children below ∧ below ⊆ stops := by
  cases h with
  | skipped kind' => exact absurd (.inl kind') kind.not_leftOut
  | collaboration kind' => exact absurd (.inr kind') kind.not_leftOut
  | @scope _ _ _ _ below later _ items inside _ =>
    exact ⟨_, _, items, inside, fun stop hstop => List.mem_cons_of_mem _ (List.mem_append_left later hstop)⟩
  | leaf kind' => exact absurd kind kind'.2

theorem Tours.mem_of_ownsScript {place : Nat} (h : g.Tours hidden [.node place] stops)
    (howns : g.OwnsScript place) : ⟨place, hidden⟩ ∈ stops := by
  obtain ⟨kind, hkind, hisA⟩ : ∃ kind ∈ [Kind.scriptTask, Kind.sequenceFlow], g.IsA place kind := by
    rcases howns with htask | ⟨hflow, -⟩
    · exact ⟨_, by simp, htask⟩
    · exact ⟨_, by simp, hflow⟩
  have hother : kind ∉ Kind.skipped ∧ kind ≠ Kind.collaboration ∧ kind ≠ Kind.process ∧
      kind ≠ Kind.subProcess := by
    simp only [List.mem_cons, List.not_mem_nil, or_false] at hkind
    rcases hkind with rfl | rfl <;> decide
  cases h with
  | skipped kind' => exact absurd kind' (hisA.not_skipped hother.1)
  | collaboration kind' => exact absurd kind' (hisA.not hother.2.1)
  | scope kind' => exact absurd kind' (hisA.not_scope hother.2.2)
  | leaf => exact List.mem_cons_self

/-- Each element with a script has the same identifier in another document. -/
def OwnersKept (g g' : Graph) (stops : List Stop) : Prop :=
  ∀ stop ∈ stops, g.OwnsScript stop.place → g'.field stop.place "id" = g.field stop.place "id"

theorem OwnersKept.mono {part : List Stop} (h : g.OwnersKept g' stops) (hsub : part ⊆ stops) :
    g.OwnersKept g' part :=
  fun stop hstop => h stop (hsub hstop)

namespace Forgets

variable (h : g.Forgets g')

include h

theorem isSkipped_iff (place : Nat) : g'.IsSkipped place ↔ g.IsSkipped place := by
  simp only [IsSkipped, h.isA_iff]

theorem isScope_iff (place : Nat) : g'.IsScope place ↔ g.IsScope place := by
  simp only [IsScope, h.isA_iff]

theorem ownsScript_iff (place : Nat) : g'.OwnsScript place ↔ g.OwnsScript place := by
  simp only [OwnsScript, h.isA_iff, h.field_eq place (by decide : "conditionExpression" ≠ "id"),
    h.truthy_field_eq _ (by decide : "language" ≠ "id")]

/-- The same elements are met. -/
theorem tours (htour : g.Tours hidden items stops) : g'.Tours hidden items stops := by
  induction htour with
  | nil => exact .nil
  | skipped kind _ ih => exact .skipped ((h.isSkipped_iff _).mpr kind) ih
  | collaboration kind items inside _ ihi iha =>
    exact .collaboration ((h.isA_iff _ _).mpr kind) (h.itemsOrNone_field (by decide) items inside.nodes)
      ihi iha
  | scope kind items inside _ ihi iha =>
    exact .scope ((h.isScope_iff _).mpr kind) (h.itemsOrNone_field (by decide) items inside.nodes) ihi iha
  | leaf kind _ ih =>
    refine .leaf ?_ ih
    rwa [h.isSkipped_iff, h.isA_iff, h.isScope_iff]

theorem carries_graphDefinition (root : Nat) :
    Carries (fun _ _ => True) (g.definition root) (g'.definition root) := by
  simp only [definition, h.typeText_eq, h.nameText_eq, h.field_eq root (by decide : "targetNamespace" ≠ "id"),
    h.field_eq root (by decide : "exporter" ≠ "id"), h.field_eq root (by decide : "exporterVersion" ≠ "id")]
  refine Checked.Keeps.as ?_ .definition
  exact ((((((h.keeps_idText root).map _ _).seq (.refl _)).seq (.refl _)).seq (.refl _)).seq (.refl _)).seq
    (.refl _)

end Forgets

end Graph

namespace Survey

/-- Surveys of a document before and after it has forgotten some identifiers. -/
structure Forgets (s s' : Survey) : Prop where
  graph : s.graph.Forgets s'.graph
  links : s'.links.Plain s'.graph
  roots : s'.roots = s.roots
  searchable : s.Searchable
  quiet : s.extension = none
  quiet' : s'.extension = none

variable {s s' : Survey} {parent parent' : ScopeRef} {place : Nat}

namespace Forgets

variable (h : Forgets s s')

include h

theorem searchable' : s'.Searchable := by
  obtain ⟨items, hitems, hroots⟩ := h.searchable
  refine ⟨items, ?_, ?_⟩
  · rw [h.roots]
    refine h.graph.itemsOrNone_of_nodes hitems ?_
    intro v hv
    obtain ⟨place, hplace, -⟩ := hroots v hv
    exact ⟨place, hplace⟩
  · intro v hv
    obtain ⟨place, rfl, hprocess⟩ := hroots v hv
    refine ⟨place, rfl, ?_⟩
    intro kind
    obtain ⟨hname, children, hchildren, hnodes⟩ := hprocess ((h.graph.isA_iff _ _).mp kind)
    exact ⟨h.graph.isName_field place hname, children,
      h.graph.itemsOrNone_field (by decide) hchildren hnodes, hnodes⟩

theorem exists_entity {b b' : Behaviour} {e : Entity} (he : s.entity parent place b = .valid e) :
    ∃ e', s'.entity parent' place b' = .valid e' ∧ e.type = e'.type := by
  obtain ⟨_, name, h₁, hname, rfl⟩ := Checked.seq_eq_valid.mp he
  obtain ⟨_, type, h₂, htype, rfl⟩ := Checked.seq_eq_valid.mp h₁
  obtain ⟨id, hid, rfl⟩ := Checked.map_eq_valid.mp h₂
  obtain ⟨id', hid'⟩ := h.graph.keeps_idText place id hid
  refine ⟨⟨.null, id', type, name, parent', b'⟩, ?_, rfl⟩
  rw [entity, h.graph.typeText_eq, h.graph.nameText_eq, hid', htype, hname]
  rfl

theorem carries_owner (place : Nat) :
    Carries (fun o o' => o.type = o'.type) (s.owner place) (s'.owner place) := by
  intro o ho
  obtain ⟨_, type, h₁, htype, rfl⟩ := Checked.seq_eq_valid.mp (Checked.as_eq_ok.mp ho)
  obtain ⟨id, hid, rfl⟩ := Checked.map_eq_valid.mp h₁
  obtain ⟨id', hid'⟩ := h.graph.keeps_idText place id hid
  refine ⟨⟨id', type⟩, ?_, rfl⟩
  rw [owner, h.graph.typeText_eq, hid', htype]
  rfl

theorem carries_ownScript (hid : s'.graph.field place "id" = s.graph.field place "id")
    (parts parts' : List (String × Value)) :
    Carries (fun t t' => t.type = t'.type) (s.ownScript place parts)
      (s'.ownScript place parts') := by
  rw [ownScript, ownScript, hid]
  refine .bind (h.carries_owner place) ?_
  intro owner owner' _ _ htype script hscript
  obtain ⟨hname, rfl, -⟩ := parts_of_script hscript
  rw [hname]
  exact ⟨_, rfl, congrArg Json.ofText htype⟩

theorem condition_eq (place : Nat) : s'.condition place = s.condition place := by
  rw [Survey.condition, Survey.condition, h.graph.field_eq place (by decide)]
  simp only [h.graph.truthy_field_eq _ (by decide : "language" ≠ "id"),
    h.graph.field_eq _ (by decide : "$type" ≠ "id")]

theorem carries_flowScripts (kind : s.graph.IsA place Kind.sequenceFlow)
    (hid : s.graph.OwnsScript place → s'.graph.field place "id" = s.graph.field place "id") :
    Carries (fun ts ts' => ts.map (·.type) = ts'.map (·.type)) (s.flowScripts place)
      (s'.flowScripts place) := by
  rw [flowScripts, flowScripts, h.condition_eq]
  refine .bind_eq (.of_eq rfl) ?_
  intro condition hcondition
  cases condition with
  | none => exact .ok rfl
  | some condition =>
    refine .bind (h.carries_ownScript (hid ?_) _ _) ?_
    · exact .inr ⟨kind, condition, condition_eq_some.mp hcondition⟩
    · intro script script' _ _ htype
      exact .ok (by simp [htype])

theorem carries_process (place : Nat) :
    Carries (fun p p' => p.type = p'.type) (s.process parent place) (s'.process parent' place) := by
  refine .bind (h.graph.carries_ofElement h.links (.of_match .nil) place) ?_
  intro b b' _ _ _ p hp
  obtain ⟨e, he, rfl⟩ := Checked.map_eq_valid.mp (Checked.as_eq_ok.mp hp)
  obtain ⟨e', he', htype⟩ := h.exists_entity he
  exact ⟨⟨e'⟩, Checked.as_eq_ok.mpr (Checked.map_eq_valid.mpr ⟨e', he', rfl⟩), htype⟩

theorem carries_activity {extra extra' : List (String × Json)} (hextra : Check.MembersShed extra extra')
    (place : Nat) :
    Carries (fun a a' => a.type = a'.type) (s.activity parent extra place)
      (s'.activity parent' extra' place) := by
  refine .bind (h.graph.carries_ofElement h.links hextra place) ?_
  intro b b' _ _ _ a ha
  obtain ⟨e, he, rfl⟩ := Checked.map_eq_valid.mp (Checked.as_eq_ok.mp ha)
  obtain ⟨e', he', htype⟩ := h.exists_entity he
  exact ⟨⟨e', .null⟩, Checked.as_eq_ok.mpr (Checked.map_eq_valid.mpr ⟨e', he', rfl⟩), htype⟩

theorem carries_boundaryEvent (place : Nat) :
    Carries (fun a a' => a.type = a'.type) (s.boundaryEvent parent place)
      (s'.boundaryEvent parent' place) := by
  rw [boundaryEvent, boundaryEvent, h.graph.field_eq place (by decide)]
  refine .bind (h.graph.carries_spread _) ?_
  intro attachedTo attachedTo' _ _ hsheds
  have hextra : Check.MembersShed [("attachedTo", attachedTo)] [("attachedTo", attachedTo')] :=
    .of_match (.cons ⟨rfl, hsheds⟩ .nil)
  exact h.carries_activity hextra place

/-- An edge is found under an identifier or under none. -/
theorem carries_edge (place : Nat) :
    Carries (fun _ e' => e'.source.isName = true ∧ e'.target.isName = true)
      (s.links.edge (s.graph.field place "id")) (s'.links.edge (s'.graph.field place "id")) := by
  intro e he
  obtain ⟨key, hkey, -⟩ := ok_bind.mp he
  rcases h.graph.field_id place with hid | hid
  · rw [hid]
    exact h.links.exists_edge hkey
  · rw [hid]
    exact h.links.exists_edge rfl

theorem carries_sequenceFlow {edge edge' : FlowEdge}
    (hends : edge'.source.isName = true ∧ edge'.target.isName = true) (place : Nat) :
    Carries (fun f f' => f.type = f'.type) (s.sequenceFlow parent edge place)
      (s'.sequenceFlow parent' edge' place) := by
  refine .bind (h.graph.carries_ofFlow place) ?_
  intro b b' _ _ _ f hf
  obtain ⟨_, target, h₁, -, rfl⟩ := Checked.seq_eq_valid.mp (Checked.as_eq_ok.mp hf)
  obtain ⟨_, source, h₂, -, rfl⟩ := Checked.seq_eq_valid.mp h₁
  obtain ⟨e, he, rfl⟩ := Checked.map_eq_valid.mp h₂
  obtain ⟨e', he', htype⟩ := h.exists_entity he
  obtain ⟨source', hsource⟩ := (Value.isName_iff_text "source_id").mp hends.1
  obtain ⟨target', htarget⟩ := (Value.isName_iff_text "target_id").mp hends.2
  exact ⟨⟨e', source', target', edge'.mark⟩, by rw [he', hsource, htarget]; rfl, htype⟩

theorem carries_messageFlow (place : Nat) :
    Carries (fun f f' => f.type = f'.type) (s.messageFlow parent place)
      (s'.messageFlow parent' place) := by
  refine .bind (h.carries_edge place) ?_
  intro edge edge' _ _ hends f hf
  obtain ⟨_, -, hf⟩ := ok_bind.mp hf
  obtain ⟨_, -, hf⟩ := ok_bind.mp hf
  obtain ⟨b, hb, hf⟩ := ok_bind.mp hf
  obtain ⟨e, he, rfl⟩ := Checked.map_eq_valid.mp (Checked.as_eq_ok.mp hf)
  obtain ⟨source, hsource⟩ := h.searchable'.exists_endpoint hends.1
  obtain ⟨target, htarget⟩ := h.searchable'.exists_endpoint hends.2
  obtain ⟨b', hb', -⟩ := h.graph.carries_raw place b hb
  obtain ⟨e', he', htype⟩ := h.exists_entity he
  exact ⟨⟨e', source, target⟩, by rw [hsource, bind_of_ok, htarget, bind_of_ok, hb', bind_of_ok, he']; rfl,
    htype⟩

theorem carries_dataObject (place : Nat) :
    Carries (fun d d' => d.type = d'.type) (s.dataObject parent place)
      (s'.dataObject parent' place) := by
  intro d hd
  obtain ⟨references, -, hd⟩ := ok_bind.mp hd
  obtain ⟨b, hb, hd⟩ := ok_bind.mp hd
  obtain ⟨e, he, rfl⟩ := Checked.map_eq_valid.mp (Checked.as_eq_ok.mp hd)
  obtain ⟨-, -, hid, -⟩ := Survey.exists_entity he b
  obtain ⟨references', hreferences⟩ :=
    exists_dataObjectReferences h.links (h.graph.isName_field place hid)
  obtain ⟨b', hb', -⟩ := h.graph.carries_raw place b hb
  obtain ⟨e', he', htype⟩ := h.exists_entity he
  refine ⟨⟨e', references'⟩, ?_, htype⟩
  exact ok_bind.mpr ⟨references', hreferences, ok_bind.mpr ⟨b', hb', by rw [he']; rfl⟩⟩

theorem carries_leaf (hid : s.graph.OwnsScript place →
      s'.graph.field place "id" = s.graph.field place "id") :
    Carries Flattened.SameTypes (s.leaf parent (s.graph.field place "$type") place)
      (s'.leaf parent' (s.graph.field place "$type") place) := by
  rw [leaf, leaf]
  split
  · refine .bind (h.carries_messageFlow place) ?_
    intro f f' _ _ htype
    exact .ok { Flattened.SameTypes.refl with messageFlows := by simp [htype] }
  split
  · refine .bind (h.carries_dataObject place) ?_
    intro d d' _ _ htype
    exact .ok { Flattened.SameTypes.refl with dataObjects := by simp [htype] }
  split
  · next kind =>
    refine .bind (h.carries_edge place) ?_
    intro edge edge' _ _ hends
    refine .bind (h.carries_flowScripts (Value.isText_iff.mp kind) hid) ?_
    intro scripts scripts' _ _ hscripts
    refine .bind (h.carries_sequenceFlow hends place) ?_
    intro f f' _ _ htype
    exact .ok { Flattened.SameTypes.refl with sequenceFlows := by simp [htype], scripts := hscripts }
  split
  · refine .bind (h.carries_boundaryEvent place) ?_
    intro a a' _ _ htype
    exact .ok { Flattened.SameTypes.refl with activities := by simp [htype] }
  refine .bind (h.carries_activity (.of_match .nil) place) ?_
  intro a a' _ _ htype
  split
  · next kind =>
    refine .bind (h.carries_ownScript (hid (.inl (Value.isText_iff.mp kind))) _ _) ?_
    intro script script' _ _ howner
    exact .ok { Flattened.SameTypes.refl with
      activities := by simp [htype], scripts := by simp [howner] }
  · exact .ok { Flattened.SameTypes.refl with activities := by simp [htype] }

theorem carries_container (place : Nat) :
    Carries (fun x y => Flattened.SameTypes x.1 y.1) (s.container parent (s.graph.field place "$type") place)
      (s'.container parent' (s.graph.field place "$type") place) := by
  rw [container, container]
  split
  · refine .bind (h.carries_process place) ?_
    intro p p' _ _ htype
    refine .bind (h.carries_owner place) ?_
    intro scope scope' _ _ _
    exact .ok { Flattened.SameTypes.refl with processes := by simp [htype] }
  · refine .bind (h.carries_activity (.of_match .nil) place) ?_
    intro a a' _ _ htype
    refine .bind (h.carries_owner place) ?_
    intro scope scope' _ _ _
    exact .ok { Flattened.SameTypes.refl with activities := by simp [htype] }

/-- Walks over the items of a tour meet the same types if they do at each item. -/
theorem carries_elements {depth : Nat} {hidden : Bool} {v : Value} {items : List Value} {stops : List Stop}
    (hitems : s.graph.itemsOrNone v = .ok items) (htour : s.graph.Tours hidden items stops)
    (hitem : ∀ item ∈ items, Walk.Carries Flattened.SameTypes (s.element depth parent item)
      (s'.element depth parent' item)) :
    Walk.Carries Flattened.SameTypes
      (do
        let items ← (s.graph.itemsOrNone v : Except Fault (List Value))
        return Flattened.join (← items.mapM (s.element depth parent)) : Walk Flattened)
      (do
        let items ← (s'.graph.itemsOrNone v : Except Fault (List Value))
        return Flattened.join (← items.mapM (s'.element depth parent'))) := by
  have hcarried : Walk.Carries (fun is is' => is = items ∧ is' = items)
      (liftM (s.graph.itemsOrNone v) : Walk (List Value))
      (liftM (s'.graph.itemsOrNone v) : Walk (List Value)) := by
    rw [hitems, h.graph.itemsOrNone_of_nodes hitems htour.nodes]
    exact .lift (.ok ⟨rfl, rfl⟩)
  refine .bind hcarried ?_
  rintro _ _ ⟨rfl, rfl⟩
  refine .bind (.mapM_same hitem) ?_
  intro fs fs' hfs
  exact .pure (.join hfs)

/-- The walks over an element meet the same types when those with scripts below it keep their identifiers.
The induction is on the depth that both may take. -/
theorem carries_element {depth : Nat} {hidden : Bool} {v : Value} {stops : List Stop}
    (htour : s.graph.Tours hidden [v] stops) (hkept : s.graph.OwnersKept s'.graph stops) :
    Walk.Carries Flattened.SameTypes (s.element depth parent v) (s'.element depth parent' v) := by
  induction depth generalizing hidden parent parent' v stops with
  | zero => exact .error
  | succ depth ih =>
    obtain ⟨place, rfl⟩ := htour.nodes v List.mem_cons_self
    have hbelow {hidden : Bool} {key : String} {children : List Value} {below : List Stop}
        (scope scope' : ScopeRef) (hkey : key ≠ "id")
        (hitems : s.graph.itemsOrNone (s.graph.field place key) = .ok children)
        (hinside : s.graph.Tours hidden children below) (hsub : below ⊆ stops) :
        Walk.Carries Flattened.SameTypes
          (do
            let items ← (s.graph.itemsOrNone (s.graph.field place key) : Except Fault (List Value))
            return Flattened.join (← items.mapM (s.element depth scope)) : Walk Flattened)
          (do
            let items ← (s'.graph.itemsOrNone (s'.graph.field place key) : Except Fault (List Value))
            return Flattened.join (← items.mapM (s'.element depth scope'))) := by
      rw [h.graph.field_eq place hkey]
      refine h.carries_elements hitems hinside ?_
      intro item hitem
      obtain ⟨part, hpart, hpartSub⟩ := hinside.of_mem hitem
      exact ih hpart (hkept.mono fun stop hstop => hsub (hpartSub hstop))
    have hplace : Walk.Carries (fun p p' => place = p ∧ place = p') (liftM (Graph.placeOf (.node place)))
        (liftM (Graph.placeOf (.node place))) := .lift (.ok ⟨rfl, rfl⟩)
    rw [element, element]
    simp only [visit_of_quiet h.quiet, visit_of_quiet h.quiet']
    refine .bind hplace ?_
    rintro _ _ ⟨rfl, rfl⟩
    rw [h.graph.field_eq _ (by decide : "$type" ≠ "id")]
    refine .bind_eq (.same _) ?_
    intro skip
    split
    · exact .pure .refl
    split
    · next kind =>
      obtain ⟨children, below, hitems, hinside, hsub⟩ :=
        htour.below_collaboration (Value.isText_iff.mp kind)
      refine .bind (hbelow parent parent' (by decide) hitems hinside hsub) ?_
      intro f f' hf
      exact .pure hf.messages
    split
    · next kind =>
      have kind : s.graph.IsScope place := by simpa [Graph.IsScope, Graph.IsA] using kind
      obtain ⟨children, below, hitems, hinside, hsub⟩ := htour.below_scope kind
      refine .bind (.lift (h.carries_container place)) ?_
      rintro ⟨own, scope⟩ ⟨own', scope'⟩ hown
      refine .bind (.same _) ?_
      rintro scripts _ rfl
      refine .bind (hbelow scope scope' (by decide) hitems hinside hsub) ?_
      intro nested nested' hnested
      refine .bind .debug ?_
      intro _ _ _
      exact .pure ((hown.append .refl).append hnested.carried)
    · refine .bind (.lift (h.carries_leaf fun howns => hkept _ (htour.mem_of_ownsScript howns) howns)) ?_
      intro own own' hown
      refine .bind_eq (.same _) ?_
      intro scripts
      exact .pure (hown.append .refl)

theorem carries_flatten {items : List Value} {stops : List Stop}
    (hitems : s.graph.itemsOrNone s.roots = .ok items) (htour : s.graph.Tours false items stops)
    (hkept : s.graph.OwnersKept s'.graph stops) :
    Walk.Carries Flattened.SameTypes (s.flatten parent s.roots) (s'.flatten parent' s'.roots) := by
  have hbound : s'.graph.depthBound = s.graph.depthBound := by
    rw [Graph.depthBound, Graph.depthBound, h.graph.size]
  rw [flatten, flatten, hbound, h.roots]
  refine h.carries_elements hitems htour ?_
  intro item hitem
  obtain ⟨part, hpart, hsub⟩ := htour.of_mem hitem
  exact h.carries_element hpart (hkept.mono hsub)

end Forgets

end Survey

namespace MappedContext

variable {g g' : Graph} {document : Value} {source source' : Source} {root : Nat} {items : List Value}
  {stops : List Stop} {m : MappedContext} {diary : Diary}

theorem types_ofFlattened {f f' : Flattened} (h : f.SameTypes f') (d d' : Definition) :
    (ofFlattened d f).types = (ofFlattened d' f').types := by
  simp only [types, ofFlattened, h.processes, h.activities, h.dataObjects, h.messageFlows,
    h.sequenceFlows, h.scripts]

theorem carries_flattenSource_types (h : g.Forgets g') (hplain : source'.Plain g')
    (hloopless : source'.Loopless g') (hitems : g.itemsOrNone (g.field root "rootElements") = .ok items)
    (htour : g.Tours false items stops) (hkept : g.OwnersKept g' stops)
    (definition definition' : Definition) :
    Walk.Carries Flattened.SameTypes (flattenSource g source root definition none)
      (flattenSource g' source' root definition' none) := by
  obtain ⟨links', hlinks', hplain'⟩ := Links.exists_ofRecords hplain hloopless
  intro d f d' hf
  simp only [Walk.Gives, StateT.run, run_flattenSource, Traced.result_bind, Traced.result_stage,
    Links.result_build] at hf ⊢
  obtain ⟨links, -, hf⟩ := ok_bind.mp hf
  have hsurvey : Survey.Forgets (g.survey links root none) (g'.survey links' root none) := {
    graph := h
    links := hplain'
    roots := by
      rw [Graph.survey, Graph.survey, h.field_eq root (by decide), h.orAbsent_eq]
    searchable := Survey.searchable_of_flatten hf
    quiet := rfl
    quiet' := rfl }
  have hroots : (g.survey links root none).graph.itemsOrNone (g.survey links root none).roots = .ok items :=
    (g.itemsOrNone_orAbsent _).trans hitems
  obtain ⟨f', hf', hsame⟩ := hsurvey.carries_flatten hroots htour hkept d f d' hf
  exact ⟨f', ok_bind.mpr ⟨links', hlinks', hf'⟩, hsame⟩

/-- A document is mapped without some identifiers as long as its elements with scripts keep theirs. -/
theorem carries_ofDocument_types (h : g.Forgets g') (hroot : g.HasRoot document root items)
    (hs : Source.ofValue g document = .ok source) (hs' : Source.ofValue g' document = .ok source')
    (hsame : source'.root = source.root) (hplain : source'.Plain g') (hloopless : source'.Loopless g')
    (htour : g.Tours false items stops) (hkept : g.OwnersKept g' stops) :
    Carries (fun x y => x.1.types = y.1.types) (ofDocument g document none).result
      (ofDocument g' document none).result := by
  have hsource : source.root = .node root := by
    have hisRoot := hroot.isRoot
    rw [hs] at hisRoot
    exact Except.ok.inj hisRoot
  simp only [ofDocument, Traced.result_bind, Traced.result_lift, Traced.result_span, hs, hs', hsame, hsource,
    bind_of_ok, Graph.placeOf]
  refine .bind (h.carries_graphDefinition root) ?_
  intro definition definition' _ _ _
  have hflat : Carries (fun x y => Flattened.SameTypes x.1 y.1)
      ((flattenSource g source root definition none).run ⟨[], []⟩).result
      ((flattenSource g' source' root definition' none).run ⟨[], []⟩).result := by
    rintro ⟨f, d⟩ hf
    obtain ⟨f', hf', htypes⟩ := carries_flattenSource_types h hplain hloopless hroot.areElements htour
      hkept definition definition' _ f d hf
    exact ⟨(f', d), hf', htypes⟩
  refine .bind hflat ?_
  rintro ⟨f, d⟩ ⟨f', d'⟩ - - htypes
  exact .ok (types_ofFlattened htypes definition definition')

section Forgetting

variable {places : List Nat}

/-- A mapping writes the scripts of every element on its tour, so each of them has an identifier. -/
theorem owners_of_forgetIds {m' : MappedContext} {diary' : Diary}
    (h : (ofDocument (g.forgetIds places) document none).result = .ok (m', diary'))
    (hforgets : g.Forgets (g.forgetIds places)) (hroot : (g.forgetIds places).HasRoot document root items)
    (htour : g.Tours false items stops) :
    ∀ stop ∈ stops, g.OwnsScript stop.place → stop.place ∉ places := by
  obtain ⟨root', items', calls, hroot', htour', -, -, hwritten, -⟩ := calls_of_ofDocument h
  obtain ⟨rfl, rfl⟩ := hroot.unique hroot'
  have hstops := (hforgets.tours htour).unique htour'
  intro stop hstop howns hmem
  obtain ⟨call, hcall, rfl⟩ := List.mem_map.mp (hstops ▸ hstop)
  obtain ⟨text, htext⟩ :=
    Survey.text_of_written ((hforgets.ownsScript_iff _).mpr howns) (hwritten call hcall)
  have hnone : (g.forgetIds places).field call.stop.place "id" = .null := by
    rw [Graph.field, Graph.fields_forgetIds, if_pos hmem,
      Fields.get?_eq_none.mpr (Fields.notMem_keys_without (by simp))]
    rfl
  have hsame : (g.forgetIds places).field call.stop.place "id" = .str text := htext
  rw [hnone] at hsame
  cases hsame

theorem ownersKept_forgetIds (h : ∀ stop ∈ stops, g.OwnsScript stop.place → stop.place ∉ places) :
    g.OwnersKept (g.forgetIds places) stops := by
  intro stop hstop howns
  rw [Graph.field, Graph.field, Graph.fields_forgetIds, if_neg (h stop hstop howns)]

/-- A document of plain records that has been mapped is mapped without the identifiers of some objects if and
only if no element with a script is among them.  Its lists have the same sizes and types in the same order
then. -/
theorem ofDocument_forgetIds_iff (h : (ofDocument g document none).result = .ok (m, diary))
    (hs : Source.ofValue g document = .ok source) (hplain : source.Plain g) (hloopless : source.Loopless g)
    (htable : ∀ place, g.get document "elementsById" ≠ .ok (.list place))
    (hfilled : ∀ place ∈ places, ∃ key ∈ Fields.keys (g.fields place), key ≠ "id") :
    ∃ root items stops, g.HasRoot document root items ∧ (∀ t, g.Tours false items t ↔ t = stops) ∧
      ((∃ m' diary', (ofDocument (g.forgetIds places) document none).result = .ok (m', diary')) ↔
        ∀ stop ∈ stops, g.OwnsScript stop.place → stop.place ∉ places) ∧
      ∀ m' diary', (ofDocument (g.forgetIds places) document none).result = .ok (m', diary') →
        m'.sizes = m.sizes ∧ m'.types = m.types := by
  obtain ⟨root, items, calls, hroot, htour, -⟩ := calls_of_ofDocument h
  have hforgets := Graph.forgets_forgetIds hfilled
  obtain ⟨source', hs', hsame, hplain', hloopless'⟩ :=
    hforgets.exists_source htable hs hplain hloopless
  have hroot' : (g.forgetIds places).HasRoot document root items := by
    refine ⟨?_, ?_⟩
    · rw [hs', ← hroot.isRoot, hs]
      exact congrArg Except.ok hsame
    · exact hforgets.itemsOrNone_field (by decide) hroot.areElements htour.nodes
  have hmapped (howners : ∀ stop ∈ calls.map (·.stop), g.OwnsScript stop.place → stop.place ∉ places) :=
    carries_ofDocument_types hforgets hroot hs hs' hsame hplain' hloopless' htour
      (ownersKept_forgetIds howners) _ h
  refine ⟨root, items, _, hroot, htour.iff, ⟨?_, ?_⟩, ?_⟩
  · rintro ⟨m', diary', hrun⟩
    exact owners_of_forgetIds hrun hforgets hroot' htour
  · intro howners
    obtain ⟨⟨m', diary'⟩, hrun, -⟩ := hmapped howners
    exact ⟨m', diary', hrun⟩
  · intro m' diary' hrun
    obtain ⟨made, hmade, htypes⟩ := hmapped (owners_of_forgetIds hrun hforgets hroot' htour)
    rw [hrun] at hmade
    cases hmade
    exact ⟨sizes_eq_of_types htypes.symm, htypes.symm⟩

end Forgetting

/-- A script task and a flow out of it in a process, and a record on the flow. -/
def scripted : Graph where
  contents := #[
    .object [("$type", .str Kind.scriptTask), ("id", .str "t"), ("script", .str "x")],
    .object [("$type", .str Kind.sequenceFlow), ("id", .str "f")],
    .list [.node 0, .node 1],
    .object [("$type", .str Kind.process), ("id", .str "p"), ("flowElements", .list 2)],
    .list [.node 3],
    .object [("$type", .str "bpmn:Definitions"), ("id", .str "d"), ("rootElements", .list 4)],
    .object [("property", .str Role.source), ("id", .str "t"), ("element", .node 1)],
    .list [.node 6],
    .object [("rootElement", .node 5), ("references", .list 7)]]

def scriptedSource : Source := ⟨.node 5, .empty, [⟨.str Role.source, .str "t", .node 1⟩]⟩

theorem plain_scriptedSource : scriptedSource.Plain scripted := by
  refine ⟨?_, by simp [scriptedSource, Index.empty]⟩
  intro r hr
  obtain rfl := List.mem_singleton.mp hr
  exact ⟨⟨_, rfl⟩, rfl, .inr ⟨1, rfl, by decide⟩⟩

theorem loopless_scriptedSource : scriptedSource.Loopless scripted := by
  intro r hr hproperty
  obtain rfl := List.mem_singleton.mp hr
  exact absurd (Value.str.inj hproperty) (by decide)

/-- The flow, the process and the definition may go without an identifier. -/
theorem ofDocument_forgetIds_scripted :
    ∃ m diary, (ofDocument scripted (.node 8) none).result = .ok (m, diary) ∧
      Source.ofValue scripted (.node 8) = .ok scriptedSource ∧ scriptedSource.Plain scripted ∧
      scriptedSource.Loopless scripted ∧
      (∀ place, scripted.get (.node 8) "elementsById" ≠ .ok (.list place)) ∧
      (∀ place ∈ [1, 3, 5], ∃ key ∈ Fields.keys (scripted.fields place), key ≠ "id") ∧
      ∃ root items stops, scripted.HasRoot (.node 8) root items ∧
        (∀ t, scripted.Tours false items t ↔ t = stops) ∧
        ((∃ m' diary', (ofDocument (scripted.forgetIds [1, 3, 5]) (.node 8) none).result =
            .ok (m', diary')) ↔
          ∀ stop ∈ stops, scripted.OwnsScript stop.place → stop.place ∉ [1, 3, 5]) ∧
        ∀ m' diary', (ofDocument (scripted.forgetIds [1, 3, 5]) (.node 8) none).result =
            .ok (m', diary') →
          m'.sizes = m.sizes ∧ m'.types = m.types := by
  have hs : Source.ofValue scripted (.node 8) = .ok scriptedSource := rfl
  have htable (place : Nat) : scripted.get (.node 8) "elementsById" ≠ .ok (.list place) := by
    have hget : scripted.get (.node 8) "elementsById" = .ok .null := rfl
    rw [hget]
    intro hlist
    cases hlist
  have hfilled : ∀ place ∈ [1, 3, 5], ∃ key ∈ Fields.keys (scripted.fields place), key ≠ "id" := by
    decide
  have hsome : (ofDocument scripted (.node 8) none).result.toOption.isSome = true := by decide +kernel
  obtain ⟨⟨m, diary⟩, hrun⟩ := exists_ok_of_isSome hsome
  exact ⟨m, diary, hrun, hs, plain_scriptedSource, loopless_scriptedSource, htable, hfilled,
    ofDocument_forgetIds_iff hrun hs plain_scriptedSource loopless_scriptedSource htable hfilled⟩

/-- The script task may not. -/
theorem refused_forgetIds_scripted :
    (ofDocument scripted (.node 8) none).result.toOption.isSome = true ∧
      (ofDocument (scripted.forgetIds [1, 3, 5]) (.node 8) none).result.toOption.isSome = true ∧
      (ofDocument (scripted.forgetIds [0]) (.node 8) none).result.toOption.isSome = false := by
  refine ⟨?_, ?_, ?_⟩ <;> decide +kernel

end MappedContext

end Bpmn
