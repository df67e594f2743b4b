import Bpmn.Mapping.Bundle
import Bpmn.Proofs.Document.Forgetting
import Bpmn.Proofs.Model.Reread

namespace Bpmn

theorem Checked.Keeps.as {α β : Type} {c : Checked α} {d : Checked β} (h : c.Keeps d) (m : Model) :
    Carries (fun _ _ => True) (c.as m) (d.as m) := by
  intro a ha
  obtain ⟨b, hb⟩ := h a (Checked.as_eq_ok.mp ha)
  exact ⟨b, Checked.as_eq_ok.mpr hb, trivial⟩

/-- Descriptions of elements differ in titles at most. -/
theorem Json.sheds_elementRef (e e' : ElementRef) : e.toJson.Sheds e'.toJson := by
  have hread {key : String} {fields fields' : List (String × Json)} {text : Option String}
      (hget : Fields.get? fields' key = some (.ofText text)) :
      (Check.maybeText fields key).Keeps (Check.maybeText fields' key) := by
    rw [Check.maybeText_of_get? hget]
    exact .to_valid text
  refine .obj ?_ ?_
  · intro key hkey
    simp only [Json.titles, List.mem_cons, List.not_mem_nil, or_false] at hkey
    rcases hkey with rfl | rfl | rfl
    · exact hread rfl
    · exact hread rfl
    · exact hread rfl
  · intro key hkey
    simp only [Json.titles, List.mem_cons, List.not_mem_nil, or_false, not_or] at hkey
    simp [Fields.get?_cons, hkey]

theorem Check.maybeText_put {fields : List (String × Json)} {key name : String} {j : Json}
    (h : key ≠ name) : maybeText (Fields.put fields name j) key = maybeText fields key := by
  rw [maybeText, maybeText, maybe, maybe, defaulted, defaulted, Fields.get?_put, if_neg h]

namespace Check.MembersShed

variable {fields fields' other other' : List (String × Json)} {key : String} {j j' : Json}

theorem of_match (h : Fields.Match Json.Sheds fields fields') : MembersShed fields fields' :=
  fun _ key _ => h.get? key

/-- Fields that are no members may be put in, others on each side. -/
theorem update (h : MembersShed fields fields')
    (hother : ∀ key ∈ Fields.keys other, ∀ m : Member, key ∉ [m.key, m.secondKey])
    (hother' : ∀ key ∈ Fields.keys other', ∀ m : Member, key ∉ [m.key, m.secondKey]) :
    MembersShed (Fields.update fields other) (Fields.update fields' other') := by
  intro m key hkey
  rw [Fields.get?_update_of_notMem fun hmem => hother key hmem m hkey,
    Fields.get?_update_of_notMem fun hmem => hother' key hmem m hkey]
  exact h m key hkey

theorem put (h : MembersShed fields fields') (hkey : ∀ m : Member, key ∉ [m.key, m.secondKey]) :
    MembersShed (Fields.put fields key j) (Fields.put fields' key j') := by
  intro m name hname
  have hne : name ≠ key := fun hsame => hkey m (hsame ▸ hname)
  rw [Fields.get?_put, Fields.get?_put, if_neg hne, if_neg hne]
  exact h m name hname

end Check.MembersShed

theorem Member.notMem_of_isRef {key : String} (h : Key.isRef key = true) (m : Member) :
    key ∉ [m.key, m.secondKey] := by
  intro hmem
  have hnot : ∀ name ∈ [m.key, m.secondKey], Key.isRef name = false := by
    cases m <;> decide
  rw [hnot key hmem] at h
  cases h

theorem Bundle.notMem_of_computed {type : Value} {key : String} (h : key ∈ Fields.keys (computed type))
    (m : Member) : key ∉ [m.key, m.secondKey] := by
  rw [computed] at h
  split at h
  · revert key
    cases m <;> decide
  split at h
  · revert key
    cases m <;> decide
  split at h
  · revert key
    cases m <;> decide
  · cases h

namespace Graph.Forgets

variable {g g' : Graph} (h : g.Forgets g')

include h

theorem carries_elementRefAt (place : Nat) :
    Carries (fun _ _ => True) (g.elementRefAt place) (g'.elementRefAt place) := by
  rw [elementRefAt, elementRefAt, h.typeText_eq, h.nameText_eq]
  exact ((((h.keeps_idText place).map _ _).seq (.refl _)).seq (.refl _)).as _

theorem carries_spread (v : Value) : Carries Json.Sheds (g.spread v) (g'.spread v) := by
  cases v with
  | node place =>
    rw [spread, spread, elementRef, elementRef]
    simp only [bind_assoc]
    refine .bind (h.carries_elementRefAt place) ?_
    intro e e' _ _ _
    exact .ok (Json.sheds_elementRef e e')
  | _ => exact .same _ .same

theorem filter_isRef (place : Nat) : (g'.fields place).filter (fun (key, _) => Key.isRef key) =
    (g.fields place).filter (fun (key, _) => Key.isRef key) := by
  rcases h.fields place with heq | heq
  · rw [heq]
  · rw [heq, Fields.without, List.filter_filter]
    apply List.filter_congr
    rintro ⟨key, v⟩ _
    by_cases hkey : key = "id"
    · have hnot : Key.isRef "id" = false := by decide
      simp [hkey, hnot]
    · simp [hkey]

theorem carries_spreadFields (place : Nat) :
    Carries Check.MembersShed (g.spreadFields place) (g'.spreadFields place) := by
  have hspread (p : String × Value) : Carries (fun _ _ => True)
      (do return (p.1, ← g.spread p.2) : Except Fault (String × Json)) (do return (p.1, ← g'.spread p.2)) :=
    .bind (h.carries_spread p.2) fun _ _ _ _ _ => .ok trivial
  rw [spreadFields, spreadFields, h.filter_isRef]
  refine .bind (h.carries_ownFieldsAt place) ?_
  intro own own' _ _ hown
  refine .bind (.mapM_same fun p _ => hspread p) ?_
  intro spread spread' hs hs' _
  have hkeys {g : Graph} {spread : List (String × Json)}
      (hs : (List.filter (fun p => Key.isRef p.1) (g.fields place)).mapM
        (fun (key, v) => return (key, ← g.spread v)) = .ok spread) :
      ∀ key ∈ Fields.keys spread, ∀ m : Member, key ∉ [m.key, m.secondKey] := by
    intro key hkey
    rw [← (Fields.ok_mapM_values.mp hs).keys_eq] at hkey
    obtain ⟨p, hp, rfl⟩ := List.mem_map.mp hkey
    exact Member.notMem_of_isRef (List.mem_filter.mp hp).2
  refine .ok ((Check.membersShed_of_sheds hown.sheds).update (hkeys hs) ?_)
  rw [← h.filter_isRef] at hs'
  exact hkeys hs'

section Definitions

variable {links links' : Links} (hlinks : links'.Plain g')

include hlinks

theorem carries_parameter (d : Direction) (v : Value) :
    Carries (fun _ _ => True) (links.parameter g d v) (links'.parameter g' d v) := by
  intro p hp
  obtain ⟨place, hplace, hp⟩ := ok_bind.mp hp
  obtain ⟨own, hown, hp⟩ := ok_bind.mp hp
  obtain ⟨association, -, hp⟩ := ok_bind.mp hp
  have hid := (Check.dataParameterWith_eq_valid.mp (Checked.as_eq_ok.mp hp)).1
  obtain ⟨own', hown', hshed⟩ := h.carries_ownFieldsAt place own hown
  obtain ⟨association', hassociation'⟩ :=
    hlinks.exists_association d (h.isName_field place (Links.isName_of_maybeText hown hid))
  have htitled : ∀ key ∈ Json.titles,
      (Check.maybeText (Fields.put own "type" (g.unfold (g.field place "$type"))) key).Keeps
        (Check.maybeText (Fields.put own' "type" (g'.unfold (g'.field place "$type"))) key) := by
    intro key _
    by_cases hkey : key = "type"
    · subst hkey
      exact h.keeps_unfold_text (by rw [Fields.get?_put, if_pos rfl]) (by rw [Fields.get?_put, if_pos rfl])
    · rw [Check.maybeText_put hkey, Check.maybeText_put hkey]
      exact hshed.titled key
  obtain ⟨p', hp', -⟩ := (Check.keeps_dataParameterWith (.to_valid association') htitled).as
    .dataParameter p hp
  refine ⟨p', ?_, trivial⟩
  rw [Links.parameter, hplace, bind_of_ok, hown', bind_of_ok, hassociation', bind_of_ok]
  exact hp'

theorem carries_parameters (d : Direction) (v : Value) :
    Carries (fun _ _ => True) (links.parameters g d v) (links'.parameters g' d v) := by
  rw [Links.parameters, Links.parameters]
  split
  · exact .ok trivial
  · next v _ =>
    have hrefuse (p : DataParameter) : links.parameter g d (.str "id") ≠ .ok p := by
      intro hp
      obtain ⟨place, hplace, -⟩ := ok_bind.mp hp
      cases hplace
    simp only [← bind_assoc]
    exact .bind (h.carries_items hrefuse (h.carries_parameter hlinks d) v) fun _ _ _ _ _ => .ok trivial

theorem carries_ofDefinition (place : Nat) :
    Carries (fun _ _ => True) (Bundle.ofDefinition g links place)
      (Bundle.ofDefinition g' links' place) := by
  rw [Bundle.ofDefinition, Bundle.ofDefinition]
  dsimp only
  rw [h.field_eq place (by decide)]
  split
  · rw [Links.ioParameters, Links.ioParameters, h.field_eq place (by decide),
      h.field_eq place (by decide)]
    simp only [bind_assoc]
    refine .bind (h.carries_parameters hlinks .input _) ?_
    intro inputs inputs' _ _ _
    refine .bind (h.carries_parameters hlinks .output _) ?_
    intro outputs outputs' _ _ _
    exact .ok trivial
  · refine .bind (h.carries_spreadFields place) ?_
    intro fields fields' _ _ hfields
    refine (Check.MembersShed.keeps_behaviourFields (hfields.update ?_ ?_)).as .behaviour
    · rw [Fields.keys_map]
      exact fun key hkey => Bundle.notMem_of_computed hkey
    · rw [Fields.keys_map]
      exact fun key hkey => Bundle.notMem_of_computed hkey

theorem carries_definition (v : Value) :
    Carries (fun _ _ => True) (Bundle.definition g links v) (Bundle.definition g' links' v) := by
  rw [Bundle.definition, Bundle.definition, h.orAbsent_eq]
  split
  · exact .ok trivial
  · refine .bind_eq (.of_eq rfl) ?_
    intro place _
    refine .bind (h.carries_ofDefinition hlinks place) ?_
    intro b b' _ _ _
    rw [h.typeText_eq]
    refine .bind_eq (.of_eq rfl) ?_
    intro type _
    exact .ok trivial

end Definitions

theorem carries_resource (v : Value) :
    Carries (fun _ _ => True) (Bundle.resource g v) (Bundle.resource g' v) := by
  rw [Bundle.resource, Bundle.resource, h.orAbsent_eq]
  split
  · exact .ok trivial
  refine .bind_eq (.of_eq rfl) ?_
  intro place _
  rw [h.field_eq place (by decide), h.orAbsent_eq]
  have hrest (expression : Value) : Carries (fun _ _ => True) (do
        let own ← g.ownFieldsAt place
        let resource ← (Resource.mk <$> g.typeText place <*> (g.bodyOf expression).text "expression"
          <*> .valid own).as .resource
        return some resource)
      (do
        let own ← g'.ownFieldsAt place
        let resource ← (Resource.mk <$> g'.typeText place <*> (g'.bodyOf expression).text "expression"
          <*> .valid own).as .resource
        return some resource) := by
    refine .bind (h.carries_ownFieldsAt place) ?_
    intro own own' _ _ _
    rw [h.typeText_eq, h.bodyOf_eq]
    have hmade : (Resource.mk <$> g.typeText place <*> (g.bodyOf expression).text "expression"
        <*> .valid own).Keeps (Resource.mk <$> g.typeText place <*>
          (g.bodyOf expression).text "expression" <*> .valid own') :=
      (((Checked.Keeps.refl _).map _ _).seq (.refl _)).seq (.to_valid own')
    exact .bind (hmade.as .resource) fun _ _ _ _ _ => .ok trivial
  split
  · exact hrest .null
  · next assignment _ =>
    rw [h.get_eq assignment (by decide)]
    exact .bind_eq (.of_eq rfl) fun expression _ => hrest expression

theorem carries_each {α : Type} {read read' : Value → Except Fault (Option α)}
    (hrefuse : ∀ a, read (.str "id") ≠ .ok a)
    (hread : ∀ v, Carries (fun _ _ => True) (read v) (read' v)) (v : Value) :
    Carries (fun _ _ => True) (Bundle.each g v read) (Bundle.each g' v read') := by
  rw [Bundle.each, Bundle.each]
  split
  · exact .ok trivial
  · simp only [← bind_assoc]
    exact .bind (h.carries_items hrefuse hread _) fun _ _ _ _ _ => .ok trivial

section Links

variable {links links' : Links} (hlinks : links'.Plain g')

include hlinks

theorem carries_checkElement {fields fields' : List (String × Json)}
    (hfields : Check.MembersShed fields fields') (place : Nat) :
    Carries Checked.Keeps (Bundle.checkElement g links fields place)
      (Bundle.checkElement g' links' fields' place) := by
  have hdefinition (b : Option BehaviourDefinition) : Bundle.definition g links (.str "id") ≠ .ok b := by
    intro hb
    obtain ⟨place, hplace, -⟩ := ok_bind.mp hb
    cases hplace
  have hresource (r : Option Resource) : Bundle.resource g (.str "id") ≠ .ok r := by
    intro hr
    obtain ⟨place, hplace, -⟩ := ok_bind.mp hr
    cases hplace
  rw [Bundle.checkElement, Bundle.checkElement, h.field_eq place (by decide),
    h.field_eq place (by decide), h.field_eq place (by decide), h.field_eq place (by decide)]
  refine .bind (h.carries_each hdefinition (h.carries_definition hlinks) _) ?_
  intro events events' _ _ _
  refine .bind (h.carries_definition hlinks _) ?_
  intro loop loop' _ _ _
  refine .bind (h.carries_definition hlinks _) ?_
  intro io io' _ _ _
  refine .bind (h.carries_each hresource h.carries_resource _) ?_
  intro resources resources' _ _ _
  exact .ok (hfields.keeps_behaviourWith events events' loop loop' io io' resources resources')

theorem carries_ofElement {extra extra' : List (String × Json)}
    (hextra : Check.MembersShed extra extra') (place : Nat) :
    Carries (fun _ _ => True) (Bundle.ofElement g links extra place)
      (Bundle.ofElement g' links' extra' place) := by
  rw [Bundle.ofElement, Bundle.ofElement]
  refine .bind (h.carries_ownFieldsAt place) ?_
  intro own own' _ _ hown
  refine .bind (h.carries_checkElement hlinks (hown.membersShed hextra) place) ?_
  intro c d _ _ hkeeps
  exact hkeeps.as .behaviour

end Links

theorem conditionBody_eq (place : Nat) :
    Bundle.conditionBody g' place = Bundle.conditionBody g place := by
  rw [Bundle.conditionBody, Bundle.conditionBody, h.field_eq place (by decide)]
  split
  · next condition _ =>
    rw [h.field_eq condition (by decide), h.truthy_eq, h.field_eq condition (by decide)]
  · rfl

theorem carries_ofFlow (place : Nat) :
    Carries (fun _ _ => True) (Bundle.ofFlow g place) (Bundle.ofFlow g' place) := by
  rw [Bundle.ofFlow, Bundle.ofFlow, h.conditionBody_eq]
  refine .bind (h.carries_ownFieldsAt place) ?_
  intro own own' _ _ hown
  have hmembers := Check.membersShed_of_sheds hown.sheds
  split
  · exact hmembers.keeps_behaviourFields.as .behaviour
  · refine (hmembers.put ?_).keeps_behaviourFields.as .behaviour
    intro m
    cases m <;> decide

theorem carries_raw (place : Nat) :
    Carries (fun _ _ => True) (Bundle.raw g (.node place)) (Bundle.raw g' (.node place)) := by
  rw [Bundle.raw, Bundle.raw, ownFields_node, ownFields_node]
  refine .bind (h.carries_ownFieldsAt place) ?_
  intro own own' _ _ hown
  exact (Check.membersShed_of_sheds hown.sheds).keeps_behaviourFields.as .behaviour

end Graph.Forgets

end Bpmn
