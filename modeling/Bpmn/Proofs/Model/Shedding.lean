import Bpmn.Proofs.Fields
import Bpmn.Proofs.Model.Checks

namespace Bpmn

namespace Checked

variable {α β γ δ : Type}

/-- Whenever the first check is passed so is the second. -/
def Keeps (c : Checked α) (d : Checked β) : Prop := ∀ a, c = .valid a → ∃ b, d = .valid b

namespace Keeps

variable {c : Checked α} {d : Checked β}

theorem refl (c : Checked α) : c.Keeps c := fun a ha => ⟨a, ha⟩

theorem to_valid (b : β) : c.Keeps (.valid b) := fun _ _ => ⟨b, rfl⟩

theorem map (h : c.Keeps d) (f : α → γ) (f' : β → δ) : (f <$> c).Keeps (f' <$> d) := by
  intro r hr
  obtain ⟨a, ha, -⟩ := map_eq_valid.mp hr
  obtain ⟨b, hb⟩ := h a ha
  exact ⟨f' b, map_eq_valid.mpr ⟨b, hb, rfl⟩⟩

theorem seq {c : Checked (α → γ)} {d : Checked (β → δ)} {part : Checked α} {part' : Checked β}
    (h : c.Keeps d) (hpart : part.Keeps part') : (c <*> part).Keeps (d <*> part') := by
  intro r hr
  obtain ⟨f, a, hf, ha, -⟩ := seq_eq_valid.mp hr
  obtain ⟨f', hf'⟩ := h f hf
  obtain ⟨b, hb⟩ := hpart a ha
  exact ⟨f' b, seq_eq_valid.mpr ⟨f', b, hf', hb, rfl⟩⟩

end Keeps

end Checked

namespace Json

/-- The keys of what stands for an object: its identifier, type and name. -/
def titles : List String := ["id", "type", "name"]

/-- The same value, but that objects in it may have lost titles.  A title that is read as a text still
is. -/
inductive Sheds : Json → Json → Prop where
  | same (j : Json) : Sheds j j
  | arr {items items' : List Json} (each : List.Forall₂ Sheds items items') :
      Sheds (.arr items) (.arr items')
  | obj {fields fields' : List (String × Json)}
      (titled : ∀ key ∈ titles, (Check.maybeText fields key).Keeps (Check.maybeText fields' key))
      (others : ∀ key ∉ titles, Option.Rel Sheds (Fields.get? fields key) (Fields.get? fields' key)) :
      Sheds (.obj fields) (.obj fields')

namespace Sheds

variable {fields fields' : List (String × Json)} {key : String} {j j' : Json}

theorem rel_same (o : Option Json) : Option.Rel Sheds o o := by
  cases o with
  | none => exact .none
  | some j => exact .some (.same j)

theorem titled (h : Sheds (.obj fields) (.obj fields')) (key : String) (hkey : key ∈ titles) :
    (Check.maybeText fields key).Keeps (Check.maybeText fields' key) := by
  cases h with
  | same => exact .refl _
  | obj titled _ => exact titled key hkey

theorem others (h : Sheds (.obj fields) (.obj fields')) (key : String) (hkey : key ∉ titles) :
    Option.Rel Sheds (Fields.get? fields key) (Fields.get? fields' key) := by
  cases h with
  | same => exact rel_same _
  | obj _ others => exact others key hkey

theorem null (h : Sheds .null j) : j = .null := by
  cases h
  rfl

theorem str {s : String} (h : Sheds (.str s) j) : j = .str s := by
  cases h
  rfl

end Sheds

end Json

namespace Check

open Json (Sheds titles)

variable {α : Type} {fields fields' : List (String × Json)} {key : String} {j j' : Json}
  {check : Json → Checked α}

/-- What accepts a value accepts it without titles as well. -/
def Tolerant (check : Json → Checked α) : Prop := ∀ j j', Sheds j j' → (check j).Keeps (check j')

/-- A title is read when it is a text or null. -/
theorem exists_maybeText_iff (h : Fields.get? fields key = some j) :
    (∃ text, maybeText fields key = .valid text) ↔ j = .null ∨ ∃ s, j = .str s := by
  rw [maybeText, maybe, defaulted, h]
  cases j <;> simp [optional, text, Checked.under_eq_valid, Checked.map_eq_valid, Checked.wrong_ne_valid]

theorem tolerant_text : Tolerant text := by
  intro j j' h s hs
  obtain rfl := text_eq_valid.mp hs
  exact ⟨s, text_eq_valid.mpr h.str⟩

theorem tolerant_object : Tolerant object := by
  intro j j' h inner hinner
  obtain rfl := object_eq_valid.mp hinner
  cases h with
  | same => exact ⟨inner, rfl⟩
  | obj _ _ => exact ⟨_, rfl⟩

theorem keeps_optional (hnull : j = .null → j' = .null) (h : (check j).Keeps (check j')) :
    (optional check j).Keeps (optional check j') := by
  intro o ho
  by_cases hnone : j' = .null
  · exact ⟨none, optional_eq_valid.mpr (.inl ⟨hnone, rfl⟩)⟩
  rcases optional_eq_valid.mp ho with ⟨hj, -⟩ | ⟨-, a, ha, -⟩
  · exact absurd (hnull hj) hnone
  · obtain ⟨b, hb⟩ := h a ha
    exact ⟨some b, optional_eq_valid.mpr (.inr ⟨hnone, b, hb, rfl⟩)⟩

theorem Tolerant.optional (h : Tolerant check) : Tolerant (optional check) := by
  intro j j' hj
  refine keeps_optional ?_ (h j j' hj)
  rintro rfl
  exact hj.null

/-- A list is read when each of its items is. -/
theorem exists_list_arr_iff {items : List Json} :
    (∃ as, list check (.arr items) = .valid as) ↔ ∀ item ∈ items, ∃ a, check item = .valid a := by
  simp only [list, Checked.items_eq_valid]
  constructor
  · rintro ⟨as, has⟩ item hitem
    have hmem : check item ∈ as.map Checked.valid := has ▸ List.mem_map_of_mem hitem
    obtain ⟨a, -, ha⟩ := List.mem_map.mp hmem
    exact ⟨a, ha.symm⟩
  · intro h
    induction items with
    | nil => exact ⟨[], rfl⟩
    | cons item rest ih =>
      obtain ⟨⟨a, ha⟩, hrest⟩ := List.forall_mem_cons.mp h
      obtain ⟨as, has⟩ := ih hrest
      exact ⟨a :: as, by rw [List.map_cons, ha, has, List.map_cons]⟩

theorem keeps_list (h : Sheds j j')
    (hitem : ∀ item item', sizeOf item < sizeOf j → Sheds item item' → (check item).Keeps (check item')) :
    (list check j).Keeps (list check j') := by
  intro as has
  cases h with
  | same => exact ⟨as, has⟩
  | obj _ _ => exact absurd has Checked.wrong_ne_valid
  | @arr items items' each =>
    have hread := exists_list_arr_iff.mp ⟨as, has⟩
    have hkept : List.Forall₂ (fun item item' => (check item).Keeps (check item')) items items' := by
      obtain ⟨hlength, hsheds⟩ := List.forall₂_iff_get.mp each
      refine List.forall₂_iff_get.mpr ⟨hlength, ?_⟩
      intro i hi hi'
      have hless := List.sizeOf_lt_of_mem (List.get_mem items ⟨i, hi⟩)
      refine hitem _ _ ?_ (hsheds i hi hi')
      simp only [Json.arr.sizeOf_spec]
      omega
    refine exists_list_arr_iff.mpr ?_
    intro item' hmem
    obtain ⟨item, hitem, hkeeps⟩ := exists_of_forall₂ hkept item' hmem
    obtain ⟨a, ha⟩ := hread item hitem
    exact hkeeps a ha

theorem Tolerant.list (h : Tolerant check) : Tolerant (list check) :=
  fun _ _ hj => keeps_list hj fun item item' _ hitem => h item item' hitem

theorem keeps_model {m : Model} {check : List (String × Json) → Checked α} (h : Sheds j j')
    (hfields : ∀ fields fields', j = .obj fields → Sheds (.obj fields) (.obj fields') →
      (check fields).Keeps (check fields')) : (model m check j).Keeps (model m check j') := by
  intro a ha
  obtain ⟨fields, rfl, hcheck⟩ := model_eq_valid.mp ha
  have hshed := h
  cases h with
  | same => exact ⟨a, ha⟩
  | @obj _ fields' _ _ => exact hfields fields fields' rfl hshed a hcheck

theorem keeps_defaulted {default : α}
    (h : Option.Rel (fun j j' => (check j).Keeps (check j')) (Fields.get? fields key)
      (Fields.get? fields' key)) :
    (defaulted fields key default check).Keeps (defaulted fields' key default check) := by
  intro a ha
  rw [defaulted_eq_valid] at ha
  simp only [defaulted_eq_valid]
  generalize Fields.get? fields key = o, Fields.get? fields' key = o' at h ha
  cases h with
  | none => exact ⟨default, .inl ⟨rfl, rfl⟩⟩
  | @some j j' hj =>
    rcases ha with ⟨hnone, -⟩ | ⟨_, hsome, hcheck⟩
    · cases hnone
    · obtain rfl := Option.some.inj hsome
      obtain ⟨b, hb⟩ := hj a hcheck
      exact ⟨b, .inr ⟨j', rfl, hb⟩⟩

theorem Tolerant.defaulted {default : α} (h : Tolerant check)
    (hget : Option.Rel Sheds (Fields.get? fields key) (Fields.get? fields' key)) :
    (defaulted fields key default check).Keeps (defaulted fields' key default check) := by
  apply keeps_defaulted
  generalize Fields.get? fields key = o, Fields.get? fields' key = o' at hget
  cases hget with
  | none => exact .none
  | some hj => exact .some (h _ _ hj)

theorem Tolerant.maybe (h : Tolerant check)
    (hget : Option.Rel Sheds (Fields.get? fields key) (Fields.get? fields' key)) :
    (maybe fields key check).Keeps (maybe fields' key check) :=
  h.optional.defaulted hget

theorem Tolerant.required (h : Tolerant check)
    (hget : Option.Rel Sheds (Fields.get? fields key) (Fields.get? fields' key)) :
    (required fields key check).Keeps (required fields' key check) := by
  intro a ha
  obtain ⟨j, hj, hcheck⟩ := required_eq_valid.mp ha
  rw [hj] at hget
  generalize hj' : Fields.get? fields' key = o at hget
  cases hget with
  | some hshed =>
    obtain ⟨b, hb⟩ := h _ _ hshed a hcheck
    exact ⟨b, required_eq_valid.mpr ⟨_, hj', hb⟩⟩

theorem tolerant_elementRef : Tolerant elementRef := by
  intro j j' h
  refine keeps_model h ?_
  intro fields fields' _ hs
  have hid := hs.titled "id" (by decide)
  have htype := hs.titled "type" (by decide)
  have hname := hs.titled "name" (by decide)
  exact ((hid.map _ _).seq htype).seq hname

theorem keeps_referenceLinkFields (h : Sheds (.obj fields) (.obj fields')) :
    (referenceLinkFields fields).Keeps (referenceLinkFields fields') := by
  have hid := h.titled "id" (by decide)
  have hproperty := tolerant_text.required (h.others "property" (by decide))
  have helement := tolerant_elementRef.maybe (h.others "element" (by decide))
  exact ((hid.map _ _).seq hproperty).seq helement

theorem tolerant_referenceLink : Tolerant referenceLink :=
  fun _ _ h => keeps_model h fun _ _ _ hs => keeps_referenceLinkFields hs

theorem tolerant_associationEnd : Tolerant associationEnd := by
  intro j j' h
  refine keeps_model h ?_
  intro fields fields' _ hs
  have hobject := tolerant_referenceLink.maybe (hs.others "data_object" (by decide))
  exact ((keeps_referenceLinkFields hs).map _ _).seq hobject

theorem tolerant_association : Tolerant association := by
  intro j j' h
  refine keeps_model h ?_
  intro fields fields' _ hs
  have hsource := tolerant_associationEnd.maybe (hs.others "source" (by decide))
  have htarget := tolerant_associationEnd.maybe (hs.others "target" (by decide))
  exact (hsource.map _ _).seq htarget

theorem keeps_dataParameterWith {given given' : Checked Association} (h : given.Keeps given')
    (titled : ∀ key ∈ titles, (maybeText fields key).Keeps (maybeText fields' key)) :
    (dataParameterWith given fields).Keeps (dataParameterWith given' fields') := by
  have hid := titled "id" (by decide)
  have htype := titled "type" (by decide)
  have hname := titled "name" (by decide)
  exact ((((hid.map _ _).seq htype).seq hname).seq h).seq (.to_valid _)

theorem tolerant_parameterBehaviour : Tolerant parameterBehaviour :=
  fun _ _ h => keeps_model h fun _ _ _ hs => tolerant_association.defaulted (hs.others _ (by decide))

theorem tolerant_dataParameter : Tolerant dataParameter := by
  intro j j' h
  refine keeps_model h ?_
  intro fields fields' _ hs
  refine keeps_dataParameterWith ?_ hs.titled
  exact tolerant_parameterBehaviour.defaulted (hs.others _ (by decide))

theorem tolerant_resource : Tolerant resource := by
  intro j j' h
  refine keeps_model h ?_
  intro fields fields' _ hs
  have htype := hs.titled "type" (by decide)
  have hexpression := tolerant_text.maybe (hs.others "expression" (by decide))
  have hbehaviour : (defaulted fields "behaviour" [] object).Keeps
      (defaulted fields' "behaviour" [] object) :=
    tolerant_object.defaulted (hs.others _ (by decide))
  exact ((htype.map _ _).seq hexpression).seq hbehaviour

/-- What may be read as a member has lost titles at most; other fields may differ. -/
def MembersShed (fields fields' : List (String × Json)) : Prop :=
  ∀ m : Member, ∀ key ∈ [m.key, m.secondKey],
    Option.Rel Sheds (Fields.get? fields key) (Fields.get? fields' key)

theorem membersShed_of_sheds (h : Sheds (.obj fields) (.obj fields')) : MembersShed fields fields' := by
  intro m key hkey
  apply h.others
  cases m <;> revert key <;> decide

namespace MembersShed

variable {m : Member}

theorem keyIn_eq (h : MembersShed fields fields') (m : Member) : m.keyIn fields = m.keyIn fields' := by
  have hfirst := h m m.key (by simp)
  have hhas : Fields.has fields m.key = Fields.has fields' m.key := by
    rw [Fields.has_eq, Fields.has_eq]
    generalize Fields.get? fields m.key = o, Fields.get? fields' m.key = o' at hfirst
    cases hfirst <;> rfl
  rw [Member.keyIn, Member.keyIn, hhas]

theorem keeps_member (h : MembersShed fields fields') (hcheck : ∀ j j',
      Fields.get? fields (m.keyIn fields) = some j → Sheds j j' → (check j).Keeps (check j')) :
    (member fields m check).Keeps (member fields' m check) := by
  have hmem : m.keyIn fields ∈ [m.key, m.secondKey] := by
    rw [Member.keyIn]
    split <;> simp
  have hget := h m _ hmem
  rw [member, member, ← h.keyIn_eq m]
  apply keeps_defaulted
  generalize Fields.get? fields (m.keyIn fields) = o, Fields.get? fields' (m.keyIn fields) = o'
    at hget hcheck
  cases hget with
  | none => exact .none
  | some hj =>
    refine .some (keeps_optional ?_ (hcheck _ _ rfl hj))
    rintro rfl
    exact hj.null

theorem member (h : MembersShed fields fields') (ht : Tolerant check) :
    (member fields m check).Keeps (Check.member fields' m check) :=
  h.keeps_member fun j j' _ hj => ht j j' hj

end MembersShed

variable {mode : Mode}

/-- A bundle is read without titles when the definitions in it are. -/
theorem keeps_behaviourFields_of (h : MembersShed fields fields') (below : ∀ j j',
      sizeOf j < sizeOf fields → Sheds j j' → (behaviourDefinition mode j).Keeps (behaviourDefinition mode j')) :
    (behaviourFields mode fields).Keeps (behaviourFields mode fields') := by
  have hevents : (member fields .eventDefinitions (list (behaviourDefinition mode))).Keeps
      (member fields' .eventDefinitions (list (behaviourDefinition mode))) := by
    refine h.keeps_member ?_
    intro j j' hj hsheds
    refine keeps_list hsheds ?_
    intro item item' hitem
    exact below item item' (Nat.lt_trans hitem (sizeOf_get? hj))
  have hsingle (m : Member) : (member fields m (behaviourDefinition mode)).Keeps
      (member fields' m (behaviourDefinition mode)) :=
    h.keeps_member fun j j' hj hsheds => below j j' (sizeOf_get? hj) hsheds
  rw [behaviourFields_eq, behaviourFields_eq]
  refine ((((hevents.map _ _).seq (hsingle _)).seq (hsingle _)).seq ?_).seq (.to_valid _)
  exact (((h.member tolerant_resource.list).map _ _).seq (h.member tolerant_elementRef)
    |>.seq (h.member tolerant_dataParameter.list)).seq (h.member tolerant_dataParameter.list)

theorem tolerant_behaviourDefinition : Tolerant (behaviourDefinition mode) := by
  intro j j' h
  -- On the size of what is read: the bundle of a definition and the definitions in it are smaller.
  induction hsize : sizeOf j using Nat.strongRecOn generalizing j j' with
  | ind size ih =>
  rw [behaviourDefinition_eq, behaviourDefinition_eq]
  refine keeps_model h ?_
  rintro fields fields' rfl hs
  have htype := hs.titled "type" (by decide)
  refine (htype.map _ _).seq (keeps_defaulted ?_)
  have hget := hs.others "behaviour" (by decide)
  generalize hbehaviour : Fields.get? fields "behaviour" = o, Fields.get? fields' "behaviour" = o' at hget
  cases hget with
  | none => exact .none
  | @some bundle bundle' hbundle =>
    refine .some (keeps_model hbundle ?_)
    rintro inner inner' rfl hinner
    refine keeps_behaviourFields_of (membersShed_of_sheds hinner) ?_
    intro j j' hj hsheds
    have hless := sizeOf_get? hbehaviour
    simp only [Json.obj.sizeOf_spec] at hless hsize
    exact ih (sizeOf j) (by omega) j j' hsheds rfl

theorem MembersShed.keeps_behaviourFields (h : MembersShed fields fields') :
    (behaviourFields mode fields).Keeps (behaviourFields mode fields') :=
  keeps_behaviourFields_of h fun j j' _ hj => tolerant_behaviourDefinition j j' hj

/-- A bundle some members of which are given. -/
theorem MembersShed.keeps_behaviourWith (h : MembersShed fields fields')
    (events events' : Option (List BehaviourDefinition)) (loop loop' io io' : Option BehaviourDefinition)
    (resources resources' : Option (List Resource)) :
    (behaviourWith events loop io resources fields).Keeps
      (behaviourWith events' loop' io' resources' fields') := by
  have hattachments := ((((Checked.Keeps.to_valid (c := .valid resources) resources').map
    Attachments.mk Attachments.mk).seq (h.member (m := .attachedTo) tolerant_elementRef)).seq
      (h.member (m := .dataInputs) tolerant_dataParameter.list)).seq
        (h.member (m := .dataOutputs) tolerant_dataParameter.list)
  exact (hattachments.map _ _).seq (.to_valid _)

end Check

end Bpmn
