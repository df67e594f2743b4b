import Bpmn.Document.Source
import Bpmn.Mapping.Bundle
import Bpmn.Proofs.Beside
import Bpmn.Proofs.Document.Unfolding
import Bpmn.Proofs.Mapping.PlainLinks

namespace Bpmn

namespace Graph

/-- Two values hold the same tree, none of them in a deeper way than its graph has room for. -/
def Mirrors (g g' : Graph) (v v' : Value) : Prop :=
  ∃ j, g.UnfoldsIn g.contents.size v j ∧ g'.UnfoldsIn g'.contents.size v' j

variable {g g' : Graph} {v v' w w' : Value} {place place' : Nat} {key : String}

theorem UnfoldsIn.mirrors {depth depth' : Nat} {j : Json} (h : g.UnfoldsIn depth v j)
    (h' : g'.UnfoldsIn depth' v' j) (hsize : depth ≤ g.contents.size)
    (hsize' : depth' ≤ g'.contents.size) : g.Mirrors g' v v' :=
  ⟨j, h.mono hsize, h'.mono hsize'⟩

/-- Only null is the same as null. -/
theorem same_null (g : Graph) (v : Value) : g.same v .null = .ok v.isNull := by
  have hnumber (n : Number) : Json.sameKey (.num n) .null = false := by
    cases n with
    | int i => rfl
    | float b => cases b <;> rfl
  cases v with
  | num n =>
    rw [same]
    split
    · rfl
    · simp [alike, Value.sameKey, Value.plain, hnumber, Value.isNull]
  | _ => rfl

namespace Mirrors

theorem symm (h : g.Mirrors g' v v') : g'.Mirrors g v' v := by
  obtain ⟨j, hj, hj'⟩ := h
  exact ⟨j, hj', hj⟩

theorem plain (h : v.isPlain = true) : g.Mirrors g' v v :=
  ⟨v.plain, (unfoldsIn_plain h).mpr rfl, (unfoldsIn_plain h).mpr rfl⟩

theorem null : g.Mirrors g' .null .null := plain rfl

theorem eq_of_plain (hv : v.isPlain = true) (hv' : v'.isPlain = true) (h : v.plain = v'.plain) :
    v = v' := by
  cases v <;> cases v' <;> simp_all [Value.plain, Value.isPlain]

/-- Values that hold the same tree are the same plain value, or lists or objects whose parts do. -/
theorem cases (h : g.Mirrors g' v v') : (v.isPlain = true ∧ v = v') ∨
    (∃ place place', v = .list place ∧ v' = .list place' ∧
      List.Forall₂ (g.Mirrors g') (g.listed place) (g'.listed place')) ∨
    ∃ place place', v = .node place ∧ v' = .node place' ∧
      Fields.Match (g.Mirrors g') (g.fields place) (g'.fields place') := by
  obtain ⟨j, hj, hj'⟩ := h
  cases j with
  | arr items =>
    obtain ⟨place, below, rfl, hle, hitems⟩ := hj.of_arr
    obtain ⟨place', below', rfl, hle', hitems'⟩ := hj'.of_arr
    refine .inr (.inl ⟨place, place', rfl, rfl, ?_⟩)
    refine (forall₂_of_common hitems hitems').imp fun v v' ⟨_, hv, hv'⟩ => ?_
    exact hv.mirrors hv' hle hle'
  | obj fields =>
    obtain ⟨place, below, rfl, hle, hfields⟩ := hj.of_obj
    obtain ⟨place', below', rfl, hle', hfields'⟩ := hj'.of_obj
    refine .inr (.inr ⟨place, place', rfl, rfl, ?_⟩)
    refine (forall₂_of_common hfields hfields').imp fun p p' ⟨_, hp, hp'⟩ => ?_
    exact ⟨hp.1.trans hp'.1.symm, hp.2.mirrors hp'.2 hle hle'⟩
  | _ =>
    obtain ⟨hplain, hv⟩ := hj.of_leaf (by simp) (by simp)
    obtain ⟨hplain', hv'⟩ := hj'.of_leaf (by simp) (by simp)
    exact .inl ⟨hplain, eq_of_plain hplain hplain' (hv.symm.trans hv')⟩

/-- What does not look into lists and objects cannot tell values apart that hold the same tree. -/
theorem shape_eq {α : Type} {f : Value → α} (h : g.Mirrors g' v v')
    (hlist : ∀ p q, f (.list p) = f (.list q)) (hnode : ∀ p q, f (.node p) = f (.node q)) :
    f v = f v' := by
  rcases h.cases with ⟨-, rfl⟩ | ⟨p, q, rfl, rfl, -⟩ | ⟨p, q, rfl, rfl, -⟩
  · rfl
  · exact hlist p q
  · exact hnode p q

theorem isNull_eq (h : g.Mirrors g' v v') : v.isNull = v'.isNull :=
  h.shape_eq (fun _ _ => rfl) fun _ _ => rfl

theorem isText_eq (h : g.Mirrors g' v v') (text : String) : v.isText text = v'.isText text :=
  h.shape_eq (f := fun v => v.isText text) (fun _ _ => rfl) fun _ _ => rfl

theorem text_eq (h : g.Mirrors g' v v') (name : String) : v.text name = v'.text name :=
  h.shape_eq (f := fun v => v.text name) (fun _ _ => rfl) fun _ _ => rfl

theorem asKey_eq (h : g.Mirrors g' v v') : v.asKey = v'.asKey :=
  h.shape_eq (fun _ _ => rfl) fun _ _ => rfl

theorem isOneOf_eq (h : g.Mirrors g' v v') (texts : List String) : v.isOneOf texts = v'.isOneOf texts :=
  h.shape_eq (f := fun v => v.isOneOf texts) (fun _ _ => rfl) fun _ _ => rfl

theorem eq_of_isName (h : g.Mirrors g' v v') (hname : v.isName = true) : v = v' := by
  rcases h.cases with ⟨-, rfl⟩ | ⟨p, q, rfl, rfl, -⟩ | ⟨p, q, rfl, rfl, -⟩
  · rfl
  · cases hname
  · cases hname

/-- Comparisons with a name have the same answer. -/
theorem same_eq (h : g.Mirrors g' v v') (hw : g.Mirrors g' w w') (hname : w.isName = true) :
    g.same v w = g'.same v' w' := by
  obtain rfl := hw.eq_of_isName hname
  rcases Value.isName_iff.mp hname with rfl | ⟨s, rfl⟩
  · rw [same_null, same_null, h.isNull_eq]
  · rw [same_text, same_text, h.isText_eq]

theorem isEmpty_eq {α β : Type} {R : α → β → Prop} {l : List α} {l' : List β} (h : List.Forall₂ R l l') :
    l.isEmpty = l'.isEmpty := by
  cases h <;> rfl

theorem truthy_eq (h : g.Mirrors g' v v') : g.truthy v = g'.truthy v' := by
  rcases h.cases with ⟨hplain, rfl⟩ | ⟨p, q, rfl, rfl, hitems⟩ | ⟨p, q, rfl, rfl, hfields⟩
  · cases v <;> first | rfl | cases hplain
  · rw [truthy, truthy, isEmpty_eq hitems]
  · rw [truthy, truthy, isEmpty_eq hfields]

theorem orAbsent (h : g.Mirrors g' v v') : Option.Rel (g.Mirrors g') (g.orAbsent v) (g'.orAbsent v') := by
  rw [Graph.orAbsent, Graph.orAbsent, h.truthy_eq]
  split
  · exact .some h
  · exact .none

theorem nonNull? (h : g.Mirrors g' v v') : Option.Rel (g.Mirrors g') v.nonNull? v'.nonNull? := by
  rcases h.cases with ⟨hplain, rfl⟩ | ⟨p, q, rfl, rfl, -⟩ | ⟨p, q, rfl, rfl, -⟩
  · cases v <;> first | exact .none | exact .some h
  · exact .some h
  · exact .some h

theorem getD {o o' : Option Value} (h : Option.Rel (g.Mirrors g') o o') (hw : g.Mirrors g' w w') :
    g.Mirrors g' (o.getD w) (o'.getD w') := by
  cases h with
  | none => exact hw
  | some h => exact h

theorem fields (h : g.Mirrors g' (.node place) (.node place')) :
    Fields.Match (g.Mirrors g') (g.fields place) (g'.fields place') := by
  rcases h.cases with ⟨hplain, -⟩ | ⟨p, q, hlist, -, -⟩ | ⟨p, q, hp, hq, hfields⟩
  · cases hplain
  · cases hlist
  · obtain rfl := Value.node.inj hp
    obtain rfl := Value.node.inj hq
    exact hfields

theorem field (h : g.Mirrors g' (.node place) (.node place')) (key : String) :
    g.Mirrors g' (g.field place key) (g'.field place' key) :=
  getD (h.fields.get? key) null

theorem placeOf (h : g.Mirrors g' v v') :
    Carries (fun p q => g.Mirrors g' (.node p) (.node q)) (placeOf v) (placeOf v') := by
  rcases h.cases with ⟨hplain, rfl⟩ | ⟨p, q, rfl, rfl, -⟩ | ⟨p, q, rfl, rfl, -⟩
  · cases v <;> first | exact .error | cases hplain
  · exact .error
  · exact .ok h

theorem get (h : g.Mirrors g' v v') (key : String) :
    Carries (g.Mirrors g') (g.get v key) (g'.get v' key) :=
  .bind h.placeOf fun _ _ _ _ hplace => .ok (hplace.field key)

theorem forall₂_plain {l : List Value} (h : ∀ v ∈ l, v.isPlain = true) :
    List.Forall₂ (g.Mirrors g') l l := by
  induction l with
  | nil => exact .nil
  | cons v rest ih =>
    exact .cons (plain (h v List.mem_cons_self)) (ih fun w hw => h w (List.mem_cons_of_mem _ hw))

theorem items (h : g.Mirrors g' v v') :
    Carries (List.Forall₂ (g.Mirrors g')) (g.items v) (g'.items v') := by
  rcases h.cases with ⟨hplain, rfl⟩ | ⟨p, q, rfl, rfl, hitems⟩ | ⟨p, q, rfl, rfl, hfields⟩
  · cases v with
    | str s =>
      apply Carries.ok
      apply forall₂_plain
      simp [Value.isPlain]
    | list p => cases hplain
    | node p => cases hplain
    | _ => exact .error
  · exact .ok hitems
  · rw [Graph.items, Graph.items, hfields.keys_eq]
    apply Carries.ok
    apply forall₂_plain
    simp [Value.isPlain]

theorem itemsOrNone (h : g.Mirrors g' v v') :
    Carries (List.Forall₂ (g.Mirrors g')) (g.itemsOrNone v) (g'.itemsOrNone v') := by
  have habsent := h.orAbsent
  rw [Graph.itemsOrNone, Graph.itemsOrNone]
  generalize g.orAbsent v = o, g'.orAbsent v' = o' at habsent
  cases habsent with
  | none => exact .ok .nil
  | some h => exact h.items

theorem typeOf (h : g.Mirrors g' v v') : Carries (g.Mirrors g') (g.typeOf v) (g'.typeOf v') := by
  have hget := h.get "$type"
  rcases h.cases with ⟨hplain, rfl⟩ | ⟨p, q, rfl, rfl, -⟩ | ⟨p, q, rfl, rfl, -⟩
  · cases v with
    | null => exact .ok null
    | _ => exact hget
  · exact hget
  · exact hget

theorem unfold_eq (h : g.Mirrors g' v v') : g.unfold v = g'.unfold v' := by
  obtain ⟨j, hj, hj'⟩ := h
  rw [hj.unfold (Nat.le_refl _), hj'.unfold (Nat.le_refl _)]

theorem ownFieldsAt_eq (h : g.Mirrors g' (.node place) (.node place')) :
    g.ownFieldsAt place = g'.ownFieldsAt place' := by
  obtain ⟨j, hj, hj'⟩ := h
  obtain ⟨fields, rfl, hown⟩ := hj.ownFieldsAt (Nat.le_refl _)
  obtain ⟨fields', hsame, hown'⟩ := hj'.ownFieldsAt (Nat.le_refl _)
  rw [hown, hown', Json.obj.inj hsame]

theorem ownFields (h : g.Mirrors g' v v') : Carries Eq (g.ownFields v) (g'.ownFields v') := by
  have habsent := h.orAbsent
  rw [Graph.ownFields, Graph.ownFields]
  generalize g.orAbsent v = o, g'.orAbsent v' = o' at habsent
  cases habsent with
  | none => exact .ok rfl
  | some h => exact .bind h.placeOf fun _ _ _ _ hplace => .of_eq hplace.ownFieldsAt_eq

section Texts

variable (h : g.Mirrors g' (.node place) (.node place'))

include h

theorem idText_eq : g.idText place = g'.idText place' := (h.field "id").text_eq "id"

theorem typeText_eq : g.typeText place = g'.typeText place' := (h.field "$type").text_eq "type"

theorem nameText_eq : g.nameText place = g'.nameText place' := (h.field "name").text_eq "name"

theorem elementRefAt_eq : g.elementRefAt place = g'.elementRefAt place' := by
  rw [elementRefAt, elementRefAt, h.idText_eq, h.typeText_eq, h.nameText_eq]

end Texts

theorem spread_eq (h : g.Mirrors g' v v') : g.spread v = g'.spread v' := by
  rw [spread, spread]
  rcases h.cases with ⟨hplain, rfl⟩ | ⟨p, q, rfl, rfl, -⟩ | ⟨p, q, rfl, rfl, -⟩
  · cases v <;> first | rfl | cases hplain
  · rfl
  · rw [elementRef, elementRef, h.elementRefAt_eq]

theorem spreadFields (h : g.Mirrors g' (.node place) (.node place')) :
    Carries Eq (g.spreadFields place) (g'.spreadFields place') := by
  refine .bind_eq (.of_eq h.ownFieldsAt_eq) ?_
  intro own _
  refine .bind (.mapM_eq (h.fields.filter Key.isRef) ?_) ?_
  · intro p p' _ hp
    obtain ⟨key, v⟩ := p
    obtain ⟨key', v'⟩ := p'
    obtain ⟨rfl, hv⟩ : key = key' ∧ g.Mirrors g' v v' := hp
    apply Carries.of_eq
    dsimp only
    rw [hv.spread_eq]
  · rintro spread _ - - rfl
    exact .ok rfl

theorem bodyOf (h : g.Mirrors g' v v') : g.Mirrors g' (g.bodyOf v) (g'.bodyOf v') := by
  have hplace := h
  rcases h.cases with ⟨hplain, rfl⟩ | ⟨p, q, rfl, rfl, -⟩ | ⟨p, q, rfl, rfl, -⟩
  · cases v <;> first | exact null | cases hplain
  · exact null
  · exact h.field "body"

theorem bodyAt_eq (h : g.Mirrors g' (.node place) (.node place')) (key : String) :
    g.bodyAt place key = g'.bodyAt place' key :=
  (h.field key).bodyOf.unfold_eq

end Mirrors

end Graph

section Source

variable {g g' : Graph} {v v' : Value}

/-- The same keys in the same order, under which mirrored values are found. -/
def Index.Mirrors (g g' : Graph) (index index' : Index) : Prop :=
  List.Forall₂ (fun e e' => e.1 = e'.1 ∧ g.Mirrors g' e.2 e'.2) index index'

namespace Index.Mirrors

variable {index index' : Index} {parts parts' : List Value}

theorem find (h : Index.Mirrors g g' index index') (key : Value) :
    g.Mirrors g' (index.find key) (index'.find key) := by
  have hfound : Option.Rel _ (List.find? (fun e => e.1.sameKey key) index)
      (List.find? (fun e => e.1.sameKey key) index') :=
    rel_find? h fun e e' he => by rw [he.1]
  rw [Index.find, Index.find]
  generalize List.find? (fun e => e.1.sameKey key) index = o,
    List.find? (fun e => e.1.sameKey key) index' = o' at hfound
  cases hfound with
  | none => exact .null
  | some he => exact he.2

theorem put (h : Index.Mirrors g g' index index') (key : Value) (hv : g.Mirrors g' v v') :
    Index.Mirrors g g' (index.put key v) (index'.put key v') := by
  induction h with
  | nil => exact .cons ⟨rfl, hv⟩ .nil
  | @cons e e' _ _ he hrest ih =>
    obtain ⟨k, w⟩ := e
    obtain ⟨k', w'⟩ := e'
    obtain ⟨rfl, hw⟩ : k = k' ∧ g.Mirrors g' w w' := he
    rw [Index.put, Index.put]
    split
    · exact .cons ⟨rfl, hv⟩ hrest
    · exact .cons ⟨rfl, hw⟩ ih

theorem ofFields {fields fields' : Fields Value} (h : Fields.Match (g.Mirrors g') fields fields') :
    Index.Mirrors g g' (.ofFields fields) (.ofFields fields') := by
  rw [Index.Mirrors, Index.ofFields, Index.ofFields, List.forall₂_map_left_iff,
    List.forall₂_map_right_iff]
  exact h.imp fun _ _ hp => ⟨congrArg Value.str hp.1, hp.2⟩

theorem addPair (h : Index.Mirrors g g' index index') (place : Nat) (hv : g.Mirrors g' v v') :
    Carries (Index.Mirrors g g') (Index.addPair g index place v) (Index.addPair g' index' place v') := by
  refine .bind hv.items ?_
  intro parts parts' _ _ hparts
  rcases hparts with _ | ⟨hkey, _ | ⟨hvalue, _ | _⟩⟩
  · exact .error
  · exact .error
  · refine .bind_eq (.of_eq hkey.asKey_eq) ?_
    intro key _
    exact .ok (h.put key hvalue)
  · exact .error

theorem addPairs (h : Index.Mirrors g g' index index') (hparts : List.Forall₂ (g.Mirrors g') parts parts')
    (place : Nat) :
    Carries (Index.Mirrors g g') (Index.addPairs g index place parts)
      (Index.addPairs g' index' place parts') := by
  induction hparts generalizing index index' place with
  | nil => exact .ok h
  | cons hv _ ih =>
    refine .bind (h.addPair place hv) ?_
    intro next next' _ _ hnext
    exact ih hnext (place + 1)

theorem ofValue (h : g.Mirrors g' v v') :
    Carries (Index.Mirrors g g') (Index.ofValue g v) (Index.ofValue g' v') := by
  have habsent := h.orAbsent
  rw [Index.ofValue, Index.ofValue]
  generalize g.orAbsent v = o, g'.orAbsent v' = o' at habsent
  cases habsent with
  | none => exact .ok .nil
  | @some w w' hw =>
    have hpairs : Carries (Index.Mirrors g g') (do Index.addPairs g .empty 0 (← g.items w))
        (do Index.addPairs g' .empty 0 (← g'.items w')) :=
      .bind hw.items fun _ _ _ _ hparts => addPairs .nil hparts 0
    rcases hw.cases with ⟨hplain, rfl⟩ | ⟨p, q, rfl, rfl, -⟩ | ⟨p, q, rfl, rfl, hfields⟩
    · cases w <;> first | exact hpairs | cases hplain
    · exact hpairs
    · exact .ok (ofFields hfields)

end Index.Mirrors

/-- Records whose parts hold the same trees. -/
structure ReferenceRecord.Mirrors (g g' : Graph) (r r' : ReferenceRecord) : Prop where
  property : g.Mirrors g' r.property r'.property
  id : g.Mirrors g' r.id r'.id
  element : g.Mirrors g' r.element r'.element

theorem ReferenceRecord.Mirrors.ofValue (h : g.Mirrors g' v v') :
    Carries (ReferenceRecord.Mirrors g g') (ReferenceRecord.ofValue g v)
      (ReferenceRecord.ofValue g' v') := by
  rcases h.cases with ⟨hplain, rfl⟩ | ⟨p, q, rfl, rfl, -⟩ | ⟨p, q, rfl, rfl, hfields⟩
  · cases v <;> first | exact .error | cases hplain
  · exact .error
  · exact .ok ⟨.getD (hfields.get? _) (.plain rfl), .getD (hfields.get? _) .null,
      .getD (hfields.get? _) .null⟩

/-- Source documents whose parts hold the same trees. -/
structure Source.Mirrors (g g' : Graph) (s s' : Source) : Prop where
  root : g.Mirrors g' s.root s'.root
  elements : Index.Mirrors g g' s.elements s'.elements
  references : List.Forall₂ (ReferenceRecord.Mirrors g g') s.references s'.references

namespace Source.Mirrors

/-- A root is taken when there is one. -/
theorem unlessNull {f f' : Except Fault Value} (hf : Carries (g.Mirrors g') f f') : g.Mirrors g' v v' →
    Carries (g.Mirrors g') (match v with | .null => f | root => return root)
      (match v' with | .null => f' | root => return root) := by
  intro h
  rcases h.cases with ⟨hplain, rfl⟩ | ⟨p, q, rfl, rfl, -⟩ | ⟨p, q, rfl, rfl, -⟩
  · cases v <;> first | exact hf | exact .ok h
  · exact .ok h
  · exact .ok h

theorem rootOf (h : g.Mirrors g' v v') :
    Carries (g.Mirrors g') (Source.rootOf g v) (Source.rootOf g' v') := by
  refine .bind (h.get _) ?_
  intro root root' _ _ hroot
  refine unlessNull (.bind (h.get _) ?_) hroot
  intro handler handler' _ _ hhandler
  have habsent := hhandler.orAbsent
  generalize g.orAbsent handler = o, g'.orAbsent handler' = o' at habsent
  cases habsent with
  | none => exact .error
  | some hhandler =>
    refine .bind (hhandler.get _) ?_
    intro root root' _ _ hroot
    exact unlessNull .error hroot

theorem ofValue (h : g.Mirrors g' v v') :
    Carries (Source.Mirrors g g') (Source.ofValue g v) (Source.ofValue g' v') := by
  refine .bind (rootOf h) ?_
  intro root root' _ _ hroot
  refine .bind (h.get _) ?_
  intro references references' _ _ hreferences
  refine .bind hreferences.itemsOrNone ?_
  intro items items' _ _ hitems
  refine .bind (.mapM hitems fun _ _ _ hv => ReferenceRecord.Mirrors.ofValue hv) ?_
  intro records records' _ _ hrecords
  refine .bind (h.get _) ?_
  intro elements elements' _ _ helements
  refine .bind (Index.Mirrors.ofValue helements) ?_
  intro index index' _ _ hindex
  exact .ok ⟨hroot, hindex, hrecords⟩

end Source.Mirrors

end Source

end Bpmn
