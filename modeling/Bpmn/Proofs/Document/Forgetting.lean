import Bpmn.Document.Source
import Bpmn.Proofs.Beside
import Bpmn.Proofs.Document.Trees
import Bpmn.Proofs.Mapping.PlainLinks
import Bpmn.Proofs.Model.Shedding

namespace Bpmn

namespace Fields

variable {α β : Type} {R : α → β → Prop} {fields other base base' : Fields α} {key : String}

theorem get?_update_of_notMem (h : key ∉ other.keys) :
    (fields.update other).get? key = fields.get? key := by
  induction other generalizing fields with
  | nil => rfl
  | cons field rest ih =>
    obtain ⟨k, v⟩ := field
    rw [keys, List.map_cons, List.mem_cons, not_or] at h
    obtain ⟨hk, hrest⟩ := h
    change ((fields.put k v).update rest).get? key = _
    rw [ih hrest, get?_put, if_neg hk]

theorem get?_update_without {names : List String} (h : key ∉ names)
    (hbase : base.get? key = base'.get? key) :
    (base.update (other.without names)).get? key = (base'.update other).get? key := by
  induction other generalizing base base' with
  | nil => exact hbase
  | cons field rest ih =>
    obtain ⟨k, v⟩ := field
    change _ = ((base'.put k v).update rest).get? key
    by_cases hk : k ∈ names
    · have hne : key ≠ k := fun hkey => h (hkey ▸ hk)
      have hdrop : without ((k, v) :: rest) names = without rest names := by simp [without, hk]
      rw [hdrop]
      apply ih
      rw [get?_put, if_neg hne, hbase]
    · have hkeep : without ((k, v) :: rest) names = (k, v) :: without rest names := by simp [without, hk]
      rw [hkeep]
      change ((base.put k v).update (without rest names)).get? key = _
      apply ih
      rw [get?_put, get?_put, hbase]

theorem Match.get?_update {others base' : Fields β} (h : Match R fields others)
    (hbase : Option.Rel R (base.get? key) (base'.get? key)) :
    Option.Rel R ((base.update fields).get? key) ((base'.update others).get? key) := by
  induction h generalizing base base' with
  | nil => exact hbase
  | @cons p q rest rest' hp _ ih =>
    obtain ⟨k, v⟩ := p
    obtain ⟨k', w⟩ := q
    obtain ⟨rfl, hvw⟩ : k = k' ∧ R v w := hp
    change Option.Rel R (((base.put k v).update rest).get? key) (((base'.put k w).update rest').get? key)
    apply ih
    rw [get?_put, get?_put]
    split
    · exact .some hvw
    · exact hbase

end Fields

namespace Json

/-- The same fields in the same order, whose values have lost titles at most; the identifier may be
missing. -/
def FieldsShed (fields fields' : List (String × Json)) : Prop :=
  Fields.Match Sheds fields fields' ∨ Fields.Match Sheds (Fields.without fields ["id"]) fields'

namespace FieldsShed

variable {fields fields' base base' : List (String × Json)} {key : String}

theorem get? (h : FieldsShed fields fields') (hkey : key ≠ "id") :
    Option.Rel Sheds (Fields.get? fields key) (Fields.get? fields' key) := by
  rcases h with h | h
  · exact h.get? key
  · rw [← Fields.get?_without (by simpa using hkey : key ∉ ["id"])]
    exact h.get? key

theorem titled (h : FieldsShed fields fields') (key : String) :
    (Check.maybeText fields key).Keeps (Check.maybeText fields' key) := by
  rcases h with h | h
  · exact Check.tolerant_text.maybe (h.get? key)
  by_cases hkey : key = "id"
  · have hnone : Fields.get? fields' key = none := by
      rw [Fields.get?_eq_none, ← h.keys_eq, hkey]
      exact Fields.notMem_keys_without (by simp)
    rw [Check.maybeText, Check.maybeText, Check.maybe, Check.maybe, Check.defaulted, Check.defaulted, hnone]
    exact .to_valid none
  · exact Check.tolerant_text.maybe (get? (.inr h) hkey)

theorem sheds (h : FieldsShed fields fields') : Sheds (.obj fields) (.obj fields') := by
  refine .obj (fun key _ => h.titled key) ?_
  intro key hkey
  apply h.get?
  rintro rfl
  exact hkey (by decide)

theorem get?_update (h : FieldsShed fields fields') (hkey : key ≠ "id")
    (hbase : Option.Rel Sheds (Fields.get? base key) (Fields.get? base' key)) :
    Option.Rel Sheds (Fields.get? (Fields.update base fields) key)
      (Fields.get? (Fields.update base' fields') key) := by
  rcases h with h | h
  · exact h.get?_update hbase
  · rw [← Fields.get?_update_without (by simpa using hkey : key ∉ ["id"]) rfl]
    exact h.get?_update hbase

/-- The members of a bundle whose own fields win over some others. -/
theorem membersShed (h : FieldsShed fields fields') (hbase : Check.MembersShed base base') :
    Check.MembersShed (Fields.update base fields) (Fields.update base' fields') := by
  intro m key hkey
  refine h.get?_update ?_ (hbase m key hkey)
  rintro rfl
  cases m <;> simp [Bpmn.Member.key, Bpmn.Member.secondKey] at hkey

end FieldsShed

end Json

def Content.withoutId : Content → Content
  | .list items => .list items
  | .object fields => .object (Fields.without fields ["id"])

namespace Graph

/-- The document in which the objects at some places have no identifier. -/
def forgetIds (g : Graph) (places : List Nat) : Graph :=
  ⟨g.contents.mapIdx fun place content => if place ∈ places then content.withoutId else content⟩

/-- The second document is the first but for some identifiers, and nothing has become empty. -/
structure Forgets (g g' : Graph) : Prop where
  size : g'.contents.size = g.contents.size
  listed : ∀ place, g'.listed place = g.listed place
  fields : ∀ place, g'.fields place = g.fields place ∨
    g'.fields place = Fields.without (g.fields place) ["id"]
  filled : ∀ place, g'.fields place = [] → g.fields place = []

variable {g g' : Graph} {v : Value} {place : Nat} {key : String}

theorem listed_forgetIds (places : List Nat) (place : Nat) :
    (g.forgetIds places).listed place = g.listed place := by
  rw [listed, listed, forgetIds, Array.getElem?_mapIdx]
  cases g.contents[place]? with
  | none => rfl
  | some content => cases content <;> by_cases h : place ∈ places <;> simp [h, Content.withoutId]

theorem fields_forgetIds (places : List Nat) (place : Nat) :
    (g.forgetIds places).fields place =
      if place ∈ places then Fields.without (g.fields place) ["id"] else g.fields place := by
  rw [fields, fields, forgetIds, Array.getElem?_mapIdx]
  cases g.contents[place]? with
  | none => simp [Fields.without]
  | some content =>
    cases content <;> by_cases h : place ∈ places <;> simp [h, Content.withoutId, Fields.without]

theorem forgets_forgetIds {places : List Nat}
    (hfilled : ∀ place ∈ places, ∃ key ∈ Fields.keys (g.fields place), key ≠ "id") :
    g.Forgets (g.forgetIds places) where
  size := by simp [forgetIds]
  listed := listed_forgetIds places
  fields place := by
    rw [fields_forgetIds]
    split
    · exact .inr rfl
    · exact .inl rfl
  filled place hempty := by
    rw [fields_forgetIds] at hempty
    split at hempty
    · next hmem =>
      obtain ⟨key, hkey, hne⟩ := hfilled place hmem
      obtain ⟨p, hp, rfl⟩ := List.mem_map.mp hkey
      have hleft : p ∈ Fields.without (g.fields place) ["id"] :=
        Fields.mem_without.mpr ⟨hp, by simpa using hne⟩
      rw [hempty] at hleft
      cases hleft
    · exact hempty

namespace Forgets

variable (h : g.Forgets g')

include h

theorem get?_eq (place : Nat) (hkey : key ≠ "id") :
    Fields.get? (g'.fields place) key = Fields.get? (g.fields place) key := by
  rcases h.fields place with heq | heq
  · rw [heq]
  · rw [heq, Fields.get?_without (by simpa using hkey)]

theorem field_eq (place : Nat) (hkey : key ≠ "id") : g'.field place key = g.field place key := by
  rw [field, field, h.get?_eq place hkey]

theorem field_id (place : Nat) :
    g'.field place "id" = g.field place "id" ∨ g'.field place "id" = .null := by
  rcases h.fields place with heq | heq
  · rw [field, field, heq]
    exact .inl rfl
  · have hnone : Fields.get? (g'.fields place) "id" = none := by
      rw [heq, Fields.get?_eq_none]
      exact Fields.notMem_keys_without (by simp)
    rw [field, hnone]
    exact .inr rfl

theorem isName_field (place : Nat) (hname : (g.field place key).isName = true) :
    (g'.field place key).isName = true := by
  by_cases hkey : key = "id"
  · subst hkey
    rcases h.field_id place with heq | heq
    · rw [heq]
      exact hname
    · rw [heq]
      rfl
  · rw [h.field_eq place hkey]
    exact hname

theorem truthy_eq (v : Value) : g'.truthy v = g.truthy v := by
  cases v with
  | list place => rw [truthy, truthy, h.listed]
  | node place =>
    rw [truthy, truthy, Bool.eq_iff_iff]
    simp only [Bool.not_eq_true', List.isEmpty_eq_false_iff, ne_eq, not_iff_not]
    constructor
    · exact h.filled place
    · intro hempty
      rcases h.fields place with heq | heq
      · rw [heq, hempty]
      · rw [heq, hempty]
        rfl
  | _ => rfl

theorem truthy_field_eq (place : Nat) (hkey : key ≠ "id") :
    g'.truthy (g'.field place key) = g.truthy (g.field place key) := by
  rw [h.field_eq place hkey, h.truthy_eq]

theorem orAbsent_eq (v : Value) : g'.orAbsent v = g.orAbsent v := by
  rw [orAbsent, orAbsent, h.truthy_eq]

theorem get_eq (v : Value) (hkey : key ≠ "id") : g'.get v key = g.get v key := by
  cases v with
  | node place => exact congrArg Except.ok (h.field_eq place hkey)
  | _ => rfl

/-- Items are the same unless an identifier is one of them. -/
theorem items_eq {items : List Value} (hitems : g.items v = .ok items) (hid : .str "id" ∉ items) :
    g'.items v = .ok items := by
  cases v with
  | list place =>
    rw [Graph.items, h.listed]
    exact hitems
  | node place =>
    rcases h.fields place with heq | heq
    · rw [Graph.items, heq]
      exact hitems
    · obtain rfl := Except.ok.inj hitems
      have hkeep : Fields.without (g.fields place) ["id"] = g.fields place := by
        apply Fields.without_of_disjoint
        intro key hkey hmem
        obtain rfl := List.mem_singleton.mp hmem
        exact hid (List.mem_map_of_mem hkey)
      rw [Graph.items, heq, hkeep]
  | _ => exact hitems

theorem itemsOrNone_eq {items : List Value} (hitems : g.itemsOrNone v = .ok items)
    (hid : .str "id" ∉ items) : g'.itemsOrNone v = .ok items := by
  rw [Graph.itemsOrNone] at hitems ⊢
  rw [h.orAbsent_eq]
  split at hitems
  · exact h.items_eq hitems hid
  · exact hitems

theorem itemsOrNone_of_nodes {items : List Value} (hitems : g.itemsOrNone v = .ok items)
    (hnodes : ∀ item ∈ items, ∃ place, item = .node place) : g'.itemsOrNone v = .ok items := by
  apply h.itemsOrNone_eq hitems
  intro hmem
  obtain ⟨place, hplace⟩ := hnodes _ hmem
  cases hplace

theorem itemsOrNone_field {items : List Value} (hkey : key ≠ "id")
    (hitems : g.itemsOrNone (g.field place key) = .ok items)
    (hnodes : ∀ item ∈ items, ∃ place, item = .node place) :
    g'.itemsOrNone (g'.field place key) = .ok items := by
  rw [h.field_eq place hkey]
  exact h.itemsOrNone_of_nodes hitems hnodes

theorem isA_iff (place : Nat) (kind : String) : g'.IsA place kind ↔ g.IsA place kind := by
  rw [IsA, IsA, h.field_eq place (by decide)]

theorem typeText_eq (place : Nat) : g'.typeText place = g.typeText place := by
  rw [typeText, typeText, h.field_eq place (by decide)]

theorem nameText_eq (place : Nat) : g'.nameText place = g.nameText place := by
  rw [nameText, nameText, h.field_eq place (by decide)]

theorem keeps_idText (place : Nat) : (g.idText place).Keeps (g'.idText place) := by
  intro id hid
  exact (Value.isName_iff_text "id").mp (h.isName_field place ((Value.isName_iff_text "id").mpr ⟨id, hid⟩))

theorem named (place : Nat) (hnamed : g.Named place) : g'.Named place :=
  fun key hkey => h.isName_field place (hnamed key hkey)

theorem bodyOf_eq (v : Value) : g'.bodyOf v = g.bodyOf v := by
  cases v with
  | node place => exact h.field_eq place (by decide)
  | _ => rfl

theorem ownEntries (place : Nat) : g'.ownEntries place = g.ownEntries place ∨
    g'.ownEntries place = Fields.without (g.ownEntries place) ["id"] := by
  rw [Graph.ownEntries, Graph.ownEntries]
  rcases h.fields place with heq | heq
  · rw [heq]
    exact .inl rfl
  · rw [heq, Fields.without, Fields.without, List.filter_filter, List.filter_filter]
    refine .inr (List.filter_congr ?_)
    intro p _
    exact Bool.and_comm _ _

theorem shows {root : Nat} (hshown : g'.Shows root v) : g.Shows root v := by
  induction hshown with
  | start => exact .start
  | field _ own ih =>
    refine .field ih ?_
    rcases h.ownEntries _ with heq | heq
    · exact heq ▸ own
    · rw [heq] at own
      exact (Fields.mem_without.mp own).1
  | item _ held ih => exact .item ih (h.listed _ ▸ held)

theorem loopless {root : Nat} (hloopless : g.Loopless root) : g'.Loopless root := by
  have hholds : g'.Holds = g.Holds := by
    funext p q
    rw [Holds, Holds, h.listed]
  intro place hshown
  rw [hholds]
  exact hloopless place (h.shows hshown)

end Forgets

/-- What is unfolded to a text or to null is one: what is made at a place is a list or an object, or it is
endless. -/
theorem isName_of_unfold (hj : g.unfold v = .null ∨ ∃ s, g.unfold v = .str s) : v.isName = true := by
  have hmade {place : Nat} {make : StateT Unfolded Option Json}
      (h : ∀ known j known', make.run known = some (j, known') → j ≠ .null ∧ ∀ s, j ≠ .str s) :
      ¬ (((Unfolded.once place make).run' ∅).getD .endless = .null ∨
        ∃ s, ((Unfolded.once place make).run' ∅).getD .endless = .str s) := by
    cases hrun : make.run ∅ with
    | none => simp [Unfolded.once, hrun]
    | some made => simpa [Unfolded.once, hrun] using h ∅ made.1 made.2 hrun
  cases v with
  | null => rfl
  | str s => rfl
  | list place =>
    refine absurd hj (hmade ?_)
    intro known j known' hrun
    simp only [StateT.run_bind, StateT.run_pure, Option.bind_eq_bind, Option.bind_eq_some_iff] at hrun
    obtain ⟨made, -, hj⟩ := hrun
    cases hj
    simp
  | node place =>
    refine absurd hj (hmade ?_)
    intro known j known' hrun
    simp only [StateT.run_bind, StateT.run_pure, Option.bind_eq_bind, Option.bind_eq_some_iff] at hrun
    obtain ⟨made, -, hj⟩ := hrun
    cases hj
    simp
  | _ => rcases hj with hj | ⟨s, hj⟩ <;> cases hj

namespace Forgets

variable (h : g.Forgets g')

include h

theorem keeps_unfold_text {fields fields' : List (String × Json)} {title : String}
    (hget : Fields.get? fields title = some (g.unfold (g.field place key)))
    (hget' : Fields.get? fields' title = some (g'.unfold (g'.field place key))) :
    (Check.maybeText fields title).Keeps (Check.maybeText fields' title) := by
  intro text htext
  have hname := isName_of_unfold ((Check.exists_maybeText_iff hget).mp ⟨text, htext⟩)
  have hname' := h.isName_field place hname
  refine (Check.exists_maybeText_iff hget').mpr ?_
  rcases Value.isName_iff.mp hname' with hnull | ⟨s, hs⟩
  · rw [hnull]
    exact .inl rfl
  · rw [hs]
    exact .inr ⟨s, rfl⟩

/-- The description of an object differs in titles at most. -/
theorem sheds_describe (place : Nat) : (g.describe place).Sheds (g'.describe place) := by
  refine .obj ?_ ?_
  · intro key hkey
    simp only [Json.titles, List.mem_cons, List.not_mem_nil, or_false] at hkey
    rcases hkey with rfl | rfl | rfl
    · exact h.keeps_unfold_text rfl rfl
    · exact h.keeps_unfold_text rfl rfl
    · exact h.keeps_unfold_text rfl rfl
  · intro key hkey
    simp only [Json.titles, List.mem_cons, List.not_mem_nil, or_false, not_or] at hkey
    simp [Fields.get?_cons, hkey]

theorem carries_ownEntries {f f' : Value → Except Fault Json} (hf : ∀ v, Carries Json.Sheds (f v) (f' v))
    (place : Nat) :
    Carries Json.FieldsShed ((g.ownEntries place).mapM fun (key, v) => return (key, ← f v))
      ((g'.ownEntries place).mapM fun (key, v) => return (key, ← f' v)) := by
  -- Each value is copied in both documents.
  have hcopied {entries : Fields Value} {copied : List (String × Json)}
      (hmatch : Fields.Match (fun v j => f v = .ok j) entries copied) :
      ∃ copied', Fields.Match (fun v j => f' v = .ok j) entries copied' ∧
        Fields.Match Json.Sheds copied copied' := by
    induction hmatch with
    | nil => exact ⟨[], .nil, .nil⟩
    | @cons p q _ _ hp _ ih =>
      obtain ⟨j', hj', hsheds⟩ := hf p.2 q.2 hp.2
      obtain ⟨rest, hrest, hshed⟩ := ih
      exact ⟨(q.1, j') :: rest, .cons ⟨hp.1, hj'⟩ hrest, .cons ⟨rfl, hsheds⟩ hshed⟩
  intro copied hrun
  have hmatch := Fields.ok_mapM_values.mp hrun
  rcases h.ownEntries place with heq | heq
  · obtain ⟨copied', hmatch', hshed⟩ := hcopied hmatch
    exact ⟨copied', Fields.ok_mapM_values.mpr (heq ▸ hmatch'), .inl hshed⟩
  · obtain ⟨copied', hmatch', hshed⟩ := hcopied (hmatch.filter fun key => !(["id"].contains key))
    exact ⟨copied', Fields.ok_mapM_values.mpr (heq ▸ hmatch'), .inr hshed⟩

/-- Titles are all that a copy loses. -/
theorem carries_copyValue (depth : Nat) (path : List Nat) (v : Value) :
    Carries Json.Sheds (g.copyValue depth path v) (g'.copyValue depth path v) := by
  induction depth generalizing path v with
  | zero => exact .error
  | succ depth ih =>
    cases v with
    | list place =>
      rw [copyValue, copyValue, h.listed]
      refine .bind (.mapM_same fun v _ => ih path v) ?_
      intro items items' _ _ hitems
      exact .ok (.arr hitems)
    | node place =>
      rw [copyValue, copyValue]
      split
      · exact .ok (h.sheds_describe place)
      · refine .bind (h.carries_ownEntries (fun v => ih (place :: path) v) place) ?_
        intro fields fields' _ _ hfields
        exact .ok hfields.sheds
    | _ => exact .same _ .same

theorem carries_ownFieldsAt (place : Nat) :
    Carries Json.FieldsShed (g.ownFieldsAt place) (g'.ownFieldsAt place) := by
  have hbound : g'.copyBound = g.copyBound := by rw [copyBound, copyBound, h.size]
  rw [ownFieldsAt, ownFieldsAt, hbound]
  exact h.carries_ownEntries (fun v => h.carries_copyValue _ _ v) place

/-- Items are read alike by what refuses a text. -/
theorem carries_items {α β : Type} {R : α → β → Prop} {read : Value → Except Fault α}
    {read' : Value → Except Fault β} (hrefuse : ∀ a, read (.str "id") ≠ .ok a)
    (hread : ∀ v, Carries R (read v) (read' v)) (v : Value) :
    Carries (List.Forall₂ R) (g.items v >>= fun items => items.mapM read)
      (g'.items v >>= fun items => items.mapM read') := by
  intro made hmade
  obtain ⟨items, hitems, hmade⟩ := ok_bind.mp hmade
  have hid : .str "id" ∉ items := by
    intro hmem
    obtain ⟨a, ha⟩ := exists_ok_of_mem hmade _ hmem
    exact hrefuse a ha
  rw [h.items_eq hitems hid, bind_of_ok]
  exact Carries.mapM_same (fun v _ => hread v) made hmade

theorem rootOf_eq (v : Value) : Source.rootOf g' v = Source.rootOf g v := by
  have hhandler (handler : Value) : g'.get handler "element" = g.get handler "element" :=
    h.get_eq handler (by decide)
  simp only [Source.rootOf, h.orAbsent_eq, hhandler]
  rw [h.get_eq v (by decide), h.get_eq v (by decide)]

/-- A plain record stays plain. -/
theorem carries_record (v : Value) :
    Carries (fun r r' => (r.Plain g → r'.Plain g') ∧ r'.property = r.property ∧ r'.element = r.element)
      (ReferenceRecord.ofValue g v) (ReferenceRecord.ofValue g' v) := by
  cases v with
  | node place =>
    have hproperty := h.get?_eq place (by decide : "property" ≠ "id")
    have helement := h.get?_eq place (by decide : "element" ≠ "id")
    refine .ok ⟨?_, ?_, ?_⟩
    · rintro ⟨property, id, element⟩
      refine ⟨?_, h.isName_field place id, ?_⟩
      · rw [hproperty]
        exact property
      · rw [helement]
        exact element.imp_right fun ⟨inner, hinner, hnamed⟩ => ⟨inner, hinner, h.named inner hnamed⟩
    · dsimp only
      rw [hproperty]
    · dsimp only
      rw [helement]
  | _ => exact .error

/-- A table of elements that is no list of pairs. -/
theorem exists_index {index : Index} (hlist : ∀ place, v ≠ .list place)
    (hindex : Index.ofValue g v = .ok index) :
    ∃ index', Index.ofValue g' v = .ok index' ∧ ∀ entry ∈ index', entry ∈ index := by
  rw [Index.ofValue] at hindex ⊢
  rw [h.orAbsent_eq]
  split at hindex
  · exact ⟨_, rfl, by simp [Index.empty]⟩
  · next place _ =>
    obtain rfl := Except.ok.inj hindex
    refine ⟨_, rfl, ?_⟩
    intro entry hentry
    obtain ⟨p, hp, rfl⟩ := List.mem_map.mp hentry
    refine List.mem_map_of_mem ?_
    rcases h.fields place with heq | heq
    · exact heq ▸ hp
    · rw [heq] at hp
      exact (Fields.mem_without.mp hp).1
  · next w hnode hw =>
    exfalso
    obtain ⟨items, hitems, hpairs⟩ := ok_bind.mp hindex
    have hsome : w = v ∧ g.truthy v = true := by
      rw [orAbsent] at hw
      split at hw
      · next htruthy => exact ⟨(Option.some.inj hw).symm, htruthy⟩
      · cases hw
    obtain ⟨rfl, htruthy⟩ := hsome
    cases w with
    | list place => exact hlist place rfl
    | node place => exact hnode place rfl
    | str s =>
      -- A character of a text is no pair.
      obtain rfl := Except.ok.inj hitems
      cases hchars : s.toList with
      | nil => simp [truthy, String.toList_eq_nil_iff.mp hchars] at htruthy
      | cons c rest =>
        rw [hchars] at hpairs
        simp [Index.addPairs, Index.addPair, Graph.items, ok_bind, throw, throwThe, MonadExceptOf.throw]
          at hpairs
    | _ => cases hitems

/-- A source document of plain records is read without the identifiers as well. -/
theorem exists_source {document : Value} {source : Source}
    (htable : ∀ place, g.get document "elementsById" ≠ .ok (.list place))
    (hsource : Source.ofValue g document = .ok source) (hplain : source.Plain g)
    (hloopless : source.Loopless g) :
    ∃ source', Source.ofValue g' document = .ok source' ∧ source'.root = source.root ∧
      source'.Plain g' ∧ source'.Loopless g' := by
  obtain ⟨root, hroot, hrest⟩ := ok_bind.mp hsource
  obtain ⟨references, hreferences, hrest⟩ := ok_bind.mp hrest
  obtain ⟨items, hitems, hrest⟩ := ok_bind.mp hrest
  obtain ⟨records, hrecords, hrest⟩ := ok_bind.mp hrest
  obtain ⟨table, helements, hrest⟩ := ok_bind.mp hrest
  obtain ⟨index, hindex, hdone⟩ := ok_bind.mp hrest
  obtain rfl := ok_pure.mp hdone
  have hkept : g'.itemsOrNone references = .ok items := by
    apply h.itemsOrNone_eq hitems
    intro hid
    obtain ⟨record, hrecord⟩ := exists_ok_of_mem hrecords _ hid
    cases hrecord
  obtain ⟨records', hrecords', hsame⟩ :=
    Carries.mapM_same (fun v _ => h.carries_record v) records hrecords
  have hnone (place : Nat) : table ≠ .list place := fun hlist => htable place (hlist ▸ helements)
  obtain ⟨index', hindex', hentries⟩ := h.exists_index hnone hindex
  refine ⟨⟨root, index', records'⟩, ?_, rfl, ⟨?_, ?_⟩, ?_⟩
  · rw [Source.ofValue, h.rootOf_eq, hroot, bind_of_ok, h.get_eq _ (by decide), hreferences, bind_of_ok,
      hkept, bind_of_ok, hrecords', bind_of_ok, h.get_eq _ (by decide), helements, bind_of_ok, hindex']
    rfl
  · intro r' hr'
    obtain ⟨r, hr, hkeep, -⟩ := exists_of_forall₂ hsame r' hr'
    exact hkeep (hplain.references r hr)
  · intro entry hentry
    exact hplain.elements entry (hentries entry hentry)
  · intro r' hr' hproperty place hplace
    obtain ⟨r, hr, -, hsameProperty, hsameElement⟩ := exists_of_forall₂ hsame r' hr'
    rw [hsameProperty] at hproperty
    rw [hsameElement] at hplace
    exact h.loopless (hloopless r hr hproperty place hplace)

end Forgets

end Graph

end Bpmn
