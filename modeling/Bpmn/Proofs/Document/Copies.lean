import Bpmn.Mapping.Bundle
import Bpmn.Proofs.Document.Layers
import Bpmn.Proofs.Model.Accepted

namespace Bpmn

variable {P : Number → Prop}

/-- Every unfolding that is kept is orderly. -/
def Unfolded.Orderly (P : Number → Prop) (known : Unfolded) : Prop :=
  ∀ (place : Nat) (j : Json), known[place]? = some j → j.Orderly P

theorem Unfolded.orderly_empty : Unfolded.Orderly P (∅ : Unfolded) := by
  intro place j h
  simp at h

/-- A run that comes to an end with something orderly, and keeps what is kept orderly. -/
def Unfolded.Ends (P : Number → Prop) (run : StateT Unfolded Option Json) : Prop :=
  ∀ known : Unfolded, known.Orderly P →
    ∃ (j : Json) (known' : Unfolded), run.run known = some (j, known') ∧ j.Orderly P ∧ known'.Orderly P

theorem Unfolded.ends_once {place : Nat} {make : StateT Unfolded Option Json} (h : Ends P make) :
    Ends P (once place make) := by
  intro known hknown
  cases hget : known[place]? with
  | some j =>
    refine ⟨j, known, ?_, hknown place j hget, hknown⟩
    simp [once, hget]
  | none =>
    obtain ⟨j, known', hrun, hj, hknown'⟩ := h known hknown
    refine ⟨j, known'.insert place j, ?_, hj, ?_⟩
    · simp [once, hget, hrun]
    · intro other j' hj'
      rw [Std.TreeMap.getElem?_insert] at hj'
      split at hj'
      · obtain rfl := Option.some.inj hj'
        exact hj
      · exact hknown' other j' hj'

/-- A run over a list ends when each of its steps does. -/
theorem Unfolded.mapM_ends {α β : Type} {I : Unfolded → Prop} {R : α → β → Prop}
    {f : α → StateT Unfolded Option β} {l : List α} {known : Unfolded} (hknown : I known)
    (h : ∀ a ∈ l, ∀ known : Unfolded, I known →
      ∃ b known', (f a).run known = some (b, known') ∧ R a b ∧ I known') :
    ∃ bs known', (l.mapM f).run known = some (bs, known') ∧ List.Forall₂ R l bs ∧ I known' := by
  induction l generalizing known with
  | nil => exact ⟨[], known, rfl, .nil, hknown⟩
  | cons a rest ih =>
    obtain ⟨b, known₁, hb, hab, hknown₁⟩ := h a (by simp) known hknown
    obtain ⟨bs, known₂, hbs, hrest, hknown₂⟩ := ih hknown₁ fun a ha => h a (by simp [ha])
    refine ⟨b :: bs, known₂, ?_, .cons hab hrest, hknown₂⟩
    simp [List.mapM_cons, hb, hbs]

/-- Fields with the keys of others and orderly values. -/
theorem Json.orderly_obj_of_forall₂ {fields : Fields Value} {fields' : List (String × Json)}
    (hdistinct : fields.Distinct) (h : List.Forall₂ (fun p p' => p'.1 = p.1 ∧ p'.2.Orderly P) fields fields') :
    (Json.obj fields').Orderly P := by
  have hkeys : Fields.keys fields' = Fields.keys fields := by
    clear hdistinct
    induction h with
    | nil => rfl
    | cons hp _ ih => exact congrArg₂ List.cons hp.1 ih
  refine .obj ?_ ?_
  · rw [Fields.Distinct, hkeys]
    exact hdistinct
  · clear hdistinct hkeys
    induction h with
    | nil => simp
    | cons hp _ ih =>
      intro q hq
      rcases List.mem_cons.mp hq with rfl | hq
      · exact hp.2
      · exact ih q hq

namespace Graph

variable {g : Graph}

/-- The depth that is left bounds the places a value leads to. -/
theorem unfoldWithin_ends (hg : g.Layered P) {depth : Nat} {v : Value} (hv : v.Below P depth) :
    Unfolded.Ends P (g.unfoldWithin (depth + 1) v) := by
  induction depth generalizing v with
  | zero =>
    intro known hknown
    refine ⟨v.plain, known, ?_, v.orderly_plain hv, hknown⟩
    cases v with
    | list place => exact absurd hv (Nat.not_lt_zero place)
    | node place => exact absurd hv (Nat.not_lt_zero place)
    | _ => rfl
  | succ depth ih =>
    cases v with
    | list place =>
      -- What stands at a place leads below it, so one level less is enough for all of it.
      have hplace : place ≤ depth := Nat.le_of_lt_succ hv
      apply Unfolded.ends_once
      intro known hknown
      obtain ⟨items, known', hrun, hitems, hknown'⟩ :=
        Unfolded.mapM_ends (R := fun _ j => Json.Orderly P j) (f := g.unfoldWithin (depth + 1)) hknown
          fun v hv known hknown => ih ((hg.listed place v hv).mono hplace) known hknown
      refine ⟨.arr items, known', by simp [hrun], .arr ?_, hknown'⟩
      intro j hj
      obtain ⟨_, _, horderly⟩ := exists_of_forall₂ hitems j hj
      exact horderly
    | node place =>
      have hplace : place ≤ depth := Nat.le_of_lt_succ hv
      obtain ⟨hdistinct, hbelow⟩ := hg.fields place
      apply Unfolded.ends_once
      intro known hknown
      have step (p : String × Value) (hp : p ∈ g.fields place) (known : Unfolded)
          (hknown : known.Orderly P) : ∃ p' known',
            (do return (p.1, ← g.unfoldWithin (depth + 1) p.2) : StateT Unfolded Option (String × Json)).run
              known = some (p', known') ∧ (p'.1 = p.1 ∧ p'.2.Orderly P) ∧ Unfolded.Orderly P known' := by
        obtain ⟨j, known', hrun, hj, hknown'⟩ := ih ((hbelow p hp).mono hplace) known hknown
        exact ⟨(p.1, j), known', by simp [hrun], ⟨rfl, hj⟩, hknown'⟩
      obtain ⟨fields, known', hrun, hfields, hknown'⟩ := Unfolded.mapM_ends hknown step
      simp only [bind_pure_comp] at hrun
      refine ⟨.obj fields, known', by simp [hrun], ?_, hknown'⟩
      exact Json.orderly_obj_of_forall₂ hdistinct hfields
    | num n =>
      intro known hknown
      exact ⟨_, known, rfl, .num hv, hknown⟩
    | _ =>
      intro known hknown
      exact ⟨_, known, rfl, Value.orderly_plain trivial, hknown⟩

theorem orderly_unfold (hg : g.Layered P) {v : Value} (hv : v.Below P g.contents.size) :
    (g.unfold v).Orderly P := by
  have hbound : v.Below P (g.contents.size + 1) := hv.mono (Nat.le_succ _)
  obtain ⟨j, known, hrun, hj, -⟩ := unfoldWithin_ends hg hbound ∅ Unfolded.orderly_empty
  have hunfold : g.unfold v = j := by
    rw [unfold, depthBound, StateT.run'_eq, hrun]
    rfl
  rw [hunfold]
  exact hj

theorem orderly_unfold_field (hg : g.Layered P) (place : Nat) (key : String) :
    (g.unfold (g.field place key)).Orderly P :=
  orderly_unfold hg (hg.field place key)

theorem orderly_describe (hg : g.Layered P) (place : Nat) : (g.describe place).Orderly P := by
  refine .obj ?_ ?_
  · simp [Fields.Distinct, Fields.keys]
  · simp [orderly_unfold_field hg]

/-- Fields whose values are computed one by one. -/
theorem orderly_mapM_fields {fields : Fields Value} {fields' : List (String × Json)}
    {f : Value → Except Fault Json} (hdistinct : fields.Distinct)
    (hf : ∀ p ∈ fields, ∀ j, f p.2 = .ok j → j.Orderly P)
    (h : (fields.mapM fun (key, v) => do return (key, ← f v)) = .ok fields') :
    (Json.obj fields').Orderly P := by
  have hsteps := List.forall₂_iff_get.mp (ok_mapM.mp h)
  refine Json.orderly_obj_of_forall₂ hdistinct (List.forall₂_iff_get.mpr ⟨hsteps.1, ?_⟩)
  intro i hi hi'
  obtain ⟨j, hj, hpair⟩ := ok_bind.mp (hsteps.2 i hi hi')
  rw [← ok_pure.mp hpair]
  exact ⟨rfl, hf _ (List.get_mem fields ⟨i, hi⟩) j hj⟩

theorem Layered.ownEntries (hg : g.Layered P) (place : Nat) :
    Fields.Distinct (g.ownEntries place) ∧ ∀ p ∈ g.ownEntries place, p.2.Below P place := by
  obtain ⟨hdistinct, hbelow⟩ := hg.fields place
  refine ⟨hdistinct.sublist (List.filter_sublist.map _), ?_⟩
  intro p hp
  exact hbelow p (List.mem_of_mem_filter hp)

theorem orderly_copyValue (hg : g.Layered P) {depth : Nat} {path : List Nat} {v : Value} {j : Json}
    {bound : Nat} (hv : v.Below P bound) (h : g.copyValue depth path v = .ok j) : j.Orderly P := by
  induction depth generalizing path v j bound with
  | zero => cases h
  | succ depth ih =>
    cases v with
    | list place =>
      obtain ⟨items, hitems, h⟩ := ok_bind.mp h
      obtain rfl := ok_pure.mp h
      refine .arr ?_
      intro item hitem
      obtain ⟨v, hv, hcopy⟩ := exists_of_ok_mapM hitems item hitem
      exact ih (hg.listed place v hv) hcopy
    | node place =>
      rw [copyValue] at h
      split at h
      · obtain rfl := ok_pure.mp h
        exact orderly_describe hg place
      · obtain ⟨fields, hfields, h⟩ := ok_bind.mp h
        obtain rfl := ok_pure.mp h
        obtain ⟨hdistinct, hbelow⟩ := hg.ownEntries place
        exact orderly_mapM_fields hdistinct (fun p hp j hj => ih (hbelow p hp) hj) hfields
    | num n =>
      obtain rfl := Except.ok.inj h
      exact .num hv
    | _ =>
      obtain rfl := Except.ok.inj h
      exact Value.orderly_plain trivial

theorem orderly_ownFieldsAt (hg : g.Layered P) {place : Nat} {fields : List (String × Json)}
    (h : g.ownFieldsAt place = .ok fields) : (Json.obj fields).Orderly P := by
  obtain ⟨hdistinct, hbelow⟩ := hg.ownEntries place
  exact orderly_mapM_fields hdistinct (fun p hp j hj => orderly_copyValue hg (hbelow p hp) hj) h

theorem orderly_ownFields (hg : g.Layered P) {v : Value} {fields : List (String × Json)}
    (h : g.ownFields v = .ok fields) : (Json.obj fields).Orderly P := by
  rw [ownFields] at h
  split at h
  · obtain rfl := Except.ok.inj h
    exact Json.orderly_obj_nil
  · obtain ⟨place, -, h⟩ := ok_bind.mp h
    exact orderly_ownFieldsAt hg h

end Graph

end Bpmn
