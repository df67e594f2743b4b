import Bpmn.Checked
import Mathlib.Data.List.Forall2

namespace Bpmn

variable {ε α β : Type}

theorem ok_bind {x : Except ε α} {next : α → Except ε β} {b : β} :
    x >>= next = .ok b ↔ ∃ a, x = .ok a ∧ next a = .ok b := by
  cases x <;> simp [Bind.bind, Except.bind]

theorem error_bind {x : Except ε α} {next : α → Except ε β} {fault : ε} :
    x >>= next = .error fault ↔ x = .error fault ∨ ∃ a, x = .ok a ∧ next a = .error fault := by
  cases x <;> simp [bind, Except.bind]

theorem bind_of_ok (a : α) (next : α → Except ε β) : (.ok a : Except ε α) >>= next = next a := rfl

theorem ok_pure {a b : α} : (pure a : Except ε α) = .ok b ↔ a = b := by
  simp [Pure.pure, Except.pure]

/-- What is done unless something does not hold. -/
theorem ok_unless {c : Bool} {fault : ε} {next : PUnit → Except ε β} {b : β} :
    (if (!c) = true then throw fault >>= next else next ⟨⟩) = .ok b ↔ c = true ∧ next ⟨⟩ = .ok b := by
  cases c <;> simp [throw, throwThe, MonadExceptOf.throw, bind, Except.bind]

theorem exists_ok_of_isSome {x : Except ε α} (h : x.toOption.isSome = true) : ∃ a, x = .ok a := by
  cases x with
  | ok a => exact ⟨a, rfl⟩
  | error fault => cases h

theorem ok_map {x : Except ε α} {f : α → β} {b : β} :
    f <$> x = .ok b ↔ ∃ a, x = .ok a ∧ f a = b := by
  cases x <;> simp [Functor.map, Except.map]

/-- Runs that agree but for what is left out fail alike or both succeed. -/
theorem map_eq_map {x y : Except ε α} {f : α → β} (h : f <$> x = f <$> y) :
    (∃ fault, x = .error fault ∧ y = .error fault) ∨ ∃ a b, x = .ok a ∧ y = .ok b ∧ f a = f b := by
  cases x with
  | error fault =>
    cases y with
    | error fault' => exact .inl ⟨fault, rfl, congrArg Except.error (Except.error.inj h).symm⟩
    | ok b => cases h
  | ok a =>
    cases y with
    | error fault => cases h
    | ok b => exact .inr ⟨a, b, rfl, rfl, Except.ok.inj h⟩

theorem ok_mapM {f : α → Except Fault β} {l : List α} {l' : List β} :
    l.mapM f = .ok l' ↔ List.Forall₂ (fun a b => f a = .ok b) l l' := by
  induction l generalizing l' with
  | nil => simp [Pure.pure, Except.pure, eq_comm]
  | cons a rest ih =>
    simp only [List.mapM_cons, ok_bind, ok_pure, ih, List.forall₂_cons_left_iff]
    constructor
    · rintro ⟨b, hb, bs, hbs, rfl⟩
      exact ⟨b, bs, hb, hbs, rfl⟩
    · rintro ⟨b, bs, hb, hbs, rfl⟩
      exact ⟨b, hb, bs, hbs, rfl⟩

theorem exists_ok_mapM {f : α → Except Fault β} {l : List α} (h : ∀ a ∈ l, ∃ b, f a = .ok b) :
    ∃ bs, l.mapM f = .ok bs := by
  induction l with
  | nil => exact ⟨[], rfl⟩
  | cons a rest ih =>
    obtain ⟨b, hb⟩ := h a List.mem_cons_self
    obtain ⟨bs, hbs⟩ := ih fun a ha => h a (List.mem_cons_of_mem _ ha)
    exact ⟨b :: bs, by rw [List.mapM_cons, hb, bind_of_ok, hbs, bind_of_ok]; rfl⟩

theorem exists_forall₂ {R : α → β → Prop} {l : List α} (h : ∀ a ∈ l, ∃ b, R a b) :
    ∃ bs, List.Forall₂ R l bs := by
  induction l with
  | nil => exact ⟨[], .nil⟩
  | cons a rest ih =>
    obtain ⟨b, hb⟩ := h a List.mem_cons_self
    obtain ⟨bs, hbs⟩ := ih fun a ha => h a (List.mem_cons_of_mem _ ha)
    exact ⟨b :: bs, .cons hb hbs⟩

theorem exists_of_forall₂ {R : α → β → Prop} {l : List α} {l' : List β} (h : List.Forall₂ R l l') :
    ∀ b ∈ l', ∃ a ∈ l, R a b := by
  induction h with
  | nil => simp
  | cons hab _ ih =>
    rename_i a b rest rest' hrest
    intro c hc
    rcases List.mem_cons.mp hc with rfl | hc
    · exact ⟨a, by simp, hab⟩
    · obtain ⟨x, hx, hxc⟩ := ih c hc
      exact ⟨x, by simp [hx], hxc⟩

theorem forall₂_of_mem {R S : α → β → Prop} {l : List α} {l' : List β} (h : List.Forall₂ R l l')
    (hmem : ∀ a b, b ∈ l' → R a b → S a b) : List.Forall₂ S l l' := by
  induction h with
  | nil => exact .nil
  | cons hab _ ih =>
    refine .cons (hmem _ _ List.mem_cons_self hab) (ih ?_)
    intro a b hb
    exact hmem a b (List.mem_cons_of_mem _ hb)

/-- Lists that belong to a common one belong to each other. -/
theorem forall₂_of_common {γ : Type} {R : α → γ → Prop} {S : β → γ → Prop} {l : List α} {l' : List β}
    {common : List γ} (h : List.Forall₂ R l common) (h' : List.Forall₂ S l' common) :
    List.Forall₂ (fun a b => ∃ c, R a c ∧ S b c) l l' := by
  induction h generalizing l' with
  | nil =>
    cases h'
    exact .nil
  | @cons a c _ _ hac _ ih =>
    cases h' with
    | cons hbc hrest => exact .cons ⟨c, hac, hbc⟩ (ih hrest)

/-- Every item of the result of a run over a list comes from a step. -/
theorem exists_of_ok_mapM {f : α → Except Fault β} {l : List α} {l' : List β}
    (h : l.mapM f = .ok l') : ∀ b ∈ l', ∃ a ∈ l, f a = .ok b :=
  exists_of_forall₂ (ok_mapM.mp h)

theorem exists_ok_of_mem {f : α → Except Fault β} {l : List α} {l' : List β} (h : l.mapM f = .ok l') :
    ∀ a ∈ l, ∃ b, f a = .ok b := by
  intro a ha
  obtain ⟨b, -, hb⟩ := exists_of_forall₂ (ok_mapM.mp h).flip a ha
  exact ⟨b, hb⟩

theorem exists_of_ok_filterMapM {f : α → Except Fault (Option β)} {l : List α} {l' : List β}
    (h : l.filterMapM f = .ok l') : ∀ b ∈ l', ∃ a ∈ l, f a = .ok (some b) := by
  induction l generalizing l' with
  | nil =>
    obtain rfl := ok_pure.mp h
    simp
  | cons a rest ih =>
    rw [List.filterMapM_cons, ok_bind] at h
    obtain ⟨o, ho, h⟩ := h
    have later {bs : List β} (hbs : rest.filterMapM f = .ok bs) :
        ∀ b ∈ bs, ∃ a' ∈ a :: rest, f a' = .ok (some b) := by
      intro b hb
      obtain ⟨a', ha', hfa'⟩ := ih hbs b hb
      exact ⟨a', List.mem_cons_of_mem a ha', hfa'⟩
    cases o with
    | none => exact later h
    | some b =>
      obtain ⟨bs, hbs, h⟩ := ok_bind.mp h
      obtain rfl := ok_pure.mp h
      intro c hc
      rcases List.mem_cons.mp hc with rfl | hc
      · exact ⟨a, by simp, ho⟩
      · exact later hbs c hc

namespace Checked

theorem map_eq_valid {c : Checked α} {f : α → β} {b : β} :
    f <$> c = .valid b ↔ ∃ a, c = .valid a ∧ f a = b := by
  cases c <;> simp [Functor.map, map]

theorem seq_eq_valid {c : Checked (α → β)} {d : Checked α} {b : β} :
    c <*> d = .valid b ↔ ∃ f a, c = .valid f ∧ d = .valid a ∧ f a = b := by
  cases c <;> cases d <;> simp [Seq.seq, apply, map]

theorem seqLeft_eq_valid {c : Checked α} {d : Checked β} {a : α} :
    c <* d = .valid a ↔ c = .valid a ∧ ∃ b, d = .valid b := by
  cases c <;> cases d <;> simp [SeqLeft.seqLeft, apply, map]

theorem under_eq_valid {c : Checked α} {step : Step} {a : α} :
    c.under step = .valid a ↔ c = .valid a := by
  cases c <;> simp [under]

theorem items_eq_valid {l : List (Checked α)} {start : Nat} {as : List α} :
    items start l = .valid as ↔ l = as.map .valid := by
  induction l generalizing start as with
  | nil => cases as <;> simp [items]
  | cons c rest ih =>
    simp only [items, seq_eq_valid, map_eq_valid, under_eq_valid, ih]
    constructor
    · rintro ⟨_, as, ⟨a, rfl, rfl⟩, rfl, rfl⟩
      rfl
    · intro h
      cases as with
      | nil => cases h
      | cons a as =>
        obtain ⟨rfl, rfl⟩ := List.cons.inj h
        exact ⟨_, as, ⟨a, rfl, rfl⟩, rfl, rfl⟩

theorem wrong_ne_valid {mismatch : Mismatch} {a : α} : wrong mismatch ≠ .valid a := by
  simp [wrong]

theorem as_eq_ok {c : Checked α} {model : Model} {a : α} : c.as model = .ok a ↔ c = .valid a := by
  cases c <;> simp [as, orFault]

@[simp] theorem map_valid (f : α → β) (a : α) : f <$> valid a = valid (f a) := rfl

@[simp] theorem seq_valid (f : α → β) (a : α) : valid f <*> valid a = valid (f a) := rfl

@[simp] theorem under_valid (step : Step) (a : α) : (valid a).under step = valid a := rfl

@[simp] theorem items_valid (start : Nat) (as : List α) : items start (as.map .valid) = valid as :=
  items_eq_valid.mpr rfl

end Checked

end Bpmn
