import Bpmn.Proofs.Runs

namespace Bpmn

variable {α β γ δ ι κ : Type} {R : α → β → Prop} {S : γ → δ → Prop} {P : ι → κ → Prop}

/-- Related lists as equal lists of what is kept of their items. -/
theorem map_eq_of_forall₂ {erase : α → γ} {l l' : List α}
    (h : List.Forall₂ (fun a b => erase a = erase b) l l') : l.map erase = l'.map erase := by
  rw [← List.forall₂_eq_eq_eq, List.forall₂_map_left_iff, List.forall₂_map_right_iff]
  exact h

theorem rel_find? {p : ι → Bool} {p' : κ → Bool} {l : List ι} {l' : List κ} (hl : List.Forall₂ P l l')
    (hp : ∀ i k, P i k → p i = p' k) : Option.Rel P (l.find? p) (l'.find? p') := by
  induction hl with
  | nil => exact .none
  | @cons i k _ _ hik _ ih =>
    rw [List.find?_cons, List.find?_cons, hp i k hik]
    cases p' k with
    | true => exact .some hik
    | false => exact ih

/-- Whenever the first run ends well so does the second, with a related value. -/
def Carries (R : α → β → Prop) (x : Except Fault α) (y : Except Fault β) : Prop :=
  ∀ a, x = .ok a → ∃ b, y = .ok b ∧ R a b

namespace Carries

theorem ok {a : α} {b : β} (h : R a b) : Carries R (.ok a) (.ok b) := by
  intro a' ha
  obtain rfl := Except.ok.inj ha
  exact ⟨b, rfl, h⟩

theorem error {fault : Fault} {y : Except Fault β} : Carries R (.error fault) y := by
  intro a ha
  cases ha

theorem same {T : α → α → Prop} (x : Except Fault α) (h : ∀ a, T a a) : Carries T x x :=
  fun a ha => ⟨a, ha, h a⟩

theorem of_eq {x y : Except Fault α} (h : x = y) : Carries Eq x y :=
  fun a ha => ⟨a, h ▸ ha, rfl⟩

theorem eq_ok {x y : Except Fault α} (h : Carries Eq x y) {a : α} (ha : x = .ok a) : y = .ok a := by
  obtain ⟨b, hb, rfl⟩ := h a ha
  exact hb

theorem mono {R' : α → β → Prop} {x : Except Fault α} {y : Except Fault β} (h : Carries R x y)
    (hmono : ∀ a b, x = .ok a → y = .ok b → R a b → R' a b) : Carries R' x y := by
  intro a ha
  obtain ⟨b, hb, hab⟩ := h a ha
  exact ⟨b, hb, hmono a b ha hb hab⟩

theorem bind {x : Except Fault α} {y : Except Fault β} {next : α → Except Fault γ}
    {next' : β → Except Fault δ} (h : Carries R x y)
    (hnext : ∀ a b, x = .ok a → y = .ok b → R a b → Carries S (next a) (next' b)) :
    Carries S (x >>= next) (y >>= next') := by
  intro c hc
  obtain ⟨a, ha, hc⟩ := ok_bind.mp hc
  obtain ⟨b, hb, hab⟩ := h a ha
  obtain ⟨d, hd, hcd⟩ := hnext a b ha hb hab c hc
  exact ⟨d, ok_bind.mpr ⟨b, hb, hd⟩, hcd⟩

/-- Steps after runs that make the same. -/
theorem bind_eq {x y : Except Fault α} {next : α → Except Fault γ} {next' : α → Except Fault δ}
    (h : Carries Eq x y) (hnext : ∀ a, x = .ok a → Carries S (next a) (next' a)) :
    Carries S (x >>= next) (y >>= next') := by
  refine h.bind ?_
  intro a b ha _ hab
  obtain rfl := hab
  exact hnext a ha

/-- One step after runs that make the same. -/
theorem followed {x y : Except Fault α} (h : Carries Eq x y) (next : α → Except Fault γ) :
    Carries Eq (x >>= next) (y >>= next) :=
  h.bind_eq fun _ _ => .of_eq rfl

theorem map {x : Except Fault α} {y : Except Fault β} {f : α → γ} {f' : β → δ} (h : Carries R x y)
    (hf : ∀ a b, R a b → S (f a) (f' b)) : Carries S (f <$> x) (f' <$> y) := by
  intro c hc
  obtain ⟨a, ha, rfl⟩ := ok_map.mp hc
  obtain ⟨b, hb, hab⟩ := h a ha
  exact ⟨f' b, ok_map.mpr ⟨b, hb, rfl⟩, hf a b hab⟩

theorem mapM {f : ι → Except Fault α} {f' : κ → Except Fault β} {l : List ι} {l' : List κ}
    (hl : List.Forall₂ P l l') (hf : ∀ i k, i ∈ l → P i k → Carries R (f i) (f' k)) :
    Carries (List.Forall₂ R) (l.mapM f) (l'.mapM f') := by
  induction hl with
  | nil => exact .ok .nil
  | cons hik _ ih =>
    rw [List.mapM_cons, List.mapM_cons]
    refine .bind (hf _ _ List.mem_cons_self hik) ?_
    intro a b _ _ hab
    refine .bind (ih fun i k hi => hf i k (List.mem_cons_of_mem _ hi)) ?_
    intro as bs _ _ has
    exact .ok (.cons hab has)

theorem mapM_same {f : ι → Except Fault α} {f' : ι → Except Fault β} {l : List ι}
    (hf : ∀ i ∈ l, Carries R (f i) (f' i)) : Carries (List.Forall₂ R) (l.mapM f) (l.mapM f') := by
  have hl : List.Forall₂ Eq l l := List.forall₂_same.mpr fun _ _ => rfl
  apply mapM hl
  rintro i _ hi rfl
  exact hf i hi

/-- Each step over the same list makes the same but for what is left out. -/
theorem mapM_erase {erase : α → γ} {f f' : ι → Except Fault α} {l : List ι}
    (hf : ∀ i ∈ l, Carries (fun a b => erase a = erase b) (f i) (f' i)) :
    Carries (fun as bs => as.map erase = bs.map erase) (l.mapM f) (l.mapM f') :=
  (mapM_same hf).mono fun _ _ _ _ h => map_eq_of_forall₂ h

/-- Steps over lists side by side that make the same make the same list. -/
theorem mapM_eq {f : ι → Except Fault α} {f' : κ → Except Fault α} {l : List ι} {l' : List κ}
    (hl : List.Forall₂ P l l') (hf : ∀ i k, i ∈ l → P i k → Carries Eq (f i) (f' k)) :
    Carries Eq (l.mapM f) (l'.mapM f') := by
  refine (mapM hl hf).mono fun as bs _ _ h => ?_
  rwa [List.forall₂_eq_eq_eq] at h

theorem foldlM {f : α → ι → Except Fault α} {f' : β → κ → Except Fault β} {l : List ι} {l' : List κ}
    {a : α} {b : β} (hl : List.Forall₂ P l l') (hab : R a b)
    (hf : ∀ a b i k, R a b → P i k → Carries R (f a i) (f' b k)) :
    Carries R (l.foldlM f a) (l'.foldlM f' b) := by
  induction hl generalizing a b with
  | nil => exact .ok hab
  | cons hik _ ih =>
    rw [List.foldlM_cons, List.foldlM_cons]
    refine .bind (hf _ _ _ _ hab hik) ?_
    intro next next' _ _ hnext
    exact ih hnext

theorem filterMapM {f : ι → Except Fault (Option α)} {f' : κ → Except Fault (Option β)} {l : List ι}
    {l' : List κ} (hl : List.Forall₂ P l l')
    (hf : ∀ i k, i ∈ l → P i k → Carries (Option.Rel R) (f i) (f' k)) :
    Carries (List.Forall₂ R) (l.filterMapM f) (l'.filterMapM f') := by
  induction hl with
  | nil => exact .ok .nil
  | cons hik _ ih =>
    rw [List.filterMapM_cons, List.filterMapM_cons]
    refine .bind (hf _ _ List.mem_cons_self hik) ?_
    intro a b _ _ hab
    have hrest := ih fun i k hi => hf i k (List.mem_cons_of_mem _ hi)
    cases hab with
    | none => exact hrest
    | some hab =>
      refine .bind hrest ?_
      intro as bs _ _ has
      exact .ok (.cons hab has)

theorem findM? {f : ι → Except Fault Bool} {f' : κ → Except Fault Bool} {l : List ι} {l' : List κ}
    (hl : List.Forall₂ P l l') (hf : ∀ i k, i ∈ l → P i k → Carries Eq (f i) (f' k)) :
    Carries (Option.Rel P) (l.findM? f) (l'.findM? f') := by
  induction hl with
  | nil => exact .ok .none
  | cons hik _ ih =>
    rw [List.findM?, List.findM?]
    refine .bind_eq (hf _ _ List.mem_cons_self hik) ?_
    intro found _
    cases found with
    | true => exact .ok (.some hik)
    | false => exact ih fun i k hi => hf i k (List.mem_cons_of_mem _ hi)

/-- Runs that carry over to each other have the same results. -/
theorem toOption_eq {x y : Except Fault α} (h : Carries Eq x y) (h' : Carries Eq y x) :
    x.toOption = y.toOption := by
  cases hx : x with
  | ok a => rw [h.eq_ok hx]
  | error fault =>
    cases hy : y with
    | error fault' => rfl
    | ok b =>
      rw [h'.eq_ok hy] at hx
      cases hx

theorem toOption_map (x : Except Fault α) (f : α → β) : (f <$> x).toOption = x.toOption.map f := by
  cases x <;> rfl

/-- Runs that carry over to each other but for what is left out have the same results but for that. -/
theorem toOption_map_eq {erase : α → β} {x y : Except Fault α}
    (h : Carries (fun a b => erase a = erase b) x y)
    (h' : Carries (fun a b => erase a = erase b) y x) :
    x.toOption.map erase = y.toOption.map erase := by
  have hto : Carries Eq (erase <$> x) (erase <$> y) := h.map fun _ _ hab => hab
  have hback : Carries Eq (erase <$> y) (erase <$> x) := h'.map fun _ _ hab => hab
  rw [← toOption_map, ← toOption_map, toOption_eq hto hback]

end Carries

namespace Walk

/-- Whenever the first walk ends well so does the second, with a related value and the same diary. -/
def Carries (R : α → β → Prop) (w : Walk α) (w' : Walk β) : Prop :=
  ∀ d a d', w.Gives d a d' → ∃ b, w'.Gives d b d' ∧ R a b

namespace Carries

theorem pure {a : α} {b : β} (h : R a b) : Carries R (pure a) (pure b) := by
  intro d a' d' ha
  obtain ⟨rfl, rfl⟩ := gives_pure.mp ha
  exact ⟨b, gives_pure.mpr ⟨rfl, rfl⟩, h⟩

theorem bind {w : Walk α} {w' : Walk β} {next : α → Walk γ} {next' : β → Walk δ} (h : Carries R w w')
    (hnext : ∀ a b, R a b → Carries S (next a) (next' b)) :
    Carries S (w >>= next) (w' >>= next') := by
  intro d c d' hc
  obtain ⟨a, d₁, ha, hc⟩ := gives_bind.mp hc
  obtain ⟨b, hb, hab⟩ := h d a d₁ ha
  obtain ⟨e, he, hce⟩ := hnext a b hab d₁ c d' hc
  exact ⟨e, gives_bind.mpr ⟨b, d₁, hb, he⟩, hce⟩

theorem same (w : Walk α) : Carries Eq w w :=
  fun _ a _ h => ⟨a, h, rfl⟩

theorem bind_eq {w w' : Walk α} {next : α → Walk γ} {next' : α → Walk δ} (h : Carries Eq w w')
    (hnext : ∀ a, Carries S (next a) (next' a)) : Carries S (w >>= next) (w' >>= next') := by
  refine h.bind ?_
  intro a b hab
  obtain rfl := hab
  exact hnext a

theorem lift {x : Except Fault α} {y : Except Fault β} (h : Bpmn.Carries R x y) :
    Carries R (liftM x : Walk α) (liftM y : Walk β) := by
  intro d a d' hgives
  obtain ⟨ha, rfl⟩ := gives_lift.mp hgives
  obtain ⟨b, hb, hab⟩ := h a ha
  exact ⟨b, gives_lift.mpr ⟨hb, rfl⟩, hab⟩

theorem error {fault : Fault} {w' : Walk β} :
    Carries R (liftM (Except.error fault : Except Fault α) : Walk α) w' := by
  intro d a d' hgives
  cases (gives_lift.mp hgives).1

theorem debug {text text' : String} :
    Carries (fun _ _ => True) (liftM (Traced.debug text) : Walk Unit)
      (liftM (Traced.debug text') : Walk Unit) := by
  intro d u d' h
  obtain rfl := gives_debug.mp h
  exact ⟨(), gives_debug.mpr rfl, trivial⟩

theorem mapM {f : ι → Walk α} {f' : κ → Walk β} {l : List ι} {l' : List κ}
    (hl : List.Forall₂ P l l') (hf : ∀ i k, P i k → Carries R (f i) (f' k)) :
    Carries (List.Forall₂ R) (l.mapM f) (l'.mapM f') := by
  induction hl with
  | nil => exact .pure .nil
  | cons hik _ ih =>
    rw [List.mapM_cons, List.mapM_cons]
    refine .bind (hf _ _ hik) ?_
    intro a b hab
    refine .bind ih ?_
    intro as bs has
    exact .pure (.cons hab has)

theorem mapM_eq {f : ι → Walk α} {f' : κ → Walk α} {l : List ι} {l' : List κ}
    (hl : List.Forall₂ P l l') (hf : ∀ i k, P i k → Carries Eq (f i) (f' k)) :
    Carries Eq (l.mapM f) (l'.mapM f') := by
  intro d as d' has
  obtain ⟨bs, hbs, hab⟩ := mapM hl hf d as d' has
  rw [List.forall₂_eq_eq_eq] at hab
  exact ⟨bs, hbs, hab⟩

theorem mapM_same {f : ι → Walk α} {f' : ι → Walk β} {l : List ι}
    (hf : ∀ i ∈ l, Carries R (f i) (f' i)) : Carries (List.Forall₂ R) (l.mapM f) (l.mapM f') := by
  induction l with
  | nil => exact .pure .nil
  | cons i rest ih =>
    rw [List.mapM_cons, List.mapM_cons]
    refine .bind (hf i List.mem_cons_self) ?_
    intro a b hab
    refine .bind (ih fun i hi => hf i (List.mem_cons_of_mem _ hi)) ?_
    intro as bs has
    exact .pure (.cons hab has)

theorem mapM_erase {erase : α → γ} {f f' : ι → Walk α} {l : List ι}
    (hf : ∀ i, Carries (fun a b => erase a = erase b) (f i) (f' i)) :
    Carries (fun as bs => as.map erase = bs.map erase) (l.mapM f) (l.mapM f') := by
  intro d as d' has
  obtain ⟨bs, hbs, hab⟩ := mapM_same (fun i _ => hf i) d as d' has
  exact ⟨bs, hbs, map_eq_of_forall₂ hab⟩

end Carries

end Walk

end Bpmn
