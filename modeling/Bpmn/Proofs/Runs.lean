import Bpmn.Mapping.Scope
import Bpmn.Proofs.Checked

namespace Bpmn

variable {α β : Type}

namespace Traced

theorem result_bind (run : Traced α) (next : α → Traced β) :
    (run >>= next).result = run.result >>= fun a => (next a).result := by
  change (Traced.bind run next).result = _
  rw [Traced.bind]
  cases h : run.result <;> rfl

theorem result_pure (a : α) : (pure a : Traced α).result = .ok a := rfl

theorem result_lift (e : Except Fault α) : (liftM e : Traced α).result = e := rfl

@[simp] theorem result_stage (name : String) (run : Traced α) :
    (run.stage name).result = run.result := rfl

@[simp] theorem result_span (name : String) (definition : Option String) (run : Traced α) :
    (span name definition run).result = run.result := rfl

theorem pure_bind' (a : α) (next : α → Traced β) : pure a >>= next = next a := by
  change Traced.bind (ofResult (.ok a)) next = next a
  simp [Traced.bind, ofResult]

theorem bind_pure' (run : Traced α) : run >>= pure = run := by
  change Traced.bind run (fun a => ofResult (.ok a)) = run
  obtain ⟨events, result⟩ := run
  cases result <;> simp [Traced.bind, ofResult]

theorem bind_assoc' {γ : Type} (run : Traced α) (next : α → Traced β) (last : β → Traced γ) :
    run >>= next >>= last = run >>= fun a => next a >>= last := by
  change Traced.bind (Traced.bind run next) last = Traced.bind run fun a => Traced.bind (next a) last
  obtain ⟨events, result⟩ := run
  cases result with
  | error fault => rfl
  | ok a =>
    simp only [Traced.bind]
    cases (next a).result <;> simp

instance : LawfulMonad Traced :=
  LawfulMonad.mk' Traced (fun run => bind_pure' run) pure_bind' bind_assoc'

end Traced

namespace Walk

/-- A run makes a value and leaves a diary. -/
def Gives (w : Walk α) (d : Diary) (a : α) (d' : Diary) : Prop := (w.run d).result = .ok (a, d')

variable {d d' : Diary}

theorem gives_pure {a b : α} : (pure a : Walk α).Gives d b d' ↔ a = b ∧ d = d' := by
  simp [Gives, Traced.result_pure]

theorem gives_bind {w : Walk α} {next : α → Walk β} {b : β} :
    (w >>= next).Gives d b d' ↔ ∃ a d₁, w.Gives d a d₁ ∧ (next a).Gives d₁ b d' := by
  simp only [Gives, StateT.run_bind, Traced.result_bind, ok_bind, Prod.exists]

theorem gives_lift {e : Except Fault α} {a : α} :
    (liftM e : Walk α).Gives d a d' ↔ e = .ok a ∧ d = d' := by
  cases e with
  | error fault => simp [Gives]; intro h; cases h
  | ok b =>
    change (Except.ok (b, d) : Except Fault (α × Diary)) = .ok (a, d') ↔ _
    simp

theorem diary_of_gives_run {run : Traced α} {a : α} (h : (liftM run : Walk α).Gives d a d') :
    d' = d := by
  obtain ⟨events, result⟩ := run
  cases result with
  | error fault => simp [Gives] at h; cases h
  | ok b =>
    change (Except.ok (b, d) : Except Fault (α × Diary)) = .ok (a, d') at h
    cases h
    rfl

theorem gives_debug {text : String} {u : Unit} :
    (liftM (Traced.debug text) : Walk Unit).Gives d u d' ↔ d = d' := by
  change (Except.ok ((), d) : Except Fault (Unit × Diary)) = .ok ((), d') ↔ _
  simp

theorem gives_get {a : Diary} : (get : Walk Diary).Gives d a d' ↔ d = a ∧ d = d' := by
  change (Except.ok (d, d) : Except Fault (Diary × Diary)) = .ok (a, d') ↔ _
  simp

theorem gives_set {next : Diary} {u : PUnit} :
    (set next : Walk PUnit).Gives d u d' ↔ next = d' := by
  change (Except.ok ((), next) : Except Fault (Unit × Diary)) = .ok ((), d') ↔ _
  simp

theorem gives_nil {f : α → Walk β} {bs : List β} :
    (([] : List α).mapM f).Gives d bs d' ↔ bs = [] ∧ d = d' := by
  rw [List.mapM_nil, gives_pure, eq_comm]

theorem gives_cons {f : α → Walk β} {a : α} {rest : List α} {bs : List β} :
    ((a :: rest).mapM f).Gives d bs d' ↔
      ∃ b d₁ bs', (f a).Gives d b d₁ ∧ (rest.mapM f).Gives d₁ bs' d' ∧ bs = b :: bs' := by
  simp only [List.mapM_cons, gives_bind, gives_pure]
  constructor
  · rintro ⟨b, d₁, hb, bs', d₂, hbs, rfl, rfl⟩
    exact ⟨b, d₁, bs', hb, hbs, rfl⟩
  · rintro ⟨b, d₁, bs', hb, hbs, rfl⟩
    exact ⟨b, d₁, hb, bs', d', hbs, rfl, rfl⟩

theorem gives_mapM_lift {f : α → Except Fault β} {l : List α} {bs : List β} :
    (l.mapM fun a => (liftM (f a) : Walk β)).Gives d bs d' ↔ l.mapM f = .ok bs ∧ d = d' := by
  induction l generalizing d bs with
  | nil => rw [gives_nil, List.mapM_nil, ok_pure, eq_comm]
  | cons a rest ih =>
    rw [gives_cons]
    simp only [gives_lift, ih, List.mapM_cons, ok_bind, ok_pure]
    constructor
    · rintro ⟨b, _, bs', ⟨hb, rfl⟩, ⟨hbs, rfl⟩, rfl⟩
      exact ⟨⟨b, hb, bs', hbs, rfl⟩, rfl⟩
    · rintro ⟨⟨b, hb, bs', hbs, rfl⟩, rfl⟩
      exact ⟨b, d, bs', ⟨hb, rfl⟩, ⟨hbs, rfl⟩, rfl⟩

end Walk

end Bpmn
