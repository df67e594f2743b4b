import Bpmn.Proofs.Observe.Sessions

namespace Bpmn

/-- What is done to a session from outside: a manager is asked for or forgotten, a call of the library is
made, an event is reported, or something comes to an end within a span. -/
inductive Turn where
  | start (config : ObserverConfig)
  | reset
  | call (c : LibraryCall)
  | report (event : Event)
  | span (name definition : Json) (result : Except Fault Unit)

/-- What a turn shows: what it comes to, the manager that there is then, the spans that have been printed,
and what the sink has passed on, each line in the form in which it is written. -/
structure Shown where
  outcome : Except Fault (Option MappedContext)
  manager : Option Manager
  spans : List SpanRecord
  log : List (SinkForm × Line)

/-- All that is shown but for the log. -/
def Shown.unlogged (s : Shown) : Except Fault (Option MappedContext) × Option Manager × List SpanRecord :=
  (s.outcome, s.manager, s.spans)

namespace Session

/-- A session behind a run that makes no context. -/
def behind (s : Session) (run : Observatory × Except Fault Unit) :
    Session × Except Fault (Option MappedContext) :=
  ({ s with observatory := run.1 }, run.2.map fun _ => none)

/-- Takes a turn. -/
def take (s : Session) : Turn → Session × Except Fault (Option MappedContext)
  | .start config => s.behind (s.observatory.start config)
  | .reset => s.behind (s.observatory.reset, .ok ())
  | .call c =>
    let (s, result) := s.make c
    (s, result.map some)
  | .report event => s.behind (s.observatory.offer event)
  | .span name definition result =>
    s.behind (s.observatory.watchSpan name definition (.ofResult result))

/-- A session in which nothing has been logged or printed yet. -/
def cleared (s : Session) : Session :=
  { s with observatory := { s.observatory with lines := [], spans := [] } }

/-- Takes a turn and shows what it has come to. -/
def present (s : Session) (turn : Turn) : Session × Shown :=
  let (s, outcome) := s.cleared.take turn
  (s, ⟨outcome, s.observatory.manager, s.observatory.spans,
    s.observatory.lines.map fun line => (s.observatory.form, line)⟩)

/-- What turns show one after another. -/
def play (s : Session) : List Turn → List Shown
  | [] => []
  | turn :: rest =>
    let (s, shown) := s.present turn
    shown :: s.play rest

end Session

namespace Observatory

/-- Observatories that are the same but for their sinks and what these have passed on. -/
structure SinksAside (o o' : Observatory) : Prop where
  manager : o.manager = o'.manager
  spans : o.spans = o'.spans

/-- Runs that come to the same, sinks aside. -/
inductive RunsAside {α : Type} : Observatory × Except Fault α → Observatory × Except Fault α → Prop where
  | intro {o o' : Observatory} (left : o.SinksAside o') (result : Except Fault α) :
    RunsAside (o, result) (o', result)

namespace SinksAside

variable {o o' : Observatory} {α : Type}

theorem absorb (h : o.SinksAside o') (event : Event) : (o.absorb event).SinksAside (o'.absorb event) := by
  constructor
  · rw [Observatory.absorb, Observatory.absorb, h.manager]
  · rw [Observatory.absorb, Observatory.absorb, h.manager, h.spans]

theorem absorbAll (h : o.SinksAside o') (events : List Event) :
    (o.absorbAll events).SinksAside (o'.absorbAll events) := by
  induction events generalizing o o' with
  | nil => exact h
  | cons event rest ih => exact ih (h.absorb event)

theorem refusal?_eq (h : o.SinksAside o') (event : Event) : o.refusal? event = o'.refusal? event := by
  rw [refusal?, refusal?, h.manager]

theorem offer (h : o.SinksAside o') (event : Event) : RunsAside (o.offer event) (o'.offer event) := by
  rw [Observatory.offer, Observatory.offer, h.refusal?_eq]
  cases o'.refusal? event with
  | some fault => exact .intro h _
  | none => exact .intro (h.absorb event) _

theorem offerAll (h : o.SinksAside o') (events : List Event) :
    RunsAside (o.offerAll events) (o'.offerAll events) := by
  induction events generalizing o o' with
  | nil => exact .intro h _
  | cons event rest ih =>
    have hoffer := h.offer event
    rw [Observatory.offerAll, Observatory.offerAll]
    generalize o.offer event = run at hoffer ⊢
    generalize o'.offer event = run' at hoffer ⊢
    obtain ⟨hnext, result⟩ := hoffer
    cases result with
    | error fault => exact .intro hnext _
    | ok u => exact ih hnext

theorem attend (h : o.SinksAside o') (run : Traced α) : RunsAside (o.attend run) (o'.attend run) := by
  have hoffer := h.offerAll run.events
  rw [Observatory.attend, Observatory.attend]
  generalize o.offerAll run.events = offered at hoffer ⊢
  generalize o'.offerAll run.events = offered' at hoffer ⊢
  obtain ⟨hnext, result⟩ := hoffer
  cases result with
  | error fault => exact .intro hnext _
  | ok u => exact .intro hnext _

theorem watchSpan (h : o.SinksAside o') (name definition : Json) (run : Traced α) :
    RunsAside (o.watchSpan name definition run) (o'.watchSpan name definition run) := by
  rw [Observatory.watchSpan, Observatory.watchSpan, h.refusal?_eq]
  cases o'.refusal? (.span name definition true) with
  | some fault => exact .intro (h.absorb _) _
  | none => exact .intro (h.absorbAll _) _

theorem start (h : o.SinksAside o') (config : ObserverConfig) :
    RunsAside (o.start config) (o'.start config) := by
  rw [Observatory.start, Observatory.start, h.manager]
  cases hmanager : o'.manager with
  | some m => exact .intro h _
  | none =>
    dsimp only
    cases Severity.ofName? config.level.name with
    | none =>
      refine .intro ?_ _
      exact ⟨rfl, h.spans⟩
    | some threshold =>
      dsimp only
      cases config.refusal? with
      | some fault =>
        refine .intro ?_ _
        exact ⟨rfl, h.spans⟩
      | none =>
        refine .intro (absorbAll ?_ config.greeting) _
        exact ⟨rfl, h.spans⟩

end SinksAside

end Observatory

namespace Session

/-- Sessions that are the same, sinks aside. -/
structure SinksAside (s s' : Session) : Prop where
  contexts : s.contexts = s'.contexts
  observatory : s.observatory.SinksAside s'.observatory

namespace SinksAside

variable {s s' : Session}

theorem behind (h : s.SinksAside s') {run run' : Observatory × Except Fault Unit}
    (hrun : Observatory.RunsAside run run') :
    (s.behind run).2 = (s'.behind run').2 ∧ (s.behind run).1.SinksAside (s'.behind run').1 := by
  obtain ⟨hnext, result⟩ := hrun
  exact ⟨rfl, h.contexts, hnext⟩

/-- A turn comes to the same, sinks aside. -/
theorem take (h : s.SinksAside s') (turn : Turn) :
    (s.take turn).2 = (s'.take turn).2 ∧ (s.take turn).1.SinksAside (s'.take turn).1 := by
  cases turn with
  | start config => exact h.behind (h.observatory.start config)
  | reset =>
    refine h.behind (.intro ?_ _)
    exact ⟨rfl, h.observatory.spans⟩
  | call c =>
    have hrun := h.observatory.attend (c.run s.contexts)
    simp only [Session.take, make, ← h.contexts]
    generalize s.observatory.attend (c.run s.contexts) = run at hrun ⊢
    generalize s'.observatory.attend (c.run s.contexts) = run' at hrun ⊢
    obtain ⟨hnext, result⟩ := hrun
    exact ⟨rfl, rfl, hnext⟩
  | report event => exact h.behind (h.observatory.offer event)
  | span name definition result => exact h.behind (h.observatory.watchSpan name definition _)

theorem cleared (h : s.SinksAside s') : s.cleared.SinksAside s'.cleared :=
  ⟨h.contexts, h.observatory.manager, rfl⟩

theorem present (h : s.SinksAside s') (turn : Turn) :
    (s.present turn).2.unlogged = (s'.present turn).2.unlogged ∧
      (s.present turn).1.SinksAside (s'.present turn).1 := by
  obtain ⟨houtcome, hnext⟩ := h.cleared.take turn
  refine ⟨?_, hnext⟩
  exact Prod.ext houtcome (Prod.ext hnext.observatory.manager hnext.observatory.spans)

/-- What turns show one after another differs in the log alone, sinks aside. -/
theorem play (h : s.SinksAside s') (turns : List Turn) :
    (s.play turns).map Shown.unlogged = (s'.play turns).map Shown.unlogged := by
  induction turns generalizing s s' with
  | nil => rfl
  | cons turn rest ih =>
    obtain ⟨hshown, hnext⟩ := h.present turn
    exact congrArg₂ List.cons hshown (ih hnext)

end SinksAside

end Session

/-- Observatories that pass on the same messages, in the same form where they pass them on, have the same
sink. -/
theorem Observatory.sink_eq_of_passes {o o' : Observatory}
    (hpasses : ∀ severity, Sink.passes o.sink ⟨severity, "", none⟩ = Sink.passes o'.sink ⟨severity, "", none⟩)
    (hform : ∀ severity, Sink.passes o.sink ⟨severity, "", none⟩ = true → o.form = o'.form) :
    o.sink = o'.sink := by
  rw [form, form] at hform
  cases hsink : o.sink with
  | none =>
    cases hsink' : o'.sink with
    | none => rfl
    | some b =>
      have hb := hpasses b.threshold
      simp [hsink, hsink', Sink.passes] at hb
  | some a =>
    have ha := hpasses a.threshold
    have hform := hform a.threshold (by simp [hsink, Sink.passes])
    cases hsink' : o'.sink with
    | none => simp [hsink, hsink', Sink.passes] at ha
    | some b =>
      have hb := hpasses b.threshold
      rw [hsink, hsink'] at ha hb hform
      have hle : b.threshold ≤ a.threshold := by simpa [Sink.passes] using ha
      have hge : a.threshold ≤ b.threshold := by simpa [Sink.passes] using hb
      obtain ⟨threshold, form⟩ := a
      obtain ⟨threshold', form'⟩ := b
      obtain rfl : threshold = threshold' := Int.le_antisymm hge hle
      obtain rfl : form = form' := hform
      rfl

namespace Session

variable {s s' : Session}

/-- A message that is reported where there is no manager is written if the sink passes it on. -/
theorem log_message (hmanager : s.observatory.manager = none) (severity : Severity) (text : String) :
    (s.play [.report (.message severity text)]).map Shown.log =
      [(List.filter (Sink.passes s.observatory.sink) [⟨severity, text, none⟩]).map
        fun line => (s.observatory.form, line)] := by
  obtain ⟨contexts, manager, sink, lines, spans⟩ := s
  obtain rfl : manager = none := hmanager
  rfl

theorem sink_eq_of_play (hmanager : s.observatory.manager = none)
    (hmanager' : s'.observatory.manager = none) (h : ∀ turns, s.play turns = s'.play turns) :
    s.observatory.sink = s'.observatory.sink := by
  have hlog (severity : Severity) := congrArg (List.map Shown.log) (h [.report (.message severity "")])
  simp only [log_message hmanager, log_message hmanager', List.filter_singleton, List.cons.injEq,
    and_true] at hlog
  apply Observatory.sink_eq_of_passes
  · intro severity
    specialize hlog severity
    cases hpasses : Sink.passes s.observatory.sink ⟨severity, "", none⟩ <;>
      cases hpasses' : Sink.passes s'.observatory.sink ⟨severity, "", none⟩ <;>
      simp [hpasses, hpasses'] at hlog ⊢
  · intro severity hpasses
    specialize hlog severity
    cases hpasses' : Sink.passes s'.observatory.sink ⟨severity, "", none⟩ <;>
      simp [hpasses, hpasses'] at hlog
    exact hlog

end Session

namespace Observatory

variable {o o' : Observatory} {config : ObserverConfig} {fault : Fault}

/-- The sink that a start sets up before it looks at anything but the level. -/
def newSink? (config : ObserverConfig) : Option Sink :=
  (Severity.ofName? config.level.name).map fun threshold => ⟨threshold, config.sinkForm⟩

theorem start_error (h : o.start config = (o', .error fault)) :
    o.manager = none ∧ o' = { o with sink := newSink? config } := by
  rw [start] at h
  cases hmanager : o.manager with
  | some m =>
    rw [hmanager] at h
    cases h
  | none =>
    rw [hmanager] at h
    rw [newSink?]
    cases hlevel : Severity.ofName? config.level.name with
    | none =>
      rw [hlevel] at h
      exact ⟨rfl, (Prod.mk.inj h).1.symm⟩
    | some threshold =>
      rw [hlevel] at h
      dsimp only at h
      cases hrefusal : config.refusal? with
      | none =>
        rw [hrefusal] at h
        cases h
      | some refusal =>
        rw [hrefusal] at h
        exact ⟨rfl, (Prod.mk.inj h).1.symm⟩

/-- A start that fails finds no manager and leaves none, and changes nothing but the sink.  So whatever is done
later comes to what it would have come to without the start, and the log shows no difference exactly if
the sink that is there then is the one that has been there before. -/
theorem play_failed_start (contexts : List MappedContext) (h : o.start config = (o', .error fault)) :
    o.manager = none ∧ o' = { o with sink := newSink? config } ∧
      (∀ turns, ((Session.mk contexts o').play turns).map Shown.unlogged =
        ((Session.mk contexts o).play turns).map Shown.unlogged) ∧
      ((∀ turns, (Session.mk contexts o').play turns = (Session.mk contexts o).play turns) ↔
        newSink? config = o.sink) := by
  obtain ⟨hmanager, rfl⟩ := start_error h
  refine ⟨hmanager, rfl, ?_, ?_⟩
  · apply Session.SinksAside.play
    exact ⟨rfl, rfl, rfl⟩
  · constructor
    · exact Session.sink_eq_of_play hmanager hmanager
    · intro hsink turns
      rw [hsink]

/-- A manager has been set up and forgotten. -/
def forgotten : Observatory := (dark.start .standard).1.reset

/-- A configuration whose level no sink knows. -/
def misspelt : ObserverConfig := { ObserverConfig.standard with level := .text "nope" }

theorem play_failed_start_forgotten :
    forgotten.start misspelt = ({ forgotten with sink := none }, .error (.unknownLevel "nope")) ∧
      forgotten.manager = none ∧ newSink? misspelt = none ∧
      (∀ turns, ((Session.mk [] { forgotten with sink := none }).play turns).map Shown.unlogged =
        ((Session.mk [] forgotten).play turns).map Shown.unlogged) ∧
      ((∀ turns, (Session.mk [] { forgotten with sink := none }).play turns =
        (Session.mk [] forgotten).play turns) ↔ newSink? misspelt = forgotten.sink) := by
  have hstart : forgotten.start misspelt =
      ({ forgotten with sink := none }, .error (.unknownLevel "nope")) := rfl
  obtain ⟨hmanager, -, hunlogged, hlog⟩ := play_failed_start [] hstart
  exact ⟨hstart, hmanager, rfl, hunlogged, hlog⟩

/-- A message after a failed start is lost that the sink left behind by a reset would have passed on. -/
theorem log_lost_misspelt :
    (((Session.mk [] dark).play [.start .standard, .reset, .start misspelt,
        .report (.message .error "m")]).map Shown.log).getLast? = some [] ∧
      (((Session.mk [] dark).play [.start .standard, .reset,
        .report (.message .error "m")]).map Shown.log).getLast? =
          some [(.lines, ⟨.error, "m", none⟩)] := by
  decide +kernel

end Observatory

end Bpmn
