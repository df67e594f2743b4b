import Bpmn.Proofs.Observe.Attending
import Bpmn.Proofs.Observe.Reports

namespace Bpmn

/-- A call of the library.  A context is resolved where it is kept. -/
inductive LibraryCall where
  | map (g : Graph) (document : Value) (extension : Option Extension)
  | resolve (place : Nat) (resolver : Option Resolver)
  | deserialize (release : Release) (snapshot : MappedContext.Snapshot) (resolver : Option Resolver)

namespace LibraryCall

/-- The run of a call beside some contexts. -/
def run (contexts : List MappedContext) : LibraryCall → Traced MappedContext
  | map g document extension => Prod.fst <$> MappedContext.ofDocument g document extension
  | resolve place resolver =>
    match contexts[place]? with
    | none => .ofResult (.error .outside)
    | some m => m.resolved resolver
  | deserialize release snapshot resolver => MappedContext.restore release snapshot resolver

/-- The contexts that are kept behind a call: a new one, or one that a resolution has changed even if it
failed. -/
def kept (contexts : List MappedContext) (result : Except Fault MappedContext) :
    LibraryCall → List MappedContext
  | resolve place resolver => contexts.modify place fun m => (m.resolve resolver).context
  | _ => contexts ++ result.toOption.toList

/-- No list of a mapped context is longer than a list can be. -/
def Fits : LibraryCall → Prop
  | map g document extension => ∀ p, (MappedContext.ofDocument g document extension).result = .ok p →
      ∀ size ∈ p.1.sizes, (size.2 : Int) < wordBound
  | _ => True

end LibraryCall

structure Session where
  contexts : List MappedContext
  observatory : Observatory

namespace Session

/-- Makes a call and keeps what it leaves. -/
def make (s : Session) (call : LibraryCall) : Session × Except Fault MappedContext :=
  let (o, result) := s.observatory.attend (call.run s.contexts)
  (⟨call.kept s.contexts result, o⟩, result)

def makeAll (s : Session) : List LibraryCall → Session × List (Except Fault MappedContext)
  | [] => (s, [])
  | call :: rest =>
    let (s, result) := s.make call
    let (s, results) := s.makeAll rest
    (s, result :: results)

end Session

/-- What is done in a session: a call is made, entities are counted directly or a manager is set up. -/
inductive Deed where
  | call (c : LibraryCall)
  | count (list : String) (size : Nat) (definition : Option String)
  | start (config : ObserverConfig)

namespace Deed

def Fits : Deed → Prop
  | call c => c.Fits
  | _ => True

/-- The contexts that are kept behind a deed. -/
def after (contexts : List MappedContext) : Deed → List MappedContext
  | call c => c.kept contexts (c.run contexts).result
  | _ => contexts

/-- The events that a manager takes in. -/
def events (config : ObserverConfig) (contexts : List MappedContext) : Deed → List Event
  | call c => (c.run contexts).events
  | count list size definition =>
    if (Observatory.refusalOf? config (.ofSize list size definition)).isNone then
      [.ofSize list size definition] else []
  | start _ => []

/-- What each of some deeds adds, given the contexts before it. -/
def gather {α : Type} (f : List MappedContext → Deed → List α) : List MappedContext → List Deed → List α
  | _, [] => []
  | contexts, deed :: rest => f contexts deed ++ gather f (deed.after contexts) rest

end Deed

namespace Session

def act (s : Session) : Deed → Session
  | .call c => (s.make c).1
  | .count list size definition =>
    { s with observatory := (s.observatory.offer (.ofSize list size definition)).1 }
  | .start config => { s with observatory := (s.observatory.start config).1 }

def actAll (s : Session) (deeds : List Deed) : Session := deeds.foldl act s

end Session

theorem Traced.welcome_of_marks {α : Type} {run : Traced α} (h : ∀ e ∈ run.marks, e.Welcome) :
    ∀ e ∈ run.events, e.Welcome := by
  intro e he
  cases hmessage : e.isMessage with
  | true =>
    cases e with
    | message severity text => exact .message severity text
    | _ => cases hmessage
  | false => exact h e (List.mem_filter.mpr ⟨he, by rw [hmessage]; rfl⟩)

theorem Traced.marks_map {α β : Type} (f : α → β) (run : Traced α) : (f <$> run).marks = run.marks := by
  rw [← bind_pure_comp, marks_bind]
  cases run.result <;> exact List.append_nil _

namespace LibraryCall

/-- A call reports nothing that a manager would refuse. -/
theorem welcome {c : LibraryCall} (hfits : c.Fits) (contexts : List MappedContext) :
    ∀ e ∈ (c.run contexts).events, e.Welcome := by
  refine Traced.welcome_of_marks ?_
  cases c with
  | map g document extension =>
    have hsizes : ∀ e ∈ MappedContext.sizeEvents (MappedContext.ofDocument g document extension).result,
        e.Welcome := by
      cases hresult : (MappedContext.ofDocument g document extension).result with
      | error fault => nofun
      | ok p =>
        rw [MappedContext.sizeEvents, List.forall_mem_map]
        exact fun size hsize => .size _ _ (hfits p hresult size hsize)
    rw [run, Traced.marks_map, MappedContext.marks_ofDocument]
    cases MappedContext.opened g document with
    | error fault => nofun
    | ok p =>
      simp only [List.forall_mem_cons, List.forall_mem_append]
      refine ⟨.stage _, ?_, .span _ _ _, hsizes⟩
      split
      · exact List.forall_mem_singleton.mpr (.stage _)
      · nofun
  | resolve place resolver =>
    rw [run]
    cases contexts[place]? with
    | none => nofun
    | some m =>
      dsimp only
      rw [MappedContext.marks_resolved]
      simp only [List.forall_mem_cons]
      exact ⟨.stage _, .span _ _ _, nofun⟩
  | deserialize release snapshot resolver =>
    rw [run, MappedContext.marks_restore]
    cases snapshot.check release with
    | invalid issues => nofun
    | valid m =>
      simp only [List.forall_mem_cons]
      exact ⟨.stage _, .span _ _ _, nofun⟩

end LibraryCall

namespace Session

theorem make_eq (s : Session) {call : LibraryCall} (hfits : call.Fits) :
    s.make call = (⟨call.kept s.contexts (call.run s.contexts).result,
      s.observatory.absorbAll (call.run s.contexts).events⟩, (call.run s.contexts).result) := by
  rw [make, Observatory.attend_of_welcome _ (call.welcome hfits s.contexts)]
  rfl

theorem makeAll_congr (s s' : Session) (hcontexts : s.contexts = s'.contexts) {calls : List LibraryCall}
    (hfits : ∀ call ∈ calls, call.Fits) :
    (s.makeAll calls).2 = (s'.makeAll calls).2 ∧
      (s.makeAll calls).1.contexts = (s'.makeAll calls).1.contexts := by
  induction calls generalizing s s' with
  | nil => exact ⟨rfl, hcontexts⟩
  | cons call rest ih =>
    rw [List.forall_mem_cons] at hfits
    have hkept : (s.make call).1.contexts = (s'.make call).1.contexts := by
      rw [make_eq s hfits.1, make_eq s' hfits.1, hcontexts]
    have hresult : (s.make call).2 = (s'.make call).2 := by
      rw [make_eq s hfits.1, make_eq s' hfits.1, hcontexts]
    obtain ⟨hresults, hlast⟩ := ih _ _ hkept hfits.2
    exact ⟨congrArg₂ List.cons hresult hresults, hlast⟩

/-- A deed leaves contexts as if nobody listened, and a manager takes in its events. -/
theorem act_eq {s : Session} {m : Manager} (hmanager : s.observatory.manager = some m) {deed : Deed}
    (hfits : deed.Fits) : s.act deed = ⟨deed.after s.contexts,
      s.observatory.absorbAll (deed.events m.config s.contexts)⟩ := by
  cases deed with
  | call c =>
    rw [act, make_eq s hfits]
    rfl
  | count list size definition =>
    have hrefusal (e : Event) :
        s.observatory.refusal? e = Observatory.refusalOf? m.config e := by
      rw [Observatory.refusal?, hmanager]
      rfl
    rw [act, Observatory.offer, hrefusal, Deed.events]
    cases Observatory.refusalOf? m.config (.ofSize list size definition) <;> rfl
  | start config =>
    rw [act, Observatory.start_again hmanager]
    rfl

theorem actAll_eq {s : Session} {m : Manager} (hmanager : s.observatory.manager = some m)
    {deeds : List Deed} (hfits : ∀ deed ∈ deeds, deed.Fits) :
    (s.actAll deeds).observatory =
      s.observatory.absorbAll (Deed.gather (Deed.events m.config) s.contexts deeds) := by
  induction deeds generalizing s m with
  | nil => rfl
  | cons deed rest ih =>
    rw [List.forall_mem_cons] at hfits
    have hact := act_eq hmanager hfits.1
    have hmanager' : (s.act deed).observatory.manager = some { m with
        metrics := if m.config.counts then
          (deed.events m.config s.contexts).foldl Metrics.add m.metrics else m.metrics } := by
      rw [hact, Observatory.absorbAll_eq hmanager]
    have hrest : s.actAll (deed :: rest) = (s.act deed).actAll rest := rfl
    rw [hrest, ih hmanager' hfits.2, hact, Deed.gather, Observatory.absorbAll, Observatory.absorbAll,
      Observatory.absorbAll, List.foldl_append]

/-- What a manager that has been set up says of itself. -/
def readyLine (config : ObserverConfig) : Line := ⟨.info, config.readyText, none⟩

/-- The lines that reach a level. -/
def reaching (level : Severity) (lines : List Line) : List Line := lines.filter (level ≤ ·.severity)

theorem reaching_append (level : Severity) (lines lines' : List Line) :
    reaching level (lines ++ lines') = reaching level lines ++ reaching level lines' :=
  List.filter_append _ _

theorem reaching_reaching {low high : Severity} (h : low ≤ high) (lines : List Line) :
    reaching high (reaching low lines) = reaching high lines := by
  rw [reaching, reaching, reaching, List.filter_filter]
  refine List.filter_congr fun line _ => ?_
  by_cases hline : high ≤ line.severity
  · simp [hline, Int.le_trans h hline]
  · simp [hline]

theorem toldBy_level (config : ObserverConfig) (level : LevelChoice) :
    Observatory.toldBy { config with level } = Observatory.toldBy config := by
  funext e
  cases e <;> rfl

/-- A greeting differs between levels in its last line alone. -/
theorem toldBy_greeting (config : ObserverConfig) : ∃ warnings, ∀ level : LevelChoice,
    ({ config with level } : ObserverConfig).greeting.flatMap (Observatory.toldBy config) =
      warnings ++ [readyLine { config with level }] := by
  have hready (text : String) :
      Observatory.toldBy config (.message .info text) = [⟨.info, text, none⟩] := by
    simp [Observatory.toldBy, Observatory.warningsOf, Metrics.warnings, Metrics.attributesOf,
      Attributes.warnings, Attributes.refusal?, Observatory.lineOf?]
  refine ⟨(List.replicate config.instruments ((Attribute.warnings config.serviceName).map
    (Event.message .warning))).flatten.flatMap (Observatory.toldBy config), fun level => ?_⟩
  rw [ObserverConfig.greeting, List.flatMap_append, List.flatMap_singleton, hready]
  rfl

/-- The lines of a session since its manager was set up. -/
theorem lines_actAll {contexts : List MappedContext} {o o' : Observatory} {config : ObserverConfig}
    {threshold : Severity} (hmanager : o.manager = none) (hstart : o.start config = (o', .ok ()))
    (hlevel : Severity.ofName? config.level.name = some threshold) {deeds : List Deed}
    (hfits : ∀ deed ∈ deeds, deed.Fits) :
    ((Session.mk contexts o').actAll deeds).observatory.lines = o.lines ++
      (reaching threshold (config.greeting.flatMap (Observatory.toldBy config)) ++
        reaching threshold
          ((Deed.gather (Deed.events config) contexts deeds).flatMap (Observatory.toldBy config))) := by
  obtain rfl := Observatory.start_eq hmanager hstart hlevel
  rw [actAll_eq rfl hfits, Observatory.absorbAll_eq rfl, List.append_assoc]
  rfl

/-- Who listens changes neither what calls come to nor the contexts that are kept, and of two managers that
differ in their level the one of the higher level passes on those lines of the other that reach it. -/
theorem observes_only (contexts : List MappedContext) (o o' : Observatory) :
    (∀ calls : List LibraryCall, (∀ call ∈ calls, call.Fits) →
      ((Session.mk contexts o).makeAll calls).2 = ((Session.mk contexts o').makeAll calls).2 ∧
      ((Session.mk contexts o).makeAll calls).1.contexts =
        ((Session.mk contexts o').makeAll calls).1.contexts) ∧
    ∀ (config : ObserverConfig) (level : LevelChoice) (low high : Severity) (s s' : Observatory),
      o.manager = none → o'.manager = none →
      o.start config = (s, .ok ()) → o'.start { config with level } = (s', .ok ()) →
      Severity.ofName? config.level.name = some low → Severity.ofName? level.name = some high →
      low ≤ high → ∀ deeds : List Deed, (∀ deed ∈ deeds, deed.Fits) → ∃ before after,
        ((Session.mk contexts s).actAll deeds).observatory.lines =
          o.lines ++ (before ++ reaching low [readyLine config] ++ after) ∧
        ((Session.mk contexts s').actAll deeds).observatory.lines =
          o'.lines ++ (reaching high before ++ reaching high [readyLine { config with level }] ++
            reaching high after) := by
  refine ⟨fun calls hfits => makeAll_congr ⟨contexts, o⟩ ⟨contexts, o'⟩ rfl hfits, ?_⟩
  intro config level low high s s' hmanager hmanager' hstart hstart' hlow hhigh hle deeds hfits
  obtain ⟨warnings, hwarnings⟩ := toldBy_greeting config
  have hfirst : config.greeting.flatMap (Observatory.toldBy config) = warnings ++ [readyLine config] :=
    hwarnings config.level
  have hevents : Deed.events { config with level } = Deed.events config := by
    funext contexts deed
    cases deed <;> rfl
  refine ⟨reaching low warnings, reaching low
    ((Deed.gather (Deed.events config) contexts deeds).flatMap (Observatory.toldBy config)), ?_, ?_⟩
  · rw [lines_actAll hmanager hstart hlow hfits, hfirst, reaching_append]
  · rw [lines_actAll hmanager' hstart' hhigh hfits, hevents, toldBy_level, hwarnings, reaching_append,
      reaching_reaching hle, reaching_reaching hle]

end Session

def emptyDefinition : Graph where
  contents := #[.object [("$type", .str "bpmn:Definitions"), ("id", .str "d")],
    .object [("rootElement", .node 0)]]

/-- A document is mapped and its context resolved without a resolver; another one has no root. -/
def severalCalls : List LibraryCall :=
  [.map emptyDefinition (.node 1) none, .map emptyDefinition .null none, .resolve 0 none]

def severalDeeds : List Deed :=
  severalCalls.map .call ++ [.count "tokens" 3 (some ""), .start .standard]

theorem fits_severalCalls : ∀ call ∈ severalCalls, call.Fits := by
  have hmapped : (MappedContext.ofDocument emptyDefinition (.node 1) none).result.toOption.all
      (fun p => p.1.sizes.all fun size => decide (size.2 < 1)) = true := by decide +kernel
  have hfailed : (MappedContext.ofDocument emptyDefinition .null none).result.toOption.isNone = true := by
    decide +kernel
  simp only [severalCalls, List.forall_mem_cons]
  refine ⟨?_, ?_, trivial, nofun⟩
  · intro p hp size hsize
    rw [hp] at hmapped
    have hsmall := of_decide_eq_true (List.all_eq_true.mp hmapped size hsize)
    have hbound : wordBound = 2 ^ 63 := rfl
    omega
  · intro p hp
    rw [hp] at hfailed
    cases hfailed

theorem fits_severalDeeds : ∀ deed ∈ severalDeeds, deed.Fits := by
  rw [severalDeeds, List.forall_mem_append, List.forall_mem_map]
  refine ⟨fits_severalCalls, ?_⟩
  simp only [List.forall_mem_cons]
  exact ⟨trivial, trivial, nofun⟩

namespace Session

theorem observes_only_several :
    let config := ObserverConfig.standard
    let higher := { config with level := .member "WARNING" }
    let s := (Observatory.dark.start config).1
    let s' := (Observatory.dark.start higher).1
    (∀ call ∈ severalCalls, call.Fits) ∧ (∀ deed ∈ severalDeeds, deed.Fits) ∧
    Observatory.dark.start config = (s, .ok ()) ∧ Observatory.dark.start higher = (s', .ok ()) ∧
    ((Session.mk [] .dark).makeAll severalCalls).2 = ((Session.mk [] s).makeAll severalCalls).2 ∧
    ∃ before after,
      ((Session.mk [] s).actAll severalDeeds).observatory.lines =
        before ++ reaching .info [readyLine config] ++ after ∧
      ((Session.mk [] s').actAll severalDeeds).observatory.lines =
        reaching .warning before ++ reaching .warning [readyLine higher] ++ reaching .warning after := by
  intro config higher s s'
  have hstart : Observatory.dark.start config = (s, .ok ()) := rfl
  have hstart' : Observatory.dark.start higher = (s', .ok ()) := rfl
  have hcalls := fits_severalCalls
  have hdeeds := fits_severalDeeds
  obtain ⟨hsame, -⟩ := (observes_only [] .dark s).1 severalCalls hcalls
  obtain ⟨before, after, hlow, hhigh⟩ := (observes_only [] .dark .dark).2 config (.member "WARNING") .info
    .warning s s' rfl rfl hstart hstart' rfl rfl (by decide) severalDeeds hdeeds
  exact ⟨hcalls, hdeeds, hstart, hstart', hsame, before, after, hlow, hhigh⟩

end Session

end Bpmn
