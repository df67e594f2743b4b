import Bpmn.Observe.Observatory
import Bpmn.Proofs.Checked
import Bpmn.Proofs.Number.Rounding

namespace Bpmn

/-- What no manager refuses: names and definitions are texts, and a size is one of a list. -/
inductive Event.Welcome : Event → Prop where
  | message (severity : Severity) (text : String) : Welcome (.message severity text)
  | stage (name : String) : Welcome (.stage (.str name))
  | size (list : String) {size : Nat} (definition : Option String) (h : (size : Int) < wordBound) :
      Welcome (.ofSize list size definition)
  | span (name : String) (definition : Option String) (failed : Bool) :
      Welcome (.span (.str name) (.ofText definition) failed)

namespace Metrics

/-- Whether a size can be counted, which only one beyond all floats cannot. -/
def countable (size : Nat) : Bool := (Number.int size).toFloat.isFinite

theorem countable_of_lt {size : Nat} (h : (size : Int) < wordBound) : countable size = true := by
  have hbound : (size : Int) < 2 ^ 63 := h
  refine Number.isFinite_toFloat ?_
  omega

theorem judge_size (size : Nat) : judge (.ofNat size) =
    if countable size then .counted (.int size) else .refused .tooLarge := by
  have hbelow : (Number.int size).below (.int 0) = false := by
    have hsteps : 0 ≤ (size : Int) * Int.ofNat (Nat.pow 2 1074) :=
      Int.mul_nonneg (Int.natCast_nonneg _) (Int.natCast_nonneg _)
    simp only [Number.below, Number.steps, Int.zero_mul, decide_eq_false_iff_not]
    omega
  rw [countable]
  simp only [judge, Json.ofNat, Json.number?, Number.isFinite, hbelow]
  cases (Number.int size).toFloat.isFinite <;> rfl

theorem attributesOf_count {list size definition : Json} {text : String} {amount : Number}
    (h : judge size = .counted amount) :
    attributesOf (.count list size definition text) = countAttributes list definition := by
  simp only [attributesOf, h]

theorem refusal?_count {list size definition : Json} {text : String} {amount : Number}
    (h : judge size = .counted amount) :
    refusal? (.count list size definition text) = (countAttributes list definition).refusal? := by
  simp only [refusal?, attributesOf_count h, h]

end Metrics

namespace Attributes

/-- Texts under names. -/
def ofTexts (texts : List (String × String)) : Attributes := texts.map fun (name, text) => (name, .str text)

theorem kept_ofTexts (texts : List (String × String)) : kept (ofTexts texts) = ofTexts texts := by
  rw [kept, ofTexts, List.map_map]
  rfl

theorem refusal?_ofTexts (texts : List (String × String)) : refusal? (ofTexts texts) = none := by
  rw [refusal?, List.findSome?_eq_none_iff]
  intro p hp
  obtain ⟨q, -, rfl⟩ := List.mem_map.mp hp
  rfl

end Attributes

/-- What a size is counted under: a definition that is empty or null has no part in it. -/
def sizeLabels (list : String) (definition : Option String) : List (String × String) :=
  ((definition.filter (!·.isEmpty)).map ("definition.id", ·)).toList ++ [("entity_list", list)]

theorem Metrics.countAttributes_ofText (list : String) (definition : Option String) :
    countAttributes (.str list) (.ofText definition) = .ofTexts (sizeLabels list definition) := by
  cases definition with
  | none => rfl
  | some id =>
    rw [countAttributes, Attribute.given?, sizeLabels]
    have htruthy : (Json.ofText (some id)).truthy = !id.isEmpty := rfl
    rw [htruthy, Option.filter_some]
    cases id.isEmpty <;> rfl

theorem Observatory.spanAttributes_ofText (definition : Option String) :
    ∃ texts, spanAttributes (.ofText definition) = .ofTexts texts := by
  cases definition with
  | none => exact ⟨[], rfl⟩
  | some id =>
    rw [spanAttributes, Attribute.given?]
    split
    · exact ⟨[("definition.id", id)], rfl⟩
    · exact ⟨[], rfl⟩

namespace Observatory

variable {α : Type}

/-- No manager refuses what is welcome. -/
theorem refusalOf?_of_welcome (config : ObserverConfig) {event : Event} (h : event.Welcome) :
    refusalOf? config event = none := by
  cases h with
  | message severity text => simp [refusalOf?, Metrics.refusal?, Metrics.attributesOf, Attributes.refusal?]
  | stage name =>
    have hattributes : Attributes.refusal? (Metrics.stageAttributes (.str name)) = none :=
      Attributes.refusal?_ofTexts [("stage", name)]
    simp [refusalOf?, Metrics.refusal?, Metrics.attributesOf, hattributes]
  | size list definition hsize =>
    rename_i size
    have hjudge : Metrics.judge (.ofNat size) = .counted (.int size) := by
      rw [Metrics.judge_size, if_pos (Metrics.countable_of_lt hsize)]
    have hrefusal : Metrics.refusal? (.ofSize list size definition) = none := by
      rw [Event.ofSize, Metrics.refusal?_count hjudge, Metrics.countAttributes_ofText]
      exact Attributes.refusal?_ofTexts _
    exact ite_eq_right_iff.mpr fun _ => hrefusal
  | span name definition failed =>
    obtain ⟨texts, htexts⟩ := spanAttributes_ofText definition
    simp [refusalOf?, htexts, Attributes.refusal?_ofTexts]

/-- All that a manager of a configuration tells on an event, warnings first. -/
def toldBy (config : ObserverConfig) (event : Event) : List Line :=
  (warningsOf config event).map (⟨.warning, ·, none⟩) ++ (lineOf? event).toList

/-- What a manager becomes, what it tells and what it prints follow from the events one by one. -/
theorem absorbAll_eq {o : Observatory} {m : Manager} (h : o.manager = some m) (events : List Event) :
    o.absorbAll events = {
      manager := some { m with
        metrics := if m.config.counts then events.foldl Metrics.add m.metrics else m.metrics }
      sink := o.sink
      lines := o.lines ++ (events.flatMap (toldBy m.config)).filter (Sink.passes o.sink)
      spans := o.spans ++ events.filterMap (spanOf? m.config) } := by
  induction events generalizing o m with
  | nil =>
    obtain ⟨manager, sink, lines, spans⟩ := o
    obtain rfl : manager = some m := h
    simp [absorbAll]
  | cons event rest ih =>
    have hmanager : (o.absorb event).manager = some { m with
        metrics := if m.config.counts then m.metrics.add event else m.metrics } := by
      rw [absorb, h]
      cases hcounts : m.config.counts <;> simp [hcounts]
    have hlines : (o.absorb event).lines =
        o.lines ++ (toldBy m.config event).filter (Sink.passes o.sink) := by
      rw [absorb, told, h]
      rfl
    have hspans : (o.absorb event).spans = o.spans ++ (spanOf? m.config event).toList := by
      rw [absorb, h]
      rfl
    have hrest : o.absorbAll (event :: rest) = (o.absorb event).absorbAll rest := rfl
    rw [hrest, ih hmanager, hlines, hspans]
    cases hcounts : m.config.counts <;> cases hspan : spanOf? m.config event <;>
      simp [hspan, absorb]

/-- Offers events one by one until one is refused. -/
def offerAll (o : Observatory) : List Event → Observatory × Except Fault Unit
  | [] => (o, .ok ())
  | event :: rest =>
    match o.offer event with
    | (o, .ok ()) => offerAll o rest
    | (o, .error fault) => (o, .error fault)

/-- Attends a run, which fails when one of its events is refused. -/
def attend (o : Observatory) (run : Traced α) : Observatory × Except Fault α :=
  match o.offerAll run.events with
  | (o, .ok ()) => (o, run.result)
  | (o, .error fault) => (o, .error fault)

theorem offer_of_welcome (o : Observatory) {event : Event} (h : event.Welcome) :
    o.offer event = (o.absorb event, .ok ()) := by
  have hrefusal : o.refusal? event = none := by
    rw [refusal?]
    cases o.manager with
    | none => rfl
    | some m => exact refusalOf?_of_welcome m.config h
  rw [offer, hrefusal]

theorem offerAll_of_welcome (o : Observatory) {events : List Event} (h : ∀ e ∈ events, e.Welcome) :
    o.offerAll events = (o.absorbAll events, .ok ()) := by
  induction events generalizing o with
  | nil => rfl
  | cons event rest ih =>
    rw [List.forall_mem_cons] at h
    rw [offerAll, offer_of_welcome o h.1]
    exact ih _ h.2

/-- A run whose events are all welcome ends as it does when nobody listens. -/
theorem attend_of_welcome (o : Observatory) {run : Traced α} (h : ∀ e ∈ run.events, e.Welcome) :
    o.attend run = o.watch run := by
  rw [attend, offerAll_of_welcome o h]
  rfl

theorem mem_greeting {config : ObserverConfig} {event : Event} (h : event ∈ config.greeting) :
    ∃ severity text, event = .message severity text := by
  rcases List.mem_append.mp h with h | h
  · obtain ⟨warnings, hwarnings, h⟩ := List.mem_flatten.mp h
    rw [(List.mem_replicate.mp hwarnings).2] at h
    obtain ⟨text, -, rfl⟩ := List.mem_map.mp h
    exact ⟨_, _, rfl⟩
  · exact ⟨_, _, List.mem_singleton.mp h⟩

theorem foldl_add_messages (m : Metrics) {events : List Event}
    (h : ∀ e ∈ events, ∃ severity text, e = .message severity text) : events.foldl Metrics.add m = m := by
  induction events with
  | nil => rfl
  | cons event rest ih =>
    rw [List.forall_mem_cons] at h
    obtain ⟨⟨severity, text, rfl⟩, hrest⟩ := h
    exact ih hrest

theorem exists_threshold {o o' : Observatory} {config : ObserverConfig} (hmanager : o.manager = none)
    (hstart : o.start config = (o', .ok ())) :
    ∃ threshold, Severity.ofName? config.level.name = some threshold := by
  rw [start, hmanager] at hstart
  cases hlevel : Severity.ofName? config.level.name with
  | none =>
    rw [hlevel] at hstart
    cases hstart
  | some threshold => exact ⟨threshold, rfl⟩

/-- A manager that has been set up has told its greeting and counted nothing. -/
theorem start_eq {o o' : Observatory} {config : ObserverConfig} {threshold : Severity}
    (hmanager : o.manager = none) (hstart : o.start config = (o', .ok ()))
    (hlevel : Severity.ofName? config.level.name = some threshold) : o' = {
      manager := some ⟨config, .none⟩
      sink := some ⟨threshold, config.sinkForm⟩
      lines := o.lines ++ (config.greeting.flatMap (toldBy config)).filter
        (Sink.passes (some ⟨threshold, config.sinkForm⟩))
      spans := o.spans } := by
  rw [start, hmanager, hlevel] at hstart
  dsimp only at hstart
  cases hrefusal : config.refusal? with
  | some fault =>
    rw [hrefusal] at hstart
    cases hstart
  | none =>
    rw [hrefusal] at hstart
    have hspans : config.greeting.filterMap (spanOf? config) = [] := by
      rw [List.filterMap_eq_nil_iff]
      intro e he
      obtain ⟨severity, text, rfl⟩ := mem_greeting he
      rfl
    rw [← (Prod.mk.inj hstart).1, absorbAll_eq rfl, foldl_add_messages _ fun e he => mem_greeting he, hspans]
    simp only [ite_self, List.append_nil]

/-- A second manager is never set up beside the first. -/
theorem start_again {o : Observatory} {m : Manager} (h : o.manager = some m) (config : ObserverConfig) :
    o.start config = (o, .ok ()) := by
  rw [start, h]

end Observatory

end Bpmn
