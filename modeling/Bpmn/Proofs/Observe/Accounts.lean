import Bpmn.Proofs.Observe.Sessions
import Bpmn.Proofs.Observe.Totals

namespace Bpmn

/-- A run over a definition that has ended. -/
structure Span where
  name : String
  definition : Option String
  failed : Bool

/-- A span as a manager prints it; a definition without an identifier is an empty text. -/
def Span.record (config : ObserverConfig) (span : Span) : SpanRecord :=
  ⟨.str span.name, .str (span.definition.getD ""), span.failed, Attribute.kept config.serviceName⟩

namespace LibraryCall

/-- The sizes of the lists that a call has made. -/
def counted : LibraryCall → List Posting
  | map g document extension =>
    match (MappedContext.ofDocument g document extension).result with
    | .ok (m, _) => m.sizes.map fun (list, size) => (sizeLabels list m.id, size)
    | .error _ => []
  | _ => []

/-- The stages that a call has run, in success or failure. -/
def stages (contexts : List MappedContext) : LibraryCall → List String
  | map g document _ =>
    match MappedContext.opened g document with
    | .error _ => []
    | .ok (source, _, _) =>
      "reference_index" ::
        if (Links.ofRecords g source.elements source.references).isOk then ["scope_flattening"] else []
  | resolve place _ => if place < contexts.length then ["type_resolution"] else []
  | deserialize release snapshot _ =>
    match snapshot.check release with
    | .valid _ => ["type_resolution"]
    | .invalid _ => []

/-- The runs over a definition that a call has made. -/
def spans (contexts : List MappedContext) : LibraryCall → List Span
  | map g document extension =>
    match MappedContext.opened g document with
    | .error _ => []
    | .ok (_, _, definition) =>
      [⟨"map_moddle_context", definition.id, (MappedContext.ofDocument g document extension).failed⟩]
  | resolve place resolver =>
    match contexts[place]? with
    | none => []
    | some m => [⟨"resolve_types", m.id, (m.resolved resolver).failed⟩]
  | deserialize release snapshot resolver =>
    match snapshot.check release with
    | .valid m => [⟨"resolve_types", m.id, (MappedContext.restore release snapshot resolver).failed⟩]
    | .invalid _ => []

end LibraryCall

namespace Deed

def counted : Deed → List Posting
  | call c => c.counted
  | count list size definition =>
    if Metrics.countable size then [(sizeLabels list definition, size)] else []
  | start _ => []

def stages (contexts : List MappedContext) : Deed → List String
  | call c => c.stages contexts
  | _ => []

def spans (contexts : List MappedContext) : Deed → List Span
  | call c => c.spans contexts
  | _ => []

end Deed

/-- One more run of a stage. -/
def stagePosting (name : String) : Posting := ([("stage", name)], 1)

namespace Metrics

theorem foldl_marks {α : Type} (m : Metrics) (run : Traced α) :
    run.events.foldl add m = run.marks.foldl add m := by
  rw [Traced.marks]
  induction run.events generalizing m with
  | nil => rfl
  | cons event rest ih =>
    rw [List.foldl_cons, ih, List.filter_cons]
    cases event <;> rfl

theorem foldl_sizes (postings : List Posting) (totals : Totals) (definition : Option String)
    {sizes : List (String × Nat)} (h : ∀ size ∈ sizes, countable size.2 = true) :
    (sizes.map fun (list, size) => Event.ofSize list size definition).foldl add
        ⟨.ofPostings postings, totals⟩ =
      ⟨.ofPostings (postings ++ sizes.map fun (list, size) => (sizeLabels list definition, size)), totals⟩ := by
  induction sizes generalizing postings with
  | nil =>
    rw [List.map_nil, List.map_nil, List.append_nil]
    rfl
  | cons size rest ih =>
    rw [List.forall_mem_cons] at h
    rw [List.map_cons, List.map_cons, List.foldl_cons, add_size _ _ _ _ h.1, ih _ h.2, List.append_assoc]
    rfl

theorem foldl_sizeEvents {g : Graph} {document : Value} {extension : Option Extension}
    (hfits : (LibraryCall.map g document extension).Fits) (postings : List Posting) (totals : Totals) :
    (MappedContext.sizeEvents (MappedContext.ofDocument g document extension).result).foldl add
        ⟨.ofPostings postings, totals⟩ =
      ⟨.ofPostings (postings ++ (LibraryCall.map g document extension).counted), totals⟩ := by
  rw [LibraryCall.counted]
  cases hresult : (MappedContext.ofDocument g document extension).result with
  | error fault =>
    rw [List.append_nil]
    rfl
  | ok p => exact foldl_sizes _ _ _ fun size hsize => countable_of_lt (hfits p hresult size hsize)

/-- A call adds what is accounted for and nothing else. -/
theorem foldl_call {c : LibraryCall} (hfits : c.Fits) (contexts : List MappedContext)
    (postings stages : List Posting) :
    (c.run contexts).events.foldl add ⟨.ofPostings postings, .ofPostings stages⟩ =
      ⟨.ofPostings (postings ++ c.counted),
        .ofPostings (stages ++ (c.stages contexts).map stagePosting)⟩ := by
  rw [foldl_marks]
  cases c with
  | map g document extension =>
    have hsizes (stages : List Posting) := foldl_sizeEvents hfits postings (.ofPostings stages)
    rw [LibraryCall.run, Traced.marks_map, MappedContext.marks_ofDocument, LibraryCall.stages]
    cases hopened : MappedContext.opened g document with
    | error fault =>
      have hresult : (MappedContext.ofDocument g document extension).result = .error fault := by
        rw [MappedContext.ofDocument_eq, hopened]
        rfl
      rw [LibraryCall.counted, hresult, List.map_nil, List.append_nil, List.append_nil]
      rfl
    | ok p =>
      dsimp only
      rw [List.foldl_cons, add_stage, List.foldl_append, List.foldl_cons]
      split
      · rw [List.foldl_cons, add_stage, List.append_assoc]
        exact hsizes _
      · exact hsizes _
  | resolve place resolver =>
    have hcounted : (LibraryCall.resolve place resolver).counted = [] := rfl
    rw [LibraryCall.run, LibraryCall.stages, hcounted, List.append_nil]
    cases hplace : contexts[place]? with
    | none =>
      rw [if_neg (by rw [List.getElem?_eq_none_iff] at hplace; omega), List.map_nil, List.append_nil]
      rfl
    | some m =>
      obtain ⟨hlt, -⟩ := List.getElem?_eq_some_iff.mp hplace
      dsimp only
      rw [if_pos hlt, MappedContext.marks_resolved, List.foldl_cons, add_stage]
      rfl
  | deserialize release snapshot resolver =>
    have hcounted : (LibraryCall.deserialize release snapshot resolver).counted = [] := rfl
    rw [LibraryCall.run, MappedContext.marks_restore, LibraryCall.stages, hcounted, List.append_nil]
    cases snapshot.check release with
    | invalid issues => rw [List.map_nil, List.append_nil]; rfl
    | valid m =>
      rw [List.foldl_cons, add_stage]
      rfl

end Metrics

namespace Observatory

variable {config : ObserverConfig}

theorem filterMap_marks {α : Type} (config : ObserverConfig) (run : Traced α) :
    run.events.filterMap (spanOf? config) = run.marks.filterMap (spanOf? config) := by
  rw [Traced.marks, List.filterMap_filter]
  refine List.filterMap_congr fun event _ => ?_
  cases event <;> rfl

theorem spanOf?_span (htraces : config.traces = true) (hprints : config.printSpans.truthy = true)
    (span : Span) : spanOf? config (.span (.str span.name) (.ofText span.definition) span.failed) =
      some (span.record config) := by
  have hgiven : Attribute.kept ((Attribute.given? (.ofText span.definition)).getD (.str "")) =
      .str (span.definition.getD "") := by
    cases span.definition with
    | none => rfl
    | some id =>
      rw [Attribute.given?]
      split
      · rfl
      · next hempty =>
        have htruthy : (Json.ofText (some id)).truthy = !id.isEmpty := rfl
        rw [htruthy, Bool.not_eq_true', Bool.not_eq_false, String.isEmpty_iff] at hempty
        rw [hempty]
        rfl
  rw [spanOf?, htraces, hprints, Bool.and_self, if_pos rfl]
  dsimp only
  rw [hgiven]
  rfl

/-- The spans that a manager finishes if it traces, printed or not. -/
def finished (config : ObserverConfig) (events : List Event) : List SpanRecord :=
  events.filterMap (spanOf? { config with printSpans := .bool true })

theorem spanOf?_sizeEvents (config : ObserverConfig) (result : Except Fault (MappedContext × Diary)) :
    (MappedContext.sizeEvents result).filterMap (spanOf? config) = [] := by
  cases result with
  | error fault => rfl
  | ok p => rfl

/-- A call finishes the spans that are accounted for and no others. -/
theorem spans_call (htraces : config.traces = true) (hprints : config.printSpans.truthy = true)
    (contexts : List MappedContext) (c : LibraryCall) :
    (c.run contexts).events.filterMap (spanOf? config) =
      (c.spans contexts).map fun span => span.record config := by
  rw [filterMap_marks]
  cases c with
  | map g document extension =>
    rw [LibraryCall.run, Traced.marks_map, MappedContext.marks_ofDocument, LibraryCall.spans]
    cases MappedContext.opened g document with
    | error fault => rfl
    | ok p =>
      obtain ⟨source, root, definition⟩ := p
      have hspan := spanOf?_span htraces hprints
        ⟨"map_moddle_context", definition.id, (MappedContext.ofDocument g document extension).failed⟩
      have hstages : (if (Links.ofRecords g source.elements source.references).isOk then
          [Event.stage (.str "scope_flattening")] else []).filterMap (spanOf? config) = [] := by
        split <;> rfl
      dsimp only
      rw [List.filterMap_cons_none rfl, List.filterMap_append, hstages, List.nil_append,
        List.filterMap_cons_some hspan, spanOf?_sizeEvents]
      rfl
  | resolve place resolver =>
    rw [LibraryCall.run, LibraryCall.spans]
    cases contexts[place]? with
    | none => rfl
    | some m =>
      dsimp only
      have hspan := spanOf?_span htraces hprints ⟨"resolve_types", m.id, (m.resolved resolver).failed⟩
      rw [MappedContext.marks_resolved, List.filterMap_cons_none rfl, List.filterMap_cons_some hspan]
      rfl
  | deserialize release snapshot resolver =>
    rw [LibraryCall.run, MappedContext.marks_restore, LibraryCall.spans]
    cases snapshot.check release with
    | invalid issues => rfl
    | valid m =>
      have hspan := spanOf?_span htraces hprints
        ⟨"resolve_types", m.id, (MappedContext.restore release snapshot resolver).failed⟩
      dsimp only
      rw [List.filterMap_cons_none rfl, List.filterMap_cons_some hspan]
      rfl

end Observatory

namespace Session

variable {config : ObserverConfig} {deeds : List Deed}

theorem refusalOf?_size (hcounts : config.counts = true) (list : String) (size : Nat)
    (definition : Option String) :
    (Observatory.refusalOf? config (.ofSize list size definition)).isNone = Metrics.countable size := by
  have hrefusal : Observatory.refusalOf? config (.ofSize list size definition) =
      Metrics.refusal? (.ofSize list size definition) := if_pos hcounts
  have hjudge := Metrics.judge_size size
  rw [hrefusal, Event.ofSize]
  by_cases hcountable : Metrics.countable size = true
  · rw [if_pos hcountable] at hjudge
    rw [Metrics.refusal?_count hjudge, Metrics.countAttributes_ofText, Attributes.refusal?_ofTexts, hcountable]
    rfl
  · rw [if_neg hcountable] at hjudge
    rw [Bool.not_eq_true] at hcountable
    rw [hcountable, Metrics.refusal?]
    simp only [hjudge]
    rfl

/-- A session adds what is accounted for, deed by deed. -/
theorem foldl_gather (hcounts : config.counts = true) (hfits : ∀ deed ∈ deeds, deed.Fits)
    (contexts : List MappedContext) (postings stages : List Posting) :
    (Deed.gather (Deed.events config) contexts deeds).foldl Metrics.add
        ⟨.ofPostings postings, .ofPostings stages⟩ =
      ⟨.ofPostings (postings ++ deeds.flatMap Deed.counted),
        .ofPostings (stages ++ (Deed.gather Deed.stages contexts deeds).map stagePosting)⟩ := by
  induction deeds generalizing contexts postings stages with
  | nil => simp [Deed.gather]
  | cons deed rest ih =>
    rw [List.forall_mem_cons] at hfits
    have hdeed : (deed.events config contexts).foldl Metrics.add ⟨.ofPostings postings, .ofPostings stages⟩ =
        ⟨.ofPostings (postings ++ deed.counted),
          .ofPostings (stages ++ (deed.stages contexts).map stagePosting)⟩ := by
      cases deed with
      | call c => exact Metrics.foldl_call hfits.1 contexts postings stages
      | count list size definition =>
        have hstages : (Deed.count list size definition).stages contexts = [] := rfl
        rw [hstages, List.map_nil, List.append_nil, Deed.events, Deed.counted,
          refusalOf?_size hcounts list size definition]
        by_cases hcountable : Metrics.countable size = true
        · rw [if_pos hcountable, if_pos hcountable, List.foldl_cons, List.foldl_nil,
            Metrics.add_size _ _ _ _ hcountable]
        · rw [if_neg hcountable, if_neg hcountable, List.append_nil]
          rfl
      | start other =>
        have hstages : (Deed.start other).stages contexts = [] := rfl
        have hcounted : (Deed.start other).counted = [] := rfl
        rw [hstages, hcounted, List.map_nil, List.append_nil, List.append_nil]
        rfl
    rw [Deed.gather, Deed.gather, List.foldl_append, hdeed, ih hfits.2, List.flatMap_cons, List.map_append,
      List.append_assoc, List.append_assoc]

theorem spans_gather {config : ObserverConfig} (htraces : config.traces = true)
    (hprints : config.printSpans.truthy = true) (contexts : List MappedContext) (deeds : List Deed) :
    (Deed.gather (Deed.events config) contexts deeds).filterMap (Observatory.spanOf? config) =
      (Deed.gather Deed.spans contexts deeds).map fun span => span.record config := by
  induction deeds generalizing contexts with
  | nil => rfl
  | cons deed rest ih =>
    have hdeed : (deed.events config contexts).filterMap (Observatory.spanOf? config) =
        (deed.spans contexts).map fun span => span.record config := by
      cases deed with
      | call c => exact Observatory.spans_call htraces hprints contexts c
      | count list size definition =>
        rw [Deed.events]
        split <;> rfl
      | start config => rfl
    rw [Deed.gather, Deed.gather, List.filterMap_append, hdeed, ih, List.map_append]

/-- Under a manager that counts, each total of entities is the sum of the sizes that mapped contexts of a
definition have in a list and of what was counted directly, each stage has been counted once for every call
that ran it, and a manager that traces has finished one span for every run over a definition. -/
theorem accounted_for {o o' : Observatory} {config : ObserverConfig} (hmanager : o.manager = none)
    (hstart : o.start config = (o', .ok ())) (hcounts : config.counts = true)
    (contexts : List MappedContext) {deeds : List Deed} (hfits : ∀ deed ∈ deeds, deed.Fits) :
    let done := ((Session.mk contexts o').actAll deeds).observatory
    let heard := Deed.gather (Deed.events config) contexts deeds
    let spans := (Deed.gather Deed.spans contexts deeds).map fun span => span.record config
    done = o'.absorbAll heard ∧
    done.metrics? = some {
      counts := .ofPostings (deeds.flatMap Deed.counted)
      stages := .ofPostings ((Deed.gather Deed.stages contexts deeds).map stagePosting) } ∧
    (config.traces = true →
      Observatory.finished config heard = spans ∧
      done.spans = o.spans ++ if config.printSpans.truthy then spans else []) := by
  intro done heard spans
  obtain ⟨threshold, hlevel⟩ := Observatory.exists_threshold hmanager hstart
  have hstarted := Observatory.start_eq hmanager hstart hlevel
  have hset : o'.manager = some ⟨config, .none⟩ := by rw [hstarted]
  have hspans : o'.spans = o.spans := by rw [hstarted]
  have hset' : (Session.mk contexts o').observatory.manager = some ⟨config, .none⟩ := hset
  have hdone : done = o'.absorbAll heard := actAll_eq hset' hfits
  have hmetrics : heard.foldl Metrics.add .none = {
      counts := .ofPostings (deeds.flatMap Deed.counted)
      stages := .ofPostings ((Deed.gather Deed.stages contexts deeds).map stagePosting) } :=
    foldl_gather hcounts hfits contexts [] []
  have hprinted : config.traces = true → heard.filterMap (Observatory.spanOf? config) =
      if config.printSpans.truthy then spans else [] := by
    intro htraces
    split
    · next hprints => exact spans_gather htraces hprints contexts deeds
    · next hprints =>
      rw [List.filterMap_eq_nil_iff]
      intro event _
      rw [Bool.not_eq_true] at hprints
      cases event with
      | span name definition failed =>
        rw [Observatory.spanOf?, hprints, Bool.and_false]
        rfl
      | _ => rfl
  refine ⟨hdone, ?_, fun htraces => ⟨?_, ?_⟩⟩
  · rw [hdone, Observatory.absorbAll_eq hset, Observatory.metrics?, hmetrics]
    simp [hcounts]
  · have hevents : Deed.events { config with printSpans := .bool true } = Deed.events config := by
      funext contexts deed
      cases deed <;> rfl
    have hfinished := spans_gather
      (show ({ config with printSpans := .bool true } : ObserverConfig).traces = true from htraces) rfl
      contexts deeds
    rw [hevents] at hfinished
    exact hfinished
  · rw [hdone, Observatory.absorbAll_eq hset, hspans]
    exact congrArg (o.spans ++ ·) (hprinted htraces)

/-- The resolution fails without a resolver, and so does the mapping of what has no root. -/
theorem accounted_for_several :
    let config := { ObserverConfig.standard with traceStages := .bool true, printSpans := .bool true }
    let s := (Observatory.dark.start config).1
    let done := ((Session.mk [] s).actAll severalDeeds).observatory
    Observatory.dark.start config = (s, .ok ()) ∧ config.counts = true ∧
    (∀ deed ∈ severalDeeds, deed.Fits) ∧
    done.metrics?.map (·.stages) = some (.ofPostings
      (["reference_index", "scope_flattening", "type_resolution"].map stagePosting)) ∧
    done.spans.map (·.failed) = [false, true] := by
  intro config s done
  have hstart : Observatory.dark.start config = (s, .ok ()) := rfl
  have hfits := fits_severalDeeds
  obtain ⟨-, hmetrics, hspans⟩ := accounted_for rfl hstart rfl [] hfits
  have hstages : Deed.gather Deed.stages [] severalDeeds =
      ["reference_index", "scope_flattening", "type_resolution"] := by decide +kernel
  have hended : (Deed.gather Deed.spans [] severalDeeds).map (·.failed) = [false, true] := by
    decide +kernel
  refine ⟨hstart, rfl, hfits, ?_, ?_⟩
  · rw [hmetrics, hstages]
    rfl
  · have hprints : config.printSpans.truthy = true := rfl
    rw [(hspans rfl).2, if_pos hprints, List.map_append, List.map_map]
    exact hended

end Session

end Bpmn
