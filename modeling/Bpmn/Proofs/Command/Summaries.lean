import Bpmn.Command.Run
import Bpmn.Proofs.Command.Folders
import Bpmn.Proofs.Json.Printed
import Bpmn.Proofs.Mapping.Orderly
import Bpmn.Proofs.Mapping.Sharing
import Bpmn.Proofs.Model.Modes
import Bpmn.Proofs.Model.Written
import Bpmn.Proofs.Resolution.Frame

namespace Bpmn.Command

namespace World

theorem unifyBreaks_of_notMem {cs : List Char} (h : '\r' ∉ cs) : unifyBreaks cs = cs := by
  induction cs with
  | nil => rfl
  | cons c rest ih =>
    have hc : c ≠ '\r' := fun heq => h (heq ▸ List.mem_cons_self)
    have hrest : '\r' ∉ rest := fun hmem => h (List.mem_cons_of_mem _ hmem)
    rw [unifyBreaks]
    · rw [ih hrest]
    · rintro _ rfl
      exact absurd rfl hc
    · exact hc

/-- A file of printed characters is read as it is. -/
theorem textOf_of_printed {w : World} {path text : String} (h : lookAt w path = .ok (.ok (.file text)))
    (hprinted : text.toList.all Json.isPrinted = true) : w.textOf path = text := by
  have hlook : w.look path = .ok (.file text) := by
    rw [lookAt] at h
    split at h
    · cases h
    · exact Except.ok.inj h
  have hbreaks : '\r' ∉ text.toList := by
    intro hmem
    exact absurd (List.all_eq_true.mp hprinted _ hmem) (by decide)
  rw [textOf, hlook]
  change String.ofList (unifyBreaks text.toList) = text
  rw [unifyBreaks_of_notMem hbreaks, String.ofList_toList]

end World

theorem unstyled_of_printed {text : String} (h : text.toList.all Json.isPrinted = true) :
    Text.unstyled text = text := by
  have hescape : Text.escapeCharacter ∉ text.toList := by
    intro hmem
    exact absurd (List.all_eq_true.mp h _ hmem) (by decide)
  rw [Text.unstyled, Text.without, Text.withoutFrom_of_plain _ _ hescape, String.ofList_toList]

/-- What a file holds that an outcome has been written to: a text of its own, or else what has been put out. -/
def Outcome.delivered (done : Outcome) : String := (done.written.map (·.2)).getD done.output

theorem status_ofStop (stop : Stop) : (Outcome.ofStop stop).status ≠ 0 := by
  cases stop <;> simp [Outcome.ofStop, Outcome.ofMessage]

theorem Run.result_of_observed {α : Type} {run : Traced α} {o : Observatory} {a : α}
    (h : ((Run.observed run).run.run o).1 = .ok a) : run.result = .ok a := by
  obtain ⟨events, result⟩ := run
  cases result with
  | ok a' => exact congrArg _ (Except.ok.inj h)
  | error fault => cases h

/-- A resolution for a command changes bindings only. -/
theorem unbound_of_resolveWith {w : World} {reference : Option String} {m m' : MappedContext} {o : Observatory}
    (h : ((resolveWith w reference m).run.run o).1 = .ok m') : m'.unbound = m.unbound := by
  rw [resolveWith] at h
  split at h
  · obtain rfl := Except.ok.inj h
    rfl
  · next reference _ =>
    cases htypes : loadTypes w reference with
    | error stop =>
      rw [htypes] at h
      cases h
    | ok types =>
      rw [htypes] at h
      have hresult := Run.result_of_observed h
      rw [Traced.result_bind] at hresult
      obtain ⟨r, -, hresolved⟩ := ok_bind.mp hresult
      rw [MappedContext.resolved, Traced.result_bind] at hresolved
      obtain ⟨_, -, hcontext⟩ := ok_bind.mp hresolved
      obtain rfl := Except.ok.inj hcontext
      exact m.unbound_resolve (some r)

namespace FlattenRequest

variable {r : FlattenRequest} {w : World}

/-- A flattening that comes to a context has mapped the document of its file. -/
theorem mapped_of_context {o : Observatory} {m' : MappedContext}
    (h : ((r.context w).run.run o).1 = .ok m') :
    ∃ j m diary, Json.parse (w.textOf r.file) = .ok j ∧
      (MappedContext.ofDocument (Graph.ofJson j).1 (Graph.ofJson j).2 none).result = .ok (m, diary) ∧
      m'.unbound = m.unbound := by
  rw [context] at h
  cases hparse : Json.parse (w.textOf r.file) with
  | error misfit =>
    rw [hparse] at h
    cases h
  | ok j =>
    rw [hparse] at h
    dsimp only at h
    rw [Run.run_observed_bind] at h
    cases hmapped : (MappedContext.ofDocument (Graph.ofJson j).1 (Graph.ofJson j).2 none).result with
    | error fault =>
      rw [hmapped] at h
      cases h
    | ok made =>
      obtain ⟨m, diary⟩ := made
      rw [hmapped] at h
      exact ⟨j, m, diary, rfl, hmapped, unbound_of_resolveWith h⟩

/-- A delivery that ends well hands over the text of the context, on a line of its own or in a file. -/
theorem delivered_of_deliver {indent : Option Int} {m : MappedContext} (h : (r.deliver w indent m).status = 0) :
    ∃ text, m.serialize w.release indent = .ok text ∧ (text.toList.all Json.isPrinted = true →
      ∃ after ∈ ["", "\n"], (r.deliver w indent m).unstyled.delivered = text ++ after) := by
  rw [deliver] at h ⊢
  cases hserialize : m.serialize w.release indent with
  | error fault =>
    rw [hserialize] at h
    exact absurd h (status_ofStop _)
  | ok text =>
    rw [hserialize] at h
    refine ⟨text, rfl, ?_⟩
    intro hprinted
    cases houtput : r.output with
    | none =>
      refine ⟨"\n", by simp, ?_⟩
      apply unstyled_of_printed
      rw [String.toList_append, List.all_append, hprinted]
      rfl
    | some path =>
      rw [houtput] at h
      dsimp only at h ⊢
      rw [writeTo] at h ⊢
      cases htarget : w.target path with
      | error fault =>
        rw [htarget] at h
        exact absurd h (status_ofStop _)
      | ok place => exact ⟨"", by simp, by simp [Outcome.delivered, Outcome.unstyled]⟩

/-- A document that can be mapped is flattened without types, if its snapshot is neither too deep nor too wide and
there is a place for it. -/
theorem status_run_of_mapped {j : Json} {m : MappedContext} {diary : Diary} {indent : Int}
    (hparse : Json.parse (w.textOf r.file) = .ok j)
    (hmapped : (MappedContext.ofDocument (Graph.ofJson j).1 (Graph.ofJson j).2 none).result = .ok (m, diary))
    (hdepth : m.written.toJson.depth ≤ Json.snapshotDepth) (htypes : r.types = none)
    (hindent : r.indent = some indent) (hfits : Json.Layout.fits (some indent) = true)
    (hheld : Json.Layout.isHeld (some indent) = true)
    (houtput : ∀ path ∈ r.output, ∃ place, w.target path = .ok place) : (r.run w).status = 0 := by
  obtain ⟨o, hstatus⟩ : ∃ o : Observatory,
      (r.run w).status = (r.outcome w (r.settings w) ((r.context w).run.run o).1).status := ⟨_, rfl⟩
  have hcontext : ((r.context w).run.run o).1 = .ok m := by
    rw [context, hparse]
    dsimp only
    rw [Run.run_observed_bind, hmapped]
    dsimp only
    rw [resolveWith, htypes]
    rfl
  have horderly : m.Orderly Number.Readable :=
    MappedContext.orderly_ofDocument (Graph.layered_ofJson (Json.orderly_parse hparse)) hmapped
  have hserialize : m.serialize w.release (some indent) = .ok (m.written.toJson.render (some indent)) := by
    refine MappedContext.serialize_eq_ok.mpr ⟨_, ?_, hfits, hheld, horderly.sound_written.toJson.isShort, rfl⟩
    rw [horderly.snapshot_eq, if_pos (w.release.writes_of_depth_le _ hdepth)]
  rw [hstatus, hcontext, outcome, hindent, Option.some_or, deliver, hserialize]
  cases hpath : r.output with
  | none => rfl
  | some path =>
    obtain ⟨place, hplace⟩ := houtput path hpath
    change (writeTo w path _).status = 0
    rw [writeTo, hplace]
    rfl

/-- What a flattening that ends well hands over. -/
theorem delivered_of_run (h : (r.run w).status = 0) :
    ∃ j m diary indent, Json.parse (w.textOf r.file) = .ok j ∧
      (MappedContext.ofDocument (Graph.ofJson j).1 (Graph.ofJson j).2 none).result = .ok (m, diary) ∧
      m.snapshot w.release = .ok m.written.toJson ∧ m.written.Sound ∧
      ∃ after ∈ ["", "\n"], (r.run w).unstyled.delivered = m.written.toJson.render indent ++ after := by
  obtain ⟨o, hstatus, hdelivered⟩ : ∃ o : Observatory,
      (r.run w).status = (r.outcome w (r.settings w) ((r.context w).run.run o).1).status ∧
        (r.run w).unstyled.delivered =
          (r.outcome w (r.settings w) ((r.context w).run.run o).1).unstyled.delivered :=
    ⟨_, rfl, rfl⟩
  rw [hstatus] at h
  rw [hdelivered]
  cases hcontext : ((r.context w).run.run o).1 with
  | error stop =>
    rw [hcontext] at h
    exact absurd h (status_ofStop stop)
  | ok m' =>
    rw [hcontext, outcome] at h
    obtain ⟨j, m, diary, hparse, hmapped, hunbound⟩ := mapped_of_context hcontext
    have horderly : m.Orderly Number.Readable :=
      MappedContext.orderly_ofDocument (Graph.layered_ofJson (Json.orderly_parse hparse)) hmapped
    have hsound : m.written.Sound := horderly.sound_written
    obtain ⟨text, hserialize, hhands⟩ := delivered_of_deliver h
    obtain ⟨written, hsnapshot, -, -, -, rfl⟩ := MappedContext.serialize_eq_ok.mp hserialize
    have hsame : m.snapshot w.release = .ok written := by
      rw [MappedContext.snapshot, ← MappedContext.toJson_eq_of_unbound hunbound]
      exact hsnapshot
    obtain rfl : m.written.toJson = written := by
      rw [horderly.snapshot_eq] at hsame
      split at hsame
      · exact Except.ok.inj hsame
      · cases hsame
    obtain ⟨after, hafter, hhanded⟩ := hhands (Json.printed_render hsound.toJson _)
    exact ⟨j, m, diary, _, hparse, hmapped, hsame, hsound, after, hafter, hhanded⟩

end FlattenRequest

namespace Summary

variable {s : Summary}

theorem exists_map_some {ids : List (Option String)} (h : none ∉ ids) :
    ∃ texts : List String, ids = texts.map some := by
  induction ids with
  | nil => exact ⟨[], rfl⟩
  | cons id rest ih =>
    rw [List.mem_cons, not_or] at h
    obtain ⟨texts, rfl⟩ := ih h.2
    obtain ⟨text, rfl⟩ := Option.ne_none_iff_exists'.mp (Ne.symm h.1)
    exact ⟨text :: texts, rfl⟩

/-- Identifiers behind each other, or a dash where nothing is to be read. -/
def joined (ids : List String) : String :=
  let text := String.intercalate ", " ids
  if text.isEmpty then "-" else text

variable (s) in
/-- All lines of a summary that lists these identifiers. -/
def lines (ids : List String) : List String := s.head ++ s!"Executable: {joined ids}" :: s.rest

theorem executableText_of_some {ids : List String} (h : s.executable = ids.map some) :
    s.executableText = some (joined ids) := by
  have hids (ids : List String) : (ids.map some).mapM (fun id => id) = some ids := by
    induction ids with
    | nil => rfl
    | cons id rest ih =>
      rw [List.map_cons, List.mapM_cons, ih]
      rfl
  rw [executableText, h, hids]
  rfl

theorem executableText_of_none (h : none ∈ s.executable) : s.executableText = none := by
  have hids (ids : List (Option String)) (h : none ∈ ids) : ids.mapM (fun id => id) = none := by
    induction ids with
    | nil => cases h
    | cons id rest ih =>
      rw [List.mapM_cons]
      cases id with
      | none => rfl
      | some id =>
        have hrest : none ∈ rest := by simpa using h
        rw [ih hrest]
        rfl
  rw [executableText, hids s.executable h]
  rfl

/-- All lines are written exactly if everything that is listed has an identifier. -/
theorem status_outcome : s.outcome.status = 0 ↔ none ∉ s.executable := by
  constructor
  · intro h hnone
    rw [outcome, executableText_of_none hnone] at h
    cases h
  · intro h
    obtain ⟨ids, hids⟩ := exists_map_some h
    rw [outcome, executableText_of_some hids]
    rfl

theorem ofContext_unbound (m : MappedContext) : ofContext m.unbound = ofContext m := by
  have hflag (p : Process) : p.unbound.behaviour.get "isExecutable" .null =
      p.behaviour.get "isExecutable" .null := by
    rw [Process.unbound, Entity.unbound, Behaviour.unbound_eq, Behaviour.get_relabel]
  simp only [ofContext, MappedContext.unbound_eq, MappedContext.executableProcesses, List.filter_map,
    Function.comp_def, hflag, List.length_map, List.map_map]
  rfl

/-- Raw fields of other names have no part in a summary. -/
theorem ofContext_mapEntities (m : MappedContext) {keys : List String} (h : "isExecutable" ∉ keys) :
    ofContext (m.mapEntities (Entity.trim keys)) = ofContext m := by
  have hflag (e : Entity) : (e.trim keys).behaviour.get "isExecutable" .null =
      e.behaviour.get "isExecutable" .null := by
    have hkey : Member.ofKey? "isExecutable" = none := by decide
    rw [Entity.trim, Behaviour.trim_eq, Behaviour.get, Behaviour.get, Behaviour.extras_mk,
      Fields.get?_without h, hkey]
  simp only [ofContext, MappedContext.mapEntities, MappedContext.executableProcesses, List.filter_map,
    Function.comp_def, hflag, List.length_map, List.map_map]
  rfl

/-- What a summary tells of a context that has been written: a process whose flag is lost is not listed. -/
def ofWritten (m : MappedContext) : Summary :=
  { ofContext m with executable := m.flaggedProcesses.map (·.id) }

theorem ofContext_written (m : MappedContext) : ofContext m.written = ofWritten m := by
  simp only [ofContext, ofWritten, MappedContext.executableProcesses_written, List.map_map]
  simp only [MappedContext.written, List.length_map]
  rfl

/-- Nothing else is lost. -/
theorem ofWritten_eq_iff {m : MappedContext} :
    ofWritten m = ofContext m ↔ ∀ p ∈ m.executableProcesses, p.executableFlag.isLost = false := by
  constructor
  · intro h p hp
    have hlength := congrArg (fun s : Summary => s.executable.length) h
    simp only [ofWritten, ofContext, MappedContext.flaggedProcesses, List.length_map,
      List.length_filter_eq_length_iff] at hlength
    simpa using hlength p hp
  · intro h
    have hflagged : m.flaggedProcesses = m.executableProcesses := by
      refine List.filter_eq_self.mpr ?_
      intro p hp
      rw [h p hp]
      rfl
    rw [ofWritten, hflagged]
    rfl

end Summary

namespace SummaryRequest

variable {r : SummaryRequest} {w : World}

/-- A summary of the snapshot of a sound context, whatever the indent. -/
theorem run_of_snapshot {m : MappedContext} (hsound : m.Sound) (hdepth : m.toJson.depth ≤ Json.snapshotDepth)
    (htypes : r.types = none) {indent : Option Int} {after : String} (hafter : after ∈ ["", "\n"])
    (hfile : lookAt w r.file = .ok (.ok (.file (m.toJson.render indent ++ after)))) :
    r.run w =
      if r.asJson then { Outcome.silent with output := (Summary.ofContext m).toJson.render (some 2) ++ "\n" }
      else (Summary.ofContext m).outcome := by
  have hblank : ∀ c ∈ after.toList, Json.isBlank c = true := by
    rw [← List.all_eq_true]
    rcases List.mem_pair.mp hafter with rfl | rfl <;> rfl
  have hprinted : (m.toJson.render indent ++ after).toList.all Json.isPrinted = true := by
    rw [String.toList_append, List.all_append, Json.printed_render hsound.toJson]
    rcases List.mem_pair.mp hafter with rfl | rfl <;> rfl
  have hvalue : Json.read? (w.textOf r.file) = some m.toJson := by
    have hread := Json.read?_render_append hsound.toJson hdepth indent hblank
    rwa [String.ofList_toList, ← World.textOf_of_printed hfile hprinted] at hread
  have hread : read w.release (w.textOf r.file) =
      .ok (m.unbound.mapEntities (Entity.trim (Check.dropped (.text w.release)))) := by
    have hcheck : (MappedContext.Snapshot.text (w.textOf r.file)).check w.release =
        .valid (m.unbound.mapEntities (Entity.trim (Check.dropped (.text w.release)))) := by
      rw [MappedContext.Snapshot.check, MappedContext.Snapshot.value?, hvalue]
      exact Check.mappedContext_text hsound w.release
    rw [read, hcheck]
    rfl
  have hcontext : r.context w =
      pure (m.unbound.mapEntities (Entity.trim (Check.dropped (.text w.release)))) := by
    rw [context, hread]
    dsimp only
    rw [resolveWith, htypes]
    rfl
  have hkeys : "isExecutable" ∉ Check.dropped (.text w.release) := by
    rw [Check.dropped]
    split <;> decide
  rw [run, hcontext, ← Summary.ofContext_unbound, ← Summary.ofContext_mapEntities m.unbound hkeys]
  rfl

end SummaryRequest

/-- A command line that asks for a summary of a file in one of the formats. -/
theorem run_summary {w : World} {format path text : String} (hformat : format ∈ formats)
    (hfile : lookAt w path = .ok (.ok (.file text))) :
    run w ["summary", "--format", format, "--", path] =
      (⟨path, format == "json", none⟩ : SummaryRequest).run w := by
  have hmain : mainForm.takeApart ["summary", "--format", format, "--", path] =
      .ok ⟨[], ["summary", "--format", format, "--", path]⟩ := by
    rw [Form.takeApart, if_neg (by decide), if_neg (by decide +kernel)]
    rfl
  have hown : SummaryRequest.form.takeApart ["--format", format, "--", path] =
      .ok ⟨[(.format, .text format)], [path]⟩ := by
    have hsplit : splitValue "--format".toList = ("--format", none) := by decide +kernel
    have htoken : SummaryRequest.form.token "--format" = .ok (.pending .format "--format") := by
      rw [Form.token, hsplit]
      simp [Form.long?, SummaryRequest.form]
    rw [Form.takeApart, if_neg (by decide), if_pos (by decide +kernel), htoken]
    dsimp only
    rw [Form.takeApart, if_pos rfl]
    rfl
  have hoptions : SummaryRequest.form.checkOptions w ⟨[(.format, .text format)], [path]⟩ [.format] = .ok () := by
    have hvalue : accept (SummaryRequest.form.hint .format) (refusal w .format format) = .ok () := by
      rw [refusal, if_pos (List.contains_iff_mem.mpr hformat)]
      rfl
    change (accept (SummaryRequest.form.hint .format) (refusal w .format format) >>= fun _ => .ok ()) = _
    rw [hvalue]
    rfl
  have hoperand : SummaryRequest.form.checkOperand w ⟨[(.format, .text format)], [path]⟩ = .ok path := by
    have hplace (hint : String) : accept hint (operandRefusal w path) = .ok () := by
      rw [operandRefusal, hfile]
      rfl
    rw [Form.checkOperand]
    dsimp only [SummaryRequest.form]
    rw [hplace]
    rfl
  have hcheck : SummaryRequest.form.check w ⟨[(.format, .text format)], [path]⟩ = .ok path := by
    rw [Form.check, hoperand]
    change (SummaryRequest.form.checkOptions w ⟨[(.format, .text format)], [path]⟩ [.format] >>= fun _ => _) = _
    rw [hoptions]
    rfl
  have hmainRun : run w ["summary", "--format", format, "--", path] =
      runNamed w "summary" ["--format", format, "--", path] := by
    rw [run, withGiven, hmain]
    rfl
  rw [hmainRun, runNamed, withArguments, withGiven, hown]
  dsimp only
  rw [hcheck]
  rfl

/-- A summary of what a flattening has handed over tells of the context that the document is mapped to. -/
theorem SummaryRequest.run_of_flattened {w : World} {r : FlattenRequest} (h : (r.run w).status = 0) :
    ∃ j m diary, Json.parse (w.textOf r.file) = .ok j ∧
      (MappedContext.ofDocument (Graph.ofJson j).1 (Graph.ofJson j).2 none).result = .ok (m, diary) ∧
      m.snapshot w.release = .ok m.written.toJson ∧ (m.written.toJson.depth ≤ Json.snapshotDepth →
        ∀ (w' : World) (path : String) (asJson : Bool),
          lookAt w' path = .ok (.ok (.file (r.run w).unstyled.delivered)) →
          (⟨path, asJson, none⟩ : SummaryRequest).run w' =
            if asJson then
              { Outcome.silent with output := (Summary.ofWritten m).toJson.render (some 2) ++ "\n" }
            else (Summary.ofWritten m).outcome) := by
  obtain ⟨j, m, diary, indent, hparse, hmapped, hsnapshot, hsound, after, hafter, hdelivered⟩ :=
    FlattenRequest.delivered_of_run h
  refine ⟨j, m, diary, hparse, hmapped, hsnapshot, ?_⟩
  intro hdepth w' path asJson hfile
  rw [← Summary.ofContext_written]
  exact run_of_snapshot hsound hdepth rfl hafter (hdelivered ▸ hfile)

/-- What a flattening hands over is read by a summary, if it is not nested too deep, and the summary tells what
there is to tell of the context that the document is mapped to, whatever the two releases are.  Only a process
whose flag cannot be written is not listed.  As JSON all of it is told; in lines it is exactly if every process
that is listed has an identifier.  Nothing is said of a document in which half of a pair of units stands alone
(`Json.Complaint.loneHalf`): no text has one, so such a document has no value here. -/
theorem run_summary_of_flattened {w : World} {r : FlattenRequest} (h : (r.run w).status = 0) :
    ∃ j m diary snapshot, Json.parse (w.textOf r.file) = .ok j ∧
      (MappedContext.ofDocument (Graph.ofJson j).1 (Graph.ofJson j).2 none).result = .ok (m, diary) ∧
      m.snapshot w.release = .ok snapshot ∧
      (Summary.ofWritten m = Summary.ofContext m ↔
        ∀ p ∈ m.executableProcesses, p.executableFlag.isLost = false) ∧
      (snapshot.depth ≤ Json.snapshotDepth → ∀ (w' : World) (path : String),
        lookAt w' path = .ok (.ok (.file (r.run w).unstyled.delivered)) →
        run w' ["summary", "--format", "json", "--", path] =
          { Outcome.silent with output := (Summary.ofWritten m).toJson.render (some 2) ++ "\n" } ∧
        ((run w' ["summary", "--format", "text", "--", path]).status = 0 ↔
          ∀ p ∈ m.flaggedProcesses, p.id ≠ none) ∧
        ∀ ids : List String, m.flaggedProcesses.map (·.id) = ids.map some →
          run w' ["summary", "--format", "text", "--", path] =
            { Outcome.silent with output := Summary.unlines ((Summary.ofWritten m).lines ids) }) := by
  obtain ⟨j, m, diary, hparse, hmapped, hsnapshot, hreads⟩ := SummaryRequest.run_of_flattened h
  refine ⟨j, m, diary, m.written.toJson, hparse, hmapped, hsnapshot, Summary.ofWritten_eq_iff, ?_⟩
  intro hdepth w' path hfile
  have hjson : run w' ["summary", "--format", "json", "--", path] =
      { Outcome.silent with output := (Summary.ofWritten m).toJson.render (some 2) ++ "\n" } :=
    (run_summary (by decide) hfile).trans (hreads hdepth w' path true hfile)
  have htext : run w' ["summary", "--format", "text", "--", path] = (Summary.ofWritten m).outcome :=
    (run_summary (by decide) hfile).trans (hreads hdepth w' path false hfile)
  refine ⟨hjson, ?_, ?_⟩
  · rw [htext, Summary.status_outcome, Summary.ofWritten]
    simp
  · intro ids hids
    rw [htext, Summary.outcome, Summary.executableText_of_some hids]
    rfl

/-- A document with some processes. -/
def planned (processes : List (List (String × Json))) : Json :=
  .obj [("rootElement", .obj [("$type", .str "bpmn:Definitions"), ("id", .str "d"),
    ("rootElements", .arr (processes.map fun fields => .obj (("$type", .str "bpmn:Process") :: fields)))])]

/-- A request to write the snapshot of a document over it. -/
def overwriting : FlattenRequest := ⟨"d", some "d", none, some 2, false, false⟩

/-- A process with an identifier and one without it, which is not executable. -/
def named : Json := planned [[("id", .str "p"), ("isExecutable", .bool true)], []]

def nameless : Json := planned [[("isExecutable", .bool true)]]

/-- What a document is mapped to. -/
def mappedOf (j : Json) : Option MappedContext :=
  ((MappedContext.ofDocument (Graph.ofJson j).1 (Graph.ofJson j).2 none).result.toOption).map (·.1)

theorem parse_folder {j : Json} (hsound : j.Sound) :
    Json.parse ((folder (j.render none)).textOf "d") = .ok j := by
  rw [World.textOf_of_printed (lookAt_folder _) (Json.printed_render hsound none), Json.parse_render hsound]

theorem status_overwriting {j : Json} (hsound : j.Sound)
    (hmapped : (mappedOf j).map (fun m => decide (m.written.toJson.depth ≤ Json.snapshotDepth)) = some true) :
    (overwriting.run (folder (j.render none))).status = 0 := by
  obtain ⟨m, hm, hdepth⟩ := Option.map_eq_some_iff.mp hmapped
  rw [mappedOf, Option.map_eq_some_iff] at hm
  obtain ⟨⟨m, diary⟩, hresult, rfl⟩ := hm
  have hmade : (MappedContext.ofDocument (Graph.ofJson j).1 (Graph.ofJson j).2 none).result = .ok (m, diary) := by
    cases hrun : (MappedContext.ofDocument (Graph.ofJson j).1 (Graph.ofJson j).2 none).result with
    | error fault =>
      rw [hrun] at hresult
      cases hresult
    | ok made =>
      rw [hrun] at hresult
      exact congrArg _ (Option.some.inj hresult)
  refine FlattenRequest.status_run_of_mapped (parse_folder hsound) hmade (of_decide_eq_true hdepth) rfl rfl
    (by decide) (by decide) ?_
  intro path hpath
  obtain rfl := Option.some.inj hpath
  exact ⟨_, target_folder _⟩

/-- What is told of a document, if its snapshot can be read. -/
def toldOf (j : Json) : Option Summary := do
  let m ← mappedOf j
  let snapshot ← (m.snapshot .keeping).toOption
  if snapshot.depth ≤ Json.snapshotDepth then some (Summary.ofWritten m) else none

theorem told_of_toldOf {j : Json} {m : MappedContext} {diary : Diary} {snapshot : Json} {s : Summary}
    (hmapped : (MappedContext.ofDocument (Graph.ofJson j).1 (Graph.ofJson j).2 none).result = .ok (m, diary))
    (hsnapshot : m.snapshot .keeping = .ok snapshot) (h : toldOf j = some s) :
    snapshot.depth ≤ Json.snapshotDepth ∧ Summary.ofWritten m = s := by
  rw [toldOf, mappedOf, hmapped] at h
  simp only [Except.toOption, Option.map_some, Option.bind_eq_bind, Option.bind_some, hsnapshot] at h
  split at h
  · next hdepth => exact ⟨hdepth, Option.some.inj h⟩
  · cases h

theorem run_summary_of_flattened_named :
    let w := folder (named.render none)
    let w' := folder (overwriting.run w).unstyled.delivered
    let s : Summary := ⟨some "d", none, 2, [some "p"], 0, 0, 0, 0, 0⟩
    (overwriting.run w).status = 0 ∧
      run w' ["summary", "--format", "json", "--", "d"] =
        { Outcome.silent with output := s.toJson.render (some 2) ++ "\n" } ∧
      run w' ["summary", "--format", "text", "--", "d"] =
        { Outcome.silent with
          output := "Definition: d (unnamed)\nProcesses: 2\nExecutable: p\nActivities: 0\n" ++
            "Sequence flows: 0\nMessage flows: 0\nData objects: 0\nScripts: 0\n" } := by
  intro w w' s
  have hsound : named.Sound := by simp [named, planned, Fields.Distinct, Fields.keys, Json.Sound.bool]
  have hstatus : (overwriting.run w).status = 0 := status_overwriting hsound (by decide +kernel)
  obtain ⟨j, m, diary, snapshot, hparse, hmapped, hsnapshot, -, hreads⟩ := run_summary_of_flattened hstatus
  obtain rfl : named = j := Except.ok.inj ((parse_folder hsound).symm.trans hparse)
  have htold : toldOf named = some s := by decide +kernel
  obtain ⟨hdepth, hsummary⟩ := told_of_toldOf hmapped hsnapshot htold
  obtain ⟨hjson, -, htext⟩ := hreads hdepth w' "d" (lookAt_folder _)
  have hids : m.flaggedProcesses.map (·.id) = ["p"].map some := congrArg Summary.executable hsummary
  have hlines : Summary.unlines (s.lines ["p"]) =
      "Definition: d (unnamed)\nProcesses: 2\nExecutable: p\nActivities: 0\n" ++
        "Sequence flows: 0\nMessage flows: 0\nData objects: 0\nScripts: 0\n" := by
    decide +kernel
  refine ⟨hstatus, ?_, ?_⟩
  · rw [hjson, hsummary]
  · rw [htext ["p"] hids, hsummary, hlines]

/-- The snapshot of an executable process without an identifier is written well, but no summary of it can be
written in lines. -/
theorem run_summary_nameless :
    let w := folder (nameless.render none)
    let w' := folder (overwriting.run w).unstyled.delivered
    (overwriting.run w).status = 0 ∧
      (∃ m snapshot, mappedOf nameless = some m ∧ m.snapshot w.release = .ok snapshot ∧
        snapshot.depth ≤ Json.snapshotDepth) ∧
      (run w' ["summary", "--format", "json", "--", "d"]).status = 0 ∧
      (run w' ["summary", "--format", "text", "--", "d"]).status = 1 := by
  intro w w'
  have hsound : nameless.Sound := by simp [nameless, planned, Fields.Distinct, Fields.keys, Json.Sound.bool]
  have hstatus : (overwriting.run w).status = 0 := status_overwriting hsound (by decide +kernel)
  obtain ⟨j, m, diary, hparse, hmapped, hsnapshot, hreads⟩ := SummaryRequest.run_of_flattened hstatus
  obtain rfl : nameless = j := Except.ok.inj ((parse_folder hsound).symm.trans hparse)
  have htold : toldOf nameless = some ⟨some "d", none, 1, [none], 0, 0, 0, 0, 0⟩ := by decide +kernel
  obtain ⟨hdepth, hsummary⟩ := told_of_toldOf hmapped hsnapshot htold
  have hrun (asJson : Bool) := hreads hdepth w' "d" asJson (lookAt_folder _)
  refine ⟨hstatus, ⟨m, _, by rw [mappedOf, hmapped]; rfl, hsnapshot, hdepth⟩, ?_, ?_⟩
  · rw [run_summary (by decide) (lookAt_folder _)]
    exact congrArg Outcome.status (hrun true)
  · rw [run_summary (by decide) (lookAt_folder _)]
    refine (congrArg Outcome.status (hrun false)).trans ?_
    rw [if_neg (by decide), Summary.outcome, Summary.executableText_of_none (by rw [hsummary]; decide)]
    rfl

end Bpmn.Command
