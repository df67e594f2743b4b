import Bpmn.Proofs.Mapping.Walks

namespace Bpmn

/-- A list is made of two others, each of which keeps its order. -/
inductive Interleaves {α : Type} : List α → List α → List α → Prop where
  | nil : Interleaves [] [] []
  | left {a as bs cs} (h : Interleaves as bs cs) : Interleaves (a :: as) bs (a :: cs)
  | right {b as bs cs} (h : Interleaves as bs cs) : Interleaves as (b :: bs) (b :: cs)

namespace Interleaves

variable {α : Type} {as bs cs as' bs' cs' : List α}

theorem length (h : Interleaves as bs cs) : cs.length = as.length + bs.length := by
  induction h with
  | nil => rfl
  | left _ ih =>
    simp only [List.length_cons, ih]
    omega
  | right _ ih =>
    simp only [List.length_cons, ih]
    omega

theorem append (h : Interleaves as bs cs) (h' : Interleaves as' bs' cs') :
    Interleaves (as ++ as') (bs ++ bs') (cs ++ cs') := by
  induction h with
  | nil => exact h'
  | left _ ih => exact .left ih
  | right _ ih => exact .right ih

theorem of_append (as bs : List α) : Interleaves as bs (as ++ bs) := by
  induction as with
  | nil =>
    induction bs with
    | nil => exact .nil
    | cons b bs ih => exact .right ih
  | cons a as ih => exact .left ih

/-- Pieces of two lists in turn. -/
theorem flatMap {β : Type} (l : List β) (f g : β → List α) :
    Interleaves (l.flatMap f) (l.flatMap g) (l.flatMap fun b => f b ++ g b) := by
  induction l with
  | nil => exact .nil
  | cons b rest ih =>
    simp only [List.flatMap_cons]
    exact (of_append (f b) (g b)).append ih

end Interleaves

/-- A call of an extension: the element, the scripts that the document has on it and those that the
extension registers for it. -/
structure Call where
  stop : Stop
  own : List Script
  registered : List Script

/-- Hidden calls that register nothing may as well not be counted. -/
theorem flatMap_filter_hidden {calls : List Call}
    (h : ∀ call ∈ calls, call.stop.hidden = true → call.registered = []) :
    (calls.filter (!·.stop.hidden)).flatMap (·.registered) = calls.flatMap (·.registered) := by
  induction calls with
  | nil => rfl
  | cons call rest ih =>
    have hrest := ih fun c hc => h c (List.mem_cons_of_mem _ hc)
    cases hhidden : call.stop.hidden with
    | false => simp [hhidden, hrest]
    | true =>
      have hnone := h call (by simp) hhidden
      simp [hhidden, hrest, hnone]

namespace Survey

variable (s : Survey)

/-- The scripts that the document has on an element. -/
def written (place : Nat) : Except Fault (List Script) :=
  if s.graph.IsA place Kind.sequenceFlow then s.flowScripts place
  else if s.graph.IsA place Kind.scriptTask then do return [← s.taskScript place]
  else return []

/-- Each call registers what the extension answers, given what it has seen before. -/
def Answers (seen : List Nat) (calls : List Call) : Prop :=
  ∀ before call after, calls = before ++ call :: after →
    s.answered (seen ++ before.map (·.stop.place)) call.stop.place = .ok call.registered

/-- Some calls lead from one diary to another. -/
structure Keeps (d d' : Diary) (calls : List Call) : Prop where
  visited : d'.visited = d.visited ++ (if s.extension.isSome then calls.map (·.stop.place) else [])
  registered : d'.registered = d.registered ++ calls.flatMap (·.registered)
  written : ∀ call ∈ calls, s.written call.stop.place = .ok call.own
  answered : s.Answers d.visited calls

variable {s} {d d₁ d' : Diary} {before after : List Call} {parent scope : ScopeRef} {place : Nat}

/-- Without an extension nothing is answered, whatever has been seen. -/
theorem answered_congr {seen seen' : List Nat} (h : s.extension.isSome = true → seen = seen') :
    s.answered seen place = s.answered seen' place := by
  rw [answered, answered]
  cases he : s.extension with
  | none => rfl
  | some extension => rw [h (by rw [he]; rfl)]

theorem Answers.append {seen : List Nat} (h : s.Answers seen before)
    (h' : s.Answers (seen ++ before.map (·.stop.place)) after) : s.Answers seen (before ++ after) := by
  intro earlier call later hcalls
  rcases List.append_eq_append_iff.mp hcalls with ⟨more, rfl, hafter⟩ | ⟨more, hbefore, hlater⟩
  · have hanswered := h' more call later hafter
    rwa [List.append_assoc, ← List.map_append] at hanswered
  · cases more with
    | nil =>
      obtain rfl : before = earlier := by rw [hbefore, List.append_nil]
      have hanswered := h' [] call later hlater.symm
      rwa [List.map_nil, List.append_nil] at hanswered
    | cons first more =>
      obtain ⟨rfl, -⟩ := List.cons.inj hlater
      exact h earlier call more hbefore

theorem Answers.congr {seen seen' : List Nat} {calls : List Call} (h : s.Answers seen calls)
    (hseen : s.extension.isSome = true → seen = seen') : s.Answers seen' calls := by
  intro earlier call later hcalls
  rw [← h earlier call later hcalls]
  exact answered_congr fun hsome => by rw [hseen hsome]

theorem Keeps.none : s.Keeps d d [] := ⟨by simp, by simp, by simp, by simp [Answers]⟩

theorem Keeps.append (h : s.Keeps d d₁ before) (h' : s.Keeps d₁ d' after) :
    s.Keeps d d' (before ++ after) where
  visited := by
    rw [h'.visited, h.visited]
    cases s.extension <;> simp
  registered := by simp [h'.registered, h.registered]
  written := by
    intro call hcall
    rcases List.mem_append.mp hcall with hcall | hcall
    · exact h.written call hcall
    · exact h'.written call hcall
  answered := by
    refine h.answered.append (h'.answered.congr ?_)
    intro hsome
    rw [h.visited, if_pos hsome]

theorem Keeps.visit {hidden : Bool} {own scripts : List Script}
    (hseen : (s.visit place).Gives d scripts d') (hown : s.written place = .ok own) :
    s.Keeps d d' [⟨⟨place, hidden⟩, own, scripts⟩] where
  visited := (diary_of_visit hseen).1
  registered := by simpa using (diary_of_visit hseen).2.1
  written := by simpa using hown
  answered := by
    intro earlier call later hcalls
    obtain ⟨rfl, rfl, -⟩ : earlier = [] ∧ call = ⟨⟨place, hidden⟩, own, scripts⟩ ∧ later = [] := by
      simpa [eq_comm, and_assoc] using List.singleton_eq_append_iff.mp hcalls
    simpa using (diary_of_visit hseen).2.2

theorem written_eq_nil (hflow : ¬ s.graph.IsA place Kind.sequenceFlow)
    (htask : ¬ s.graph.IsA place Kind.scriptTask) : s.written place = .ok [] := by
  rw [written, if_neg hflow, if_neg htask]
  rfl

theorem written_leaf {own : Flattened}
    (h : s.leaf parent (s.graph.field place "$type") place = .ok own) :
    s.written place = .ok own.scripts := by
  simp only [leaf, Value.isText_iff] at h
  split at h
  · next kind =>
    have kind : s.graph.IsA place Kind.messageFlow := kind
    simp only [ok_bind, ok_pure] at h
    obtain ⟨flow, -, rfl⟩ := h
    exact written_eq_nil (kind.not (by decide)) (kind.not (by decide))
  split at h
  · next kind =>
    have kind : s.graph.IsA place Kind.dataObject := kind
    simp only [ok_bind, ok_pure] at h
    obtain ⟨object, -, rfl⟩ := h
    exact written_eq_nil (kind.not (by decide)) (kind.not (by decide))
  split at h
  · next kind =>
    have kind : s.graph.IsA place Kind.sequenceFlow := kind
    simp only [ok_bind, ok_pure] at h
    obtain ⟨edge, -, scripts, hscripts, flow, -, rfl⟩ := h
    rw [written, if_pos kind]
    exact hscripts
  next hflow =>
  have hflow : ¬ s.graph.IsA place Kind.sequenceFlow := hflow
  split at h
  · next kind =>
    have kind : s.graph.IsA place Kind.boundaryEvent := kind
    simp only [ok_bind, ok_pure] at h
    obtain ⟨event, -, rfl⟩ := h
    exact written_eq_nil hflow (kind.not (by decide))
  rw [ok_bind] at h
  obtain ⟨activity, -, h⟩ := h
  split at h
  · next kind =>
    have kind : s.graph.IsA place Kind.scriptTask := kind
    simp only [ok_bind, ok_pure] at h
    obtain ⟨script, hscript, _, rfl, rfl⟩ := h
    rw [written, if_neg hflow, if_pos kind, hscript]
    rfl
  · next htask =>
    simp only [ok_bind, ok_pure] at h
    obtain ⟨_, rfl, rfl⟩ := h
    exact written_eq_nil hflow htask

theorem written_container {own : Flattened} (kind : s.graph.IsScope place)
    (h : s.container parent (s.graph.field place "$type") place = .ok (own, scope)) :
    s.written place = .ok [] ∧ own.scripts = [] := by
  have hwritten : s.written place = .ok [] := by
    refine written_eq_nil ?_ ?_
    · exact fun h => h.not_scope (by decide) kind
    · exact fun h => h.not_scope (by decide) kind
  simp only [container] at h
  split at h
  · simp only [ok_bind, ok_pure, Prod.mk.injEq] at h
    obtain ⟨p, -, _, -, rfl, -⟩ := h
    exact ⟨hwritten, rfl⟩
  · simp only [ok_bind, ok_pure, Prod.mk.injEq] at h
    obtain ⟨a, -, _, -, rfl, -⟩ := h
    exact ⟨hwritten, rfl⟩

/-- Every walk is a tour, and calls the extension at each stop. -/
theorem Yields.calls {items : List Value} {f : Flattened} (h : s.Yields parent items d f d')
    (hidden : Bool) :
    ∃ calls : List Call, s.graph.Tours hidden items (calls.map (·.stop)) ∧ s.Keeps d d' calls ∧
      (hidden = false →
        f.scripts = (calls.filter (!·.stop.hidden)).flatMap fun c => c.own ++ c.registered) := by
  induction h generalizing hidden with
  | nil => exact ⟨[], .nil, .none, fun _ => rfl⟩
  | skipped kind _ ih =>
    obtain ⟨calls, htour, hkeeps, hscripts⟩ := ih hidden
    exact ⟨calls, .skipped kind htour, hkeeps, hscripts⟩
  | collaboration kind items _ _ ihb ihl =>
    obtain ⟨below, hbelow, hkeeps, -⟩ := ihb true
    obtain ⟨later, hlater, hkeeps', hscripts⟩ := ihl hidden
    refine ⟨below ++ later, ?_, hkeeps.append hkeeps', ?_⟩
    · rw [List.map_append]
      exact .collaboration kind items hbelow hlater
    · intro hopen
      have hnone : below.filter (!·.stop.hidden) = [] := by
        simp only [List.filter_eq_nil_iff]
        intro call hcall
        simp [hbelow.hidden rfl call.stop (List.mem_map_of_mem hcall)]
      rw [List.filter_append, hnone, List.nil_append]
      exact hscripts hopen
  | @scope _ place _ _ own _ _ scripts _ inner _ f _ kind made seen items _ _ ihb ihl =>
    obtain ⟨below, hbelow, hkeeps, hinner⟩ := ihb hidden
    obtain ⟨later, hlater, hkeeps', hlist⟩ := ihl hidden
    obtain ⟨hwritten, hown⟩ := written_container kind made
    have hvisit : s.Keeps _ _ [⟨⟨place, hidden⟩, [], scripts⟩] := .visit seen hwritten
    refine ⟨_, ?_, (hvisit.append hkeeps).append hkeeps', ?_⟩
    · simpa using Graph.Tours.scope kind items hbelow hlater
    · rintro rfl
      have hcarried : inner.carried.scripts = inner.scripts := rfl
      simp [hown, hcarried, Flattened.ofScripts, hinner rfl, hlist rfl]
  | @leaf _ place _ own _ scripts _ f _ unskipped single made seen _ ih =>
    obtain ⟨later, hlater, hkeeps, hlist⟩ := ih hidden
    have hvisit : s.Keeps _ _ [⟨⟨place, hidden⟩, own.scripts, scripts⟩] :=
      .visit seen (written_leaf made)
    refine ⟨_, ?_, hvisit.append hkeeps, ?_⟩
    · exact Graph.Tours.leaf ⟨not_or.mpr ⟨unskipped, single.1⟩, single.2⟩ hlater
    · rintro rfl
      simp [Flattened.ofScripts, hlist rfl]

end Survey

/-- The scripts that a document has on an element, which depend on nothing but its graph. -/
def Graph.written (g : Graph) (place : Nat) : Except Fault (List Script) :=
  (⟨g, .none, .null, none⟩ : Survey).written place

/-- What an extension has registered for an element of a document, given what it has seen before. -/
def Graph.answered (g : Graph) (extension : Option Extension) (seen : List Nat) (place : Nat) :
    Except Fault (List Script) :=
  (⟨g, .none, .null, extension⟩ : Survey).answered seen place

namespace MappedContext

variable {g : Graph} {document : Value} {extension : Option Extension} {m : MappedContext}
  {diary : Diary}

/-- A mapping is a tour from the root; a context has the scripts of all calls but the hidden ones. -/
theorem calls_of_ofDocument (h : (ofDocument g document extension).result = .ok (m, diary)) :
    ∃ (root : Nat) (items : List Value) (calls : List Call),
      g.HasRoot document root items ∧ g.Tours false items (calls.map (·.stop)) ∧
      diary.visited = (if extension.isSome then calls.map (·.stop.place) else []) ∧
      diary.registered = calls.flatMap (·.registered) ∧
      (∀ call ∈ calls, g.written call.stop.place = .ok call.own) ∧
      (∀ before call after, calls = before ++ call :: after →
        g.answered extension (before.map (·.stop.place)) call.stop.place = .ok call.registered) ∧
      m.scripts = (calls.filter (!·.stop.hidden)).flatMap fun c => c.own ++ c.registered := by
  obtain ⟨root, definition, links, items, f, hroot, -, hyields, rfl⟩ := yields_of_ofDocument h
  obtain ⟨calls, htour, hkeeps, hscripts⟩ := hyields.calls false
  refine ⟨root, items, calls, hroot, htour, ?_, ?_, hkeeps.written, hkeeps.answered, hscripts rfl⟩
  · exact hkeeps.visited
  · exact hkeeps.registered

/-- The extension is called at each stop of the tour, and each call registers what the extension answers there,
given the stops before.  The scripts of the context are those of the calls that are not hidden.  So the registered
scripts are all in the context and in the order of the calls, between scripts of the document, if and only if none
has been registered below a collaboration. -/
theorem interleaves_registered_iff (h : (ofDocument g document extension).result = .ok (m, diary)) :
    ∃ (root : Nat) (items : List Value) (calls : List Call),
      g.HasRoot document root items ∧ (∀ t, g.Tours false items t ↔ t = calls.map (·.stop)) ∧
      (∀ call ∈ calls, g.written call.stop.place = .ok call.own) ∧
      (∀ before call after, calls = before ++ call :: after →
        g.answered extension (before.map (·.stop.place)) call.stop.place = .ok call.registered) ∧
      diary.registered = calls.flatMap (·.registered) ∧
      m.scripts = ((calls.filter (!·.stop.hidden)).flatMap fun c => c.own ++ c.registered) ∧
      (Interleaves ((calls.filter (!·.stop.hidden)).flatMap (·.own)) diary.registered m.scripts ↔
        ∀ call ∈ calls, call.stop.hidden = true → call.registered = []) := by
  obtain ⟨root, items, calls, hroot, htour, -, hregistered, hwritten, hanswered, hscripts⟩ :=
    calls_of_ofDocument h
  refine ⟨root, items, calls, hroot, htour.iff, hwritten, hanswered, hregistered, hscripts, ?_⟩
  let shown := calls.filter (!·.stop.hidden)
  have hshown : Interleaves (shown.flatMap (·.own)) (shown.flatMap (·.registered)) m.scripts := by
    rw [hscripts]
    exact .flatMap shown _ _
  constructor
  · intro hall
    have hparts : (shown.flatMap (·.registered)).length +
        ((calls.filter fun c => !!c.stop.hidden).flatMap (·.registered)).length =
          diary.registered.length := by
      rw [hregistered, ← List.length_append, ← List.flatMap_append]
      exact ((List.filter_append_perm _ calls).flatMap_right _).length_eq
    have hlength : m.scripts.length = (shown.flatMap (·.own)).length + diary.registered.length :=
      hall.length
    rw [hshown.length] at hlength
    have hnone : (calls.filter fun c => !!c.stop.hidden).flatMap (·.registered) = [] := by
      apply List.eq_nil_of_length_eq_zero
      omega
    intro call hcall hhidden
    rw [List.flatMap_eq_nil_iff] at hnone
    exact hnone call (by simp [hcall, hhidden])
  · intro hnone
    have hshow : shown.flatMap (·.registered) = diary.registered := by
      rw [hregistered]
      exact flatMap_filter_hidden hnone
    rw [← hshow]
    exact hshown

/-- A document with one message flow, which stands in a collaboration.  The last object is a script. -/
def collaborating : Graph where
  contents := #[
    .object [("$type", .str Kind.messageFlow), ("id", .str "f")],
    .list [.node 0],
    .object [("$type", .str Kind.collaboration), ("id", .str "c"), ("messageFlows", .list 1)],
    .list [.node 2],
    .object [("$type", .str "bpmn:Definitions"), ("id", .str "d"), ("rootElements", .list 3)],
    .object [("rootElement", .node 4)],
    .object [("body", .str "x")]]

/-- Registers one script for each element. -/
def registering : Extension := fun _ _ => [.ok ⟨.str "s", .node 6⟩]

theorem sizes_collaborating :
    (ofDocument collaborating (.node 5) (some registering)).result.toOption.map
      (fun (m, diary) => (m.scripts.length, diary.registered.length)) = some (0, 1) := by
  decide +kernel

theorem ofDocument_collaborating :
    ∃ m diary, (ofDocument collaborating (.node 5) (some registering)).result = .ok (m, diary) ∧
      m.scripts.length = 0 ∧ diary.registered.length = 1 := by
  have hsizes := sizes_collaborating
  cases hrun : (ofDocument collaborating (.node 5) (some registering)).result with
  | error fault =>
    rw [hrun] at hsizes
    cases hsizes
  | ok made =>
    rw [hrun] at hsizes
    obtain ⟨hscripts, hregistered⟩ := Prod.mk.inj (Option.some.inj hsizes)
    exact ⟨made.1, made.2, rfl, hscripts, hregistered⟩

theorem interleaves_registered_collaborating :
    ∃ m diary, (ofDocument collaborating (.node 5) (some registering)).result = .ok (m, diary) ∧
      ∃ (root : Nat) (items : List Value) (calls : List Call),
        collaborating.HasRoot (.node 5) root items ∧
        (∀ t, collaborating.Tours false items t ↔ t = calls.map (·.stop)) ∧
        (∀ call ∈ calls, collaborating.written call.stop.place = .ok call.own) ∧
        (∀ before call after, calls = before ++ call :: after →
          collaborating.answered (some registering) (before.map (·.stop.place)) call.stop.place =
            .ok call.registered) ∧
        diary.registered = calls.flatMap (·.registered) ∧
        m.scripts = ((calls.filter (!·.stop.hidden)).flatMap fun c => c.own ++ c.registered) ∧
        (Interleaves ((calls.filter (!·.stop.hidden)).flatMap (·.own)) diary.registered m.scripts ↔
          ∀ call ∈ calls, call.stop.hidden = true → call.registered = []) := by
  obtain ⟨m, diary, h, -⟩ := ofDocument_collaborating
  exact ⟨m, diary, h, interleaves_registered_iff h⟩

/-- A script that is registered for a message flow of a collaboration is lost. -/
theorem registered_lost_collaborating :
    ∃ m diary, (ofDocument collaborating (.node 5) (some registering)).result = .ok (m, diary) ∧
      ∀ own, ¬ Interleaves own diary.registered m.scripts := by
  obtain ⟨m, diary, h, hscripts, hregistered⟩ := ofDocument_collaborating
  refine ⟨m, diary, h, ?_⟩
  intro own hall
  have hlength := hall.length
  omega

end MappedContext

end Bpmn
