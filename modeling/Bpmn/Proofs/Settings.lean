import Bpmn.Proofs.Text.Integers
import Bpmn.Settings

namespace Bpmn

namespace Text

theorem toUpper_eq {c : Char} (h : c.toNat < 97 ∨ 122 < c.toNat) : c.toUpper = c := by
  refine dif_neg ?_
  rintro ⟨ha, hz⟩
  have hlow : 97 ≤ c.toNat := ha
  have hhigh : c.toNat ≤ 122 := hz
  omega

theorem toLower_eq {c : Char} (h : c.toNat < 65 ∨ 90 < c.toNat) : c.toLower = c := by
  refine dif_neg ?_
  rintro ⟨ha, hz⟩
  have hlow : 65 ≤ c.toNat := ha
  have hhigh : c.toNat ≤ 90 := hz
  omega

theorem upperChar_eq {c : Char} (h : c.toUpper.toNat < 128) : upperChar c = [c.toUpper] := by
  have hlarge : ∀ p ∈ widened, 128 ≤ p.1 := by decide
  have hsmall : c.toNat < 128 := by
    by_contra hnot
    rw [toUpper_eq (by omega)] at h
    omega
  have hnone : widened.lookup c.toNat = none := by
    rw [List.lookup_eq_none_iff]
    intro p hp
    have hne : p.1 ≠ c.toNat := by
      have hp := hlarge p hp
      omega
    simpa using hne.symm
  rw [upperChar, hnone]

/-- Letters of ASCII have the upper case of their own. -/
theorem upper_eq_map {cs : List Char} (h : ∀ c ∈ cs.map Char.toUpper, c.toNat < 128) :
    upper cs = cs.map Char.toUpper := by
  induction cs with
  | nil => rfl
  | cons c cs ih =>
    rw [List.map_cons, List.forall_mem_cons] at h
    rw [upper, List.flatMap_cons, upperChar_eq h.1, List.map_cons, ← ih h.2]
    rfl

theorem lowerChar_eq_iff {c d : Char} (hd : d.toNat < 128) (hk : d ≠ 'k') :
    lowerChar c = d ↔ c.toLower = d := by
  rw [lowerChar]
  split
  · next hkelvin =>
    have hlower : c.toLower = c := toLower_eq (by omega)
    rw [hlower]
    constructor
    · intro h
      exact absurd h.symm hk
    · rintro rfl
      omega
  · rfl

/-- A word without the letter that the sign of the kelvin has in lower case. -/
theorem lower_eq_iff {cs word : List Char} (h : ∀ d ∈ word, d.toNat < 128 ∧ d ≠ 'k') :
    lower cs = word ↔ cs.map Char.toLower = word := by
  induction cs generalizing word with
  | nil => rfl
  | cons c cs ih =>
    cases word with
    | nil => simp [lower]
    | cons d word =>
      rw [List.forall_mem_cons] at h
      have ih := ih h.2
      rw [lower] at ih ⊢
      rw [List.map_cons, List.map_cons, List.cons.injEq, List.cons.injEq, ih, lowerChar_eq_iff h.1.1 h.1.2]

/-- White space has no letter case. -/
theorem toLower_of_isBlank {c : Char} (h : isBlank c = true) : c.toLower = c := by
  have hwide : ∀ blank ∈ wideBlanks, 128 ≤ blank := by decide
  simp only [isBlank, isMargin, Bool.or_eq_true, Bool.and_eq_true, decide_eq_true_eq, beq_iff_eq,
    List.contains_iff_mem] at h
  apply toLower_eq
  rcases h with ((hcontrol | rfl) | hmem) | hseparator
  · omega
  · decide
  · have hlarge := hwide c.toNat hmem
    omega
  · omega

end Text

namespace Settings

/-- The name of a level, in letters of any case. -/
def SpellsLevel (name text : String) : Prop :=
  name ∈ ["DEBUG", "INFO", "WARNING", "ERROR", "CRITICAL"] ∧ text.toList.map Char.toUpper = name.toList

def wordsForOn : List String := ["1", "true", "yes", "on"]

/-- A word for on, in letters of any case and with white space around it. -/
def SpellsOn (text : String) : Prop :=
  ∃ word ∈ wordsForOn, ∃ spelled, spelled.map Char.toLower = word.toList ∧
    Text.Framed Text.isBlank spelled text.toList

/-- Every other text is a word for off. -/
def SpellsFlag (on : Bool) (text : String) : Prop := on = true ↔ SpellsOn text

/-- An integer, or what is none: no text, or one that spells no integer. -/
def SpellsIndent (isOuter : Char → Bool) (width : Option Nat) : Option Int → Option String → Prop
  | some i, value => ∃ text ∈ value, Text.SpellsInteger isOuter width i text.toList
  | none, value => ∀ text ∈ value, ∀ i, ¬ Text.SpellsInteger isOuter width i text.toList

/-- An environment spells settings.  Around an integer stand characters of a class, and it has no more digits
than `width`. -/
structure SpelledBy (isOuter : Char → Bool) (width : Option Nat) (environment : Fields String)
    (s : Settings) : Prop where
  level : ∃ text ∈ environment.get? "BPMN_CONTEXT_LOG_LEVEL", SpellsLevel s.logLevel text
  jsonLogs : ∃ text ∈ environment.get? "BPMN_CONTEXT_JSON_LOGS", SpellsFlag s.jsonLogs text
  tracing : ∃ text ∈ environment.get? "BPMN_CONTEXT_TRACING", SpellsFlag s.tracing text
  metrics : ∃ text ∈ environment.get? "BPMN_CONTEXT_METRICS", SpellsFlag s.metrics text
  indent : SpellsIndent isOuter width s.indent (environment.get? "BPMN_CONTEXT_INDENT")

theorem levelOf_of_spells {name text : String} (h : SpellsLevel name text) : levelOf text = some name := by
  obtain ⟨hmem, hmap⟩ := h
  have hascii : ∀ name ∈ ["DEBUG", "INFO", "WARNING", "ERROR", "CRITICAL"],
      name.toList.all (·.toNat < 128) = true := by decide
  have hupper : Text.upper text.toList = name.toList := by
    rw [Text.upper_eq_map ?_, hmap]
    rw [hmap]
    simpa using hascii name hmem
  have hcontains : LevelChoice.members.contains name = true := List.contains_iff_mem.mpr hmem
  simp only [levelOf, hupper, String.ofList_toList, hcontains, if_true]

theorem levelOf_mem {name text : String} (h : levelOf text = some name) : name ∈ LevelChoice.members := by
  simp only [levelOf, Option.ite_none_right_eq_some, Option.some.injEq] at h
  obtain ⟨hcontains, rfl⟩ := h
  exact List.contains_iff_mem.mp hcontains

/-- The words for on are of ASCII, without white space and without the letter of the kelvin. -/
theorem plain_of_onWord {word : String} (hword : word ∈ wordsForOn) :
    ∀ d ∈ word.toList, (d.toNat < 128 ∧ d ≠ 'k') ∧ Text.isBlank d = false := by
  have hall : ∀ word ∈ wordsForOn,
      word.toList.all (fun d => d.toNat < 128 && d != 'k' && !Text.isBlank d) = true := by decide
  simpa using hall word hword

theorem isBlank_of_onWord {word : String} (hword : word ∈ wordsForOn) {spelled : List Char}
    (h : spelled.map Char.toLower = word.toList) : ∀ c ∈ spelled, Text.isBlank c = false := by
  intro c hc
  rw [Bool.eq_false_iff]
  intro hblank
  have hmem : c ∈ word.toList := by
    rw [← h, ← Text.toLower_of_isBlank hblank]
    exact List.mem_map_of_mem hc
  rw [(plain_of_onWord hword c hmem).2] at hblank
  cases hblank

theorem flagOf_iff {text : String} : flagOf text = true ↔ SpellsOn text := by
  have hwords : onWords = wordsForOn.map String.toList := rfl
  rw [flagOf, List.contains_iff_mem, hwords, List.mem_map]
  constructor
  · rintro ⟨word, hword, hlower⟩
    have hplain := fun d hd => (plain_of_onWord hword d hd).1
    exact ⟨word, hword, _, (Text.lower_eq_iff hplain).mp hlower.symm, Text.framed_trim⟩
  · rintro ⟨word, hword, spelled, hspelled, hframed⟩
    have hplain := fun d hd => (plain_of_onWord hword d hd).1
    refine ⟨word, hword, ?_⟩
    rw [hframed.trim_eq (isBlank_of_onWord hword hspelled)]
    exact ((Text.lower_eq_iff hplain).mpr hspelled).symm

theorem flagOf_of_spells {on : Bool} {text : String} (h : SpellsFlag on text) : flagOf text = on := by
  rw [Bool.eq_iff_iff, flagOf_iff]
  exact h.symm

theorem spellsFlag_off : SpellsFlag false "off" := by
  rw [SpellsFlag, ← flagOf_iff]
  decide

theorem indent_of_spells {indent : Option Int} {value : Option String}
    (h : SpellsIndent Text.isMargin (some digitLimit) indent value) : value.bind Text.integer? = indent := by
  cases indent with
  | some i =>
    obtain ⟨text, htext, hspells⟩ := h
    rw [Option.mem_def.mp htext, Option.bind_some]
    exact Text.integer?_eq_some_iff.mpr hspells
  | none =>
    cases value with
    | none => rfl
    | some text =>
      rw [Option.bind_some, Option.eq_none_iff_forall_ne_some]
      intro i hi
      exact h text rfl i (Text.integer?_eq_some_iff.mp hi)

/-- The settings that an environment spells are read back from it, with white space around the indent and no
more digits in it than are read.  The level of every environment is one of five. -/
theorem ofEnvironment_reads_back (environment : Fields String) :
    (∀ s, SpelledBy Text.isMargin (some digitLimit) environment s → ofEnvironment environment = s) ∧
      (ofEnvironment environment).logLevel ∈ ["DEBUG", "INFO", "WARNING", "ERROR", "CRITICAL"] := by
  constructor
  · intro s h
    obtain ⟨level, hlevel, hspellsLevel⟩ := h.level
    obtain ⟨jsonLogs, hjsonLogs, hspellsJsonLogs⟩ := h.jsonLogs
    obtain ⟨tracing, htracing, hspellsTracing⟩ := h.tracing
    obtain ⟨metrics, hmetrics, hspellsMetrics⟩ := h.metrics
    rw [Option.mem_def] at hlevel hjsonLogs htracing hmetrics
    simp only [ofEnvironment, variableName, String.reduceAppend, hlevel, hjsonLogs, htracing, hmetrics,
      Option.bind_some, Option.map_some, Option.getD_some, levelOf_of_spells hspellsLevel,
      flagOf_of_spells hspellsJsonLogs, flagOf_of_spells hspellsTracing, flagOf_of_spells hspellsMetrics,
      indent_of_spells h.indent]
  · simp only [ofEnvironment]
    cases hlevel : (environment.get? (variableName "LOG_LEVEL")).bind levelOf with
    | none => decide
    | some level =>
      obtain ⟨text, -, htext⟩ := Option.bind_eq_some_iff.mp hlevel
      exact levelOf_mem htext

/-- Letters of both cases, white space of several kinds, a sign, an underscore and digits of two scripts. -/
def mixed : Fields String :=
  [("BPMN_CONTEXT_LOG_LEVEL", "dEbUg"), ("BPMN_CONTEXT_JSON_LOGS", "\tYeS\u2003"),
    ("BPMN_CONTEXT_TRACING", "off"), ("BPMN_CONTEXT_METRICS", " 1 "),
    ("BPMN_CONTEXT_INDENT", "\u00a0-1_\u0663\n")]

theorem ofEnvironment_reads_back_mixed :
    SpelledBy Text.isMargin (some digitLimit) mixed ⟨"DEBUG", true, false, true, some (-13)⟩ ∧
      ofEnvironment mixed = ⟨"DEBUG", true, false, true, some (-13)⟩ ∧
      (ofEnvironment mixed).logLevel ∈ ["DEBUG", "INFO", "WARNING", "ERROR", "CRITICAL"] := by
  have hspelled : SpelledBy Text.isMargin (some digitLimit) mixed ⟨"DEBUG", true, false, true, some (-13)⟩ :=
    { level := ⟨"dEbUg", by decide, by decide, by decide⟩
      jsonLogs := ⟨"\tYeS\u2003", by decide, iff_of_true rfl (flagOf_iff.mp (by decide))⟩
      tracing := ⟨"off", by decide, spellsFlag_off⟩
      metrics := ⟨" 1 ", by decide, iff_of_true rfl (flagOf_iff.mp (by decide))⟩
      indent := ⟨"\u00a0-1_\u0663\n", by decide, Text.integer?_eq_some_iff.mp (by decide)⟩ }
  have hreads := ofEnvironment_reads_back mixed
  exact ⟨hspelled, hreads.1 _ hspelled, hreads.2⟩

/-- An environment with a text for the indent. -/
def indenting (text : String) : Fields String :=
  [("BPMN_CONTEXT_LOG_LEVEL", "INFO"), ("BPMN_CONTEXT_JSON_LOGS", "off"), ("BPMN_CONTEXT_TRACING", "off"),
    ("BPMN_CONTEXT_METRICS", "on"), ("BPMN_CONTEXT_INDENT", text)]

theorem spelledBy_indenting {isOuter : Char → Bool} {width : Option Nat} {i : Int} {text : String}
    (h : Text.SpellsInteger isOuter width i text.toList) :
    SpelledBy isOuter width (indenting text) ⟨"INFO", false, false, true, some i⟩ := by
  have hlevel : SpellsLevel "INFO" "INFO" := ⟨by decide, by decide⟩
  exact
    { level := ⟨"INFO", rfl, hlevel⟩
      jsonLogs := ⟨"off", rfl, spellsFlag_off⟩
      tracing := ⟨"off", rfl, spellsFlag_off⟩
      metrics := ⟨"on", rfl, iff_of_true rfl (flagOf_iff.mp (by decide))⟩
      indent := ⟨text, rfl, h⟩ }

theorem ofEnvironment_indenting_ne {text : String} (h : Text.integer? text = none) (i : Int) :
    ofEnvironment (indenting text) ≠ ⟨"INFO", false, false, true, some i⟩ := by
  intro heq
  have hindent : Text.integer? text = some i := congrArg Settings.indent heq
  rw [h] at hindent
  cases hindent

/-- One zero more than is read. -/
def manyZeros : String := String.ofList (List.replicate (digitLimit + 1) '0')

/-- Two spellings of an indent are not read back: the one with an information separator before it, which is
white space elsewhere, and the one with zeros beyond the limit. -/
theorem indent_lost :
    (SpelledBy Text.isBlank none (indenting "\x1c5") ⟨"INFO", false, false, true, some 5⟩ ∧
      ofEnvironment (indenting "\x1c5") ≠ ⟨"INFO", false, false, true, some 5⟩) ∧
    SpelledBy Text.isBlank none (indenting manyZeros) ⟨"INFO", false, false, true, some 0⟩ ∧
      ofEnvironment (indenting manyZeros) ≠ ⟨"INFO", false, false, true, some 0⟩ := by
  have hfive : Text.SpellsInteger Text.isBlank none 5 ['\x1c', '5'] := by
    have hdigit : Text.IsDigit 5 '5' := Text.digit?_eq_some_iff.mp (by decide)
    have hnatural : Text.SpellsNatural none 5 ['5'] := ⟨[5], .row hdigit .nil, by simp, rfl⟩
    exact ⟨['5'], .plain hnatural, ['\x1c'], [], rfl, List.forall_mem_singleton.mpr rfl,
      List.forall_mem_nil _⟩
  have hzeros : Text.SpellsInteger Text.isBlank none 0 manyZeros.toList := by
    rw [manyZeros, String.toList_ofList]
    exact ⟨_, .plain (Text.spellsNatural_zeros digitLimit), Text.framed_refl _⟩
  refine ⟨⟨spelledBy_indenting hfive, ?_⟩, spelledBy_indenting hzeros, ?_⟩
  · exact ofEnvironment_indenting_ne (by decide) 5
  · exact ofEnvironment_indenting_ne (Text.integer?_zeros (Nat.lt_succ_self digitLimit)) 0

end Settings

end Bpmn
