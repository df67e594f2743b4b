import Bpmn.Document.Keys

namespace Bpmn.Key

theorem isStem_iff {stem : List Char} :
    isStem stem = true ↔ stem ≠ [] ∧ stem.head? ≠ some '$' ∧ '\n' ∉ stem := by
  simp [isStem, and_assoc]

/-- What a key may have behind its ending. -/
def IsLineEnd (tail : List Char) : Prop := tail = [] ∨ tail = ['\n']

theorem exists_lineEnd (key : List Char) : ∃ tail, IsLineEnd tail ∧ key = chomp key ++ tail := by
  rw [chomp]
  split
  · next hlast =>
    obtain ⟨line, rfl⟩ := List.getLast?_eq_some_iff.mp hlast
    exact ⟨['\n'], .inr rfl, by rw [List.dropLast_concat]⟩
  · exact ⟨[], .inl rfl, (List.append_nil key).symm⟩

theorem chomp_append {line tail : List Char} (hline : '\n' ∉ line) (htail : IsLineEnd tail) :
    chomp (line ++ tail) = line := by
  rcases htail with rfl | rfl
  · rw [List.append_nil, chomp]
    split
    · next hlast => exact absurd (List.mem_of_getLast? hlast) hline
    · rfl
  · simp [chomp]

/-- The ending is no line break, so the break that is passed over stands behind it. -/
theorem endsWith_iff {ending key : List Char} (hending : '\n' ∉ ending) :
    endsWith ending key = true ↔
      ∃ stem tail, key = stem ++ (ending ++ tail) ∧ isStem stem = true ∧ IsLineEnd tail := by
  constructor
  · intro h
    obtain ⟨tail, htail, hkey⟩ := exists_lineEnd key
    simp only [endsWith, Bool.and_eq_true, beq_iff_eq] at h
    obtain ⟨hdrop, hstem⟩ := h
    have hparts := List.take_append_drop ((chomp key).length - ending.length) (chomp key)
    rw [hdrop] at hparts
    refine ⟨_, tail, ?_, hstem, htail⟩
    rw [← List.append_assoc, hparts]
    exact hkey
  · rintro ⟨stem, tail, rfl, hstem, htail⟩
    have hline : '\n' ∉ stem ++ ending := by
      rw [List.mem_append, not_or]
      exact ⟨(isStem_iff.mp hstem).2.2, hending⟩
    simp [endsWith, ← List.append_assoc, chomp_append hline htail, hstem]

/-- A step of a pattern: it asks something of a place in a text, or passes characters.  The stop of a text is
its end, or the place before a line break that ends it. -/
inductive Step where
  | start
  | notBefore (c : Char)
  | someOfLine
  | exactly (text : List Char)
  | stop

/-- Passes characters of a line one by one until the rest fits. -/
def fewest (fits : List Char → Bool) : List Char → Bool
  | [] => fits []
  | c :: rest => fits (c :: rest) || (c != '\n' && fewest fits rest)

/-- Whether the steps can be taken from a place on, given whether it is the start and what stands behind
it. -/
def fit : List Step → Bool → List Char → Bool
  | [], _, _ => true
  | .start :: steps, atStart, text => atStart && fit steps atStart text
  | .notBefore c :: steps, atStart, text => text.head? != some c && fit steps atStart text
  | .someOfLine :: _, _, [] => false
  | .someOfLine :: steps, _, c :: rest => c != '\n' && fewest (fit steps false) rest
  | .exactly word :: steps, atStart, text =>
    word.isPrefixOf text && fit steps (atStart && word.isEmpty) (text.drop word.length)
  | .stop :: steps, atStart, text => (text == [] || text == ['\n']) && fit steps atStart text

/-- Fits one character of a line or more, the first no dollar sign, and an ending behind them. -/
def pattern (ending : String) : List Step :=
  [.start, .notBefore '$', .someOfLine, .exactly ending.toList, .stop]

/-- That few characters are tried first does not matter to whether the rest fits behind some of them. -/
theorem fewest_iff {fits : List Char → Bool} {text : List Char} :
    fewest fits text = true ↔
      ∃ line rest, text = line ++ rest ∧ '\n' ∉ line ∧ fits rest = true := by
  induction text with
  | nil =>
    constructor
    · intro hfits
      exact ⟨[], [], rfl, List.not_mem_nil, hfits⟩
    · rintro ⟨line, rest, htext, -, hfits⟩
      obtain ⟨rfl, rfl⟩ := List.append_eq_nil_iff.mp htext.symm
      exact hfits
  | cons c text ih =>
    simp only [fewest, Bool.or_eq_true, Bool.and_eq_true, bne_iff_ne, ih]
    constructor
    · rintro (hfits | ⟨hc, line, rest, rfl, hline, hfits⟩)
      · exact ⟨[], c :: text, rfl, List.not_mem_nil, hfits⟩
      · refine ⟨c :: line, rest, rfl, ?_, hfits⟩
        rw [List.mem_cons, not_or]
        exact ⟨Ne.symm hc, hline⟩
    · rintro ⟨line, rest, htext, hline, hfits⟩
      cases line with
      | nil =>
        left
        rw [htext]
        exact hfits
      | cons d line =>
        obtain ⟨rfl, rfl⟩ := List.cons.inj htext
        rw [List.mem_cons, not_or] at hline
        exact .inr ⟨Ne.symm hline.1, line, rest, rfl, hline.2, hfits⟩

theorem fit_ending_iff {ending text : List Char} :
    fit [.exactly ending, .stop] false text = true ↔ ∃ tail, text = ending ++ tail ∧ IsLineEnd tail := by
  simp only [fit, Bool.and_eq_true, Bool.or_eq_true, beq_iff_eq, and_true, List.isPrefixOf_iff_prefix]
  constructor
  · rintro ⟨⟨tail, rfl⟩, htail⟩
    rw [List.drop_left] at htail
    exact ⟨tail, rfl, htail⟩
  · rintro ⟨tail, rfl, htail⟩
    rw [List.drop_left]
    exact ⟨List.prefix_append ending tail, htail⟩

theorem fit_pattern_cons {ending : String} {c : Char} {text : List Char} :
    fit (pattern ending) true (c :: text) =
      (c != '$' && (c != '\n' && fewest (fit [.exactly ending.toList, .stop] false) text)) := by
  simp only [pattern, fit, List.head?_cons, Bool.true_and]
  rfl

theorem fit_pattern_iff {ending : String} {text : List Char} :
    fit (pattern ending) true text = true ↔
      ∃ stem tail, text = stem ++ (ending.toList ++ tail) ∧ isStem stem = true ∧ IsLineEnd tail := by
  cases text with
  | nil =>
    simp only [pattern, fit, Bool.and_false, Bool.false_eq_true, false_iff]
    rintro ⟨stem, tail, htext, hstem, -⟩
    obtain ⟨rfl, -⟩ := List.append_eq_nil_iff.mp htext.symm
    cases hstem
  | cons c text =>
    simp only [fit_pattern_cons, Bool.and_eq_true, bne_iff_ne, fewest_iff, fit_ending_iff]
    constructor
    · rintro ⟨hdollar, hc, line, rest, rfl, hline, tail, rfl, htail⟩
      refine ⟨c :: line, tail, rfl, ?_, htail⟩
      simp [isStem_iff, hdollar, Ne.symm hc, hline]
    · rintro ⟨stem, tail, htext, hstem, htail⟩
      obtain ⟨hne, hdollar, hline⟩ := isStem_iff.mp hstem
      cases stem with
      | nil => exact absurd rfl hne
      | cons d line =>
        obtain ⟨rfl, rfl⟩ := List.cons.inj htext
        rw [List.mem_cons, not_or] at hline
        exact ⟨by simpa using hdollar, Ne.symm hline.1, line, _, rfl, hline.2, tail, rfl, htail⟩

/-- A key as a text of three parts. -/
theorem endsWith_toList_iff {ending key : String} (hending : '\n' ∉ ending.toList) :
    endsWith ending.toList key.toList = true ↔
      ∃ stem tail : String, key = stem ++ ending ++ tail ∧
        (stem ≠ "" ∧ stem.toList.head? ≠ some '$' ∧ '\n' ∉ stem.toList) ∧ tail ∈ ["", "\n"] := by
  rw [endsWith_iff hending]
  constructor
  · rintro ⟨stem, tail, hkey, hstem, htail⟩
    refine ⟨String.ofList stem, String.ofList tail, ?_, ?_, ?_⟩
    · rw [← String.toList_inj]
      simpa using hkey
    · simpa using isStem_iff.mp hstem
    · rcases htail with rfl | rfl <;> decide
  · rintro ⟨stem, tail, rfl, hstem, htail⟩
    refine ⟨stem.toList, tail.toList, ?_, ?_, ?_⟩
    · rw [String.toList_append, String.toList_append, List.append_assoc]
    · rw [isStem_iff, ne_eq, String.toList_eq_nil_iff]
      exact hstem
    · rcases List.mem_cons.mp htail with rfl | htail
      · exact .inl rfl
      · obtain rfl := List.mem_singleton.mp htail
        exact .inr rfl

/-- A key holds references exactly when it is one of three words or made of a stem, an ending and at most a
line break, and exactly when it is one of the words or fits the pattern of an ending. -/
theorem isReference_iff_composed (key : String) :
    (isReference key = true ↔
      key ∈ ["default", "incoming", "outgoing"] ∨
        ∃ stem ending tail : String, key = stem ++ ending ++ tail ∧
          (stem ≠ "" ∧ stem.toList.head? ≠ some '$' ∧ '\n' ∉ stem.toList) ∧
            ending ∈ ["Ref", "Refs"] ∧ tail ∈ ["", "\n"]) ∧
    (isReference key = true ↔
      key ∈ ["default", "incoming", "outgoing"] ∨
        ∃ ending ∈ ["Ref", "Refs"], fit (pattern ending) true key.toList = true) := by
  have hending : ∀ ending ∈ ["Ref", "Refs"], '\n' ∉ ending.toList := by decide
  have hends : isReference key = true ↔
      key ∈ plainReferences ∨ ∃ ending ∈ ["Ref", "Refs"], endsWith ending.toList key.toList = true := by
    simp [isReference, isRef, isRefList, or_assoc]
  constructor
  · rw [hends]
    refine or_congr_right ⟨?_, ?_⟩
    · rintro ⟨ending, hmem, h⟩
      obtain ⟨stem, tail, hkey, hstem, htail⟩ := (endsWith_toList_iff (hending ending hmem)).mp h
      exact ⟨stem, ending, tail, hkey, hstem, hmem, htail⟩
    · rintro ⟨stem, ending, tail, hkey, hstem, hmem, htail⟩
      exact ⟨ending, hmem, (endsWith_toList_iff (hending ending hmem)).mpr ⟨stem, tail, hkey, hstem, htail⟩⟩
  · rw [hends]
    refine or_congr_right (exists_congr fun ending => and_congr_right fun hmem => ?_)
    rw [endsWith_iff (hending ending hmem), fit_pattern_iff]

/-- An ending alone has no stem, a stem may hold an ending, and a line break stands at the end only. -/
example : ["Ref", "RefRef", "$aRef", "aRef\n", "aRef\n\n", "a\nRefs"].map isReference =
    [false, true, false, true, false, false] := by decide

end Bpmn.Key
