import Bpmn.Proofs.Checked
import Bpmn.Proofs.Json.Numbers
import Bpmn.Proofs.Json.Strings

namespace Bpmn.Json

section

variable {blanks s : List Char}

theorem skipBlank_append (h : ∀ c ∈ blanks, isBlank c = true) : skipBlank (blanks ++ s) = skipBlank s := by
  induction blanks with
  | nil => rfl
  | cons c blanks ih =>
    have hc := h c (by simp)
    rw [List.cons_append, skipBlank, List.dropWhile_cons_of_pos hc]
    exact ih fun d hd => h d (List.mem_cons_of_mem _ hd)

theorem skipBlank_cons {c : Char} (h : isBlank c = false) : skipBlank (c :: s) = c :: s := by
  rw [skipBlank, List.dropWhile_cons_of_neg (by simp [h])]

theorem skipBlank_break {c : Char} (h : ∀ c ∈ blanks, isBlank c = true) (hc : isBlank c = false) :
    skipBlank (blanks ++ c :: s) = c :: s := by
  rw [skipBlank_append h, skipBlank_cons hc]

theorem isBlank_cases {c : Char} (h : isBlank c = true) : c = ' ' ∨ c = '\n' ∨ c = '\t' ∨ c = '\r' := by
  simpa [isBlank, or_assoc] using h

theorem ends_nil : Ends [] := by
  intro c hc
  cases hc

theorem ends_cons {c : Char} (s : List Char) (h : c ∈ [',', ']', '}', ' ', '\n', '\t', '\r']) :
    Ends (c :: s) := by
  intro d hd
  obtain rfl := Option.some.inj hd
  simp only [List.mem_cons, List.not_mem_nil, or_false] at h
  rcases h with rfl | rfl | rfl | rfl | rfl | rfl | rfl
  all_goals decide

/-- A number does not go on with a blank either. -/
theorem Ends.append (h : ∀ c ∈ blanks, isBlank c = true) (hs : Ends s) : Ends (blanks ++ s) := by
  cases blanks with
  | nil => exact hs
  | cons c blanks =>
    refine ends_cons _ ?_
    rcases isBlank_cases (h c (by simp)) with rfl | rfl | rfl | rfl
    all_goals decide

end

/-- How the text of a value starts: not with a blank, the end of a list or an object or a byte order
mark. -/
def Starts (text : List Char) : Prop :=
  ∃ c tail, text = c :: tail ∧ isBlank c = false ∧ c ≠ ']' ∧ c ≠ '}' ∧ c ≠ '\uFEFF'

theorem starts_cons {c : Char} (tail : List Char)
    (h : c ∈ ['n', 't', 'f', 'N', 'I', '-', '"', '[', '{']) : Starts (c :: tail) := by
  refine ⟨c, tail, rfl, ?_⟩
  simp only [List.mem_cons, List.not_mem_nil, or_false] at h
  rcases h with rfl | rfl | rfl | rfl | rfl | rfl | rfl | rfl | rfl
  all_goals decide

theorem starts_digit {c : Char} (hc : c.isDigit = true) (tail : List Char) : Starts (c :: tail) := by
  have hblank : isBlank c = false := by
    have hspace : ' ' ≠ c := isDigit_ne hc rfl
    have hline : '\n' ≠ c := isDigit_ne hc rfl
    have htab : '\t' ≠ c := isDigit_ne hc rfl
    have hreturn : '\r' ≠ c := isDigit_ne hc rfl
    simp [isBlank, hspace.symm, hline.symm, htab.symm, hreturn.symm]
  exact ⟨c, tail, rfl, hblank, (isDigit_ne hc rfl).symm, (isDigit_ne hc rfl).symm,
    (isDigit_ne hc rfl).symm⟩

theorem Starts.skipBlank {text : List Char} (h : Starts text) (rest : List Char) :
    skipBlank (text ++ rest) = text ++ rest := by
  obtain ⟨c, tail, rfl, hblank, -⟩ := h
  exact skipBlank_cons hblank

/-- A number starts with a digit, or with a sign before one. -/
theorem numeral_chars_eq (n : Numeral) :
    ∃ c tail, c.isDigit = true ∧ (n.chars = c :: tail ∨ n.chars = '-' :: c :: tail) := by
  obtain ⟨c, tail, htext, hc⟩ := unsignedChars_eq_cons n
  refine ⟨c, tail, hc, ?_⟩
  rw [Numeral.chars, htext]
  cases n.negative with
  | true => exact .inr rfl
  | false => exact .inl rfl

theorem starts_denotes {width depth : Nat} {text : List Char} {j : Json}
    (h : Denotes width depth text j) : Starts text := by
  cases h with
  | word isWord =>
    simp only [scalarWords, List.mem_cons, Prod.mk.injEq, List.not_mem_nil, or_false] at isWord
    rcases isWord with ⟨rfl, -⟩ | ⟨rfl, -⟩ | ⟨rfl, -⟩ | ⟨rfl, -⟩ | ⟨rfl, -⟩ | ⟨rfl, -⟩
    all_goals exact starts_cons _ (by decide)
  | number n _ =>
    obtain ⟨c, tail, hc, htext | htext⟩ := numeral_chars_eq n
    · rw [htext]
      exact starts_digit hc tail
    · rw [htext]
      exact starts_cons _ (by decide)
  | string spells =>
    obtain ⟨-⟩ := spells
    exact starts_cons _ (by decide)
  | emptyList _ => exact starts_cons _ (by decide)
  | emptyObject _ => exact starts_cons _ (by decide)
  | list _ _ _ => exact starts_cons _ (by decide)
  | object _ _ _ => exact starts_cons _ (by decide)

theorem Padded.skipBlank (p : Padded) (h : Starts p.text) (rest : List Char) :
    Json.skipBlank (p.chars ++ rest) = p.text ++ (p.after ++ rest) := by
  rw [Padded.chars, List.append_assoc, List.append_assoc, skipBlank_append p.blankBefore,
    h.skipBlank]

section

variable {dialect : Dialect} {size depth : Nat}

/-- A step of reading gives back what a text denotes, whatever follows that may follow a value. -/
def ReadsBack (value : List Char → Reading (Json × List Char)) (text : List Char) (j : Json) : Prop :=
  ∀ rest, Ends rest → value (text ++ rest) = .ok (j, rest)

theorem value_bare {c : Char} {s : List Char} (h : c ∉ ['"', '[', '{']) :
    value dialect size depth (c :: s) = bareScalar dialect (c :: s) := by
  unfold value
  split
  all_goals simp_all

theorem readsBack_word {text : List Char} {j : Json} (h : (text, j) ∈ scalarWords) :
    ReadsBack (value dialect size depth) text j := by
  intro rest _
  simp only [scalarWords, List.mem_cons, Prod.mk.injEq, List.not_mem_nil, or_false] at h
  rcases h with ⟨rfl, rfl⟩ | ⟨rfl, rfl⟩ | ⟨rfl, rfl⟩ | ⟨rfl, rfl⟩ | ⟨rfl, rfl⟩ | ⟨rfl, rfl⟩
  all_goals exact value_bare (by decide)

theorem bareScalar_digit {c : Char} (hc : c.isDigit = true) (s : List Char) :
    bareScalar dialect (c :: s) = number dialect (c :: s) := by
  have hn : 'n' ≠ c := isDigit_ne hc rfl
  have ht : 't' ≠ c := isDigit_ne hc rfl
  have hf : 'f' ≠ c := isDigit_ne hc rfl
  have hN : 'N' ≠ c := isDigit_ne hc rfl
  have hI : 'I' ≠ c := isDigit_ne hc rfl
  have hm : '-' ≠ c := isDigit_ne hc rfl
  simp [bareScalar, scalarWords, word?, hn, ht, hf, hN, hI, hm]

theorem bareScalar_minus {c : Char} (hc : c.isDigit = true) (s : List Char) :
    bareScalar dialect ('-' :: c :: s) = number dialect ('-' :: c :: s) := by
  have hI : 'I' ≠ c := isDigit_ne hc rfl
  simp [bareScalar, scalarWords, word?, hI]

theorem value_numeral (n : Numeral) (rest : List Char) :
    value dialect size depth (n.chars ++ rest) = number dialect (n.chars ++ rest) := by
  obtain ⟨c, tail, hc, htext | htext⟩ := numeral_chars_eq n
  · have hquote : '"' ≠ c := isDigit_ne hc rfl
    have hlist : '[' ≠ c := isDigit_ne hc rfl
    have hobject : '{' ≠ c := isDigit_ne hc rfl
    rw [htext, List.cons_append, value_bare (by simp [hquote.symm, hlist.symm, hobject.symm])]
    exact bareScalar_digit hc _
  · rw [htext, List.cons_append, List.cons_append, value_bare (by decide)]
    exact bareScalar_minus hc _

theorem readsBack_numeral (n : Numeral) (hlength : n.whole.length ≤ digitLimit) :
    ReadsBack (value dialect size depth) n.chars (.num n.value) := by
  intro rest hends
  rw [value_numeral, number_numeral n hends, isTooLong_of_le hlength]
  rfl

theorem readsBack_string {s : String} {text : List Char} (h : SpellsString s text) :
    ReadsBack (value dialect size depth) text (.str s) := by
  intro rest _
  obtain ⟨body, rfl, hbody⟩ := stringText_spelled dialect.half h
  have hvalue : value dialect size depth ('"' :: (body ++ rest)) =
      (do
        let read ← stringText dialect.half (body ++ rest)
        return (.str read.1, read.2)) := by
    cases depth <;> rfl
  rw [List.cons_append, hvalue, hbody]
  rfl

theorem readsBack_emptyList {blanks : List Char} (h : ∀ c ∈ blanks, isBlank c = true) :
    ReadsBack (value dialect size depth) ('[' :: (blanks ++ [']'])) (.arr []) := by
  intro rest _
  have hclose : skipBlank (blanks ++ [']'] ++ rest) = ']' :: rest := by
    rw [List.append_assoc]
    exact skipBlank_break h rfl
  rw [List.cons_append]
  cases depth <;> simp only [value, hclose]

theorem readsBack_emptyObject {blanks : List Char} (h : ∀ c ∈ blanks, isBlank c = true) :
    ReadsBack (value dialect size depth) ('{' :: (blanks ++ ['}'])) (.obj []) := by
  intro rest _
  have hclose : skipBlank (blanks ++ ['}'] ++ rest) = '}' :: rest := by
    rw [List.append_assoc]
    exact skipBlank_break h rfl
  rw [List.cons_append]
  cases depth <;> simp only [value, hclose]

end

theorem listed_singleton (text : List Char) : listed [text] = text := by simp [listed]

theorem listed_cons (text next : List Char) (texts : List (List Char)) :
    listed (text :: next :: texts) = text ++ ',' :: listed (next :: texts) := by
  simp [listed, List.intercalate]

/-- With commas between them texts are no shorter, and there are as many commas but for one. -/
theorem length_listed (texts : List (List Char)) :
    texts.length ≤ (listed texts).length + 1 ∧ ∀ t ∈ texts, t.length ≤ (listed texts).length := by
  induction texts with
  | nil => simp
  | cons text texts ih =>
    cases texts with
    | nil => simp [listed]
    | cons next texts =>
      obtain ⟨hcount, hlengths⟩ := ih
      have hlength : (listed (text :: next :: texts)).length =
          text.length + (listed (next :: texts)).length + 1 := by
        rw [listed_cons, List.length_append, List.length_cons]
        omega
      constructor
      · rw [List.length_cons]
        omega
      · intro t ht
        rcases List.mem_cons.mp ht with rfl | ht
        · omega
        · have hless := hlengths t ht
          omega

theorem listed_cons_append (text next : List Char) (texts : List (List Char)) (rest : List Char) :
    listed (text :: next :: texts) ++ rest = text ++ ',' :: (listed (next :: texts) ++ rest) := by
  rw [listed_cons, List.append_assoc]
  rfl

/-- Behind the first text there is a comma, or what closes the list. -/
theorem listed_append (text : List Char) (texts : List (List Char)) (close : Char) (rest : List Char) :
    ∃ c more, listed (text :: texts) ++ close :: rest = text ++ c :: more ∧ (c = ',' ∨ c = close) := by
  cases texts with
  | nil => exact ⟨close, rest, by rw [listed_singleton], .inr rfl⟩
  | cons next texts =>
    rw [listed_cons, List.append_assoc]
    exact ⟨',', _, rfl, .inl rfl⟩

section

variable {value : List Char → Reading (Json × List Char)} {count : Nat} {tail : List Char}

theorem arrayItems_last {p : Padded} {item : Json} (hstarts : Starts p.text)
    (hitem : ReadsBack value p.text item) :
    arrayItems value (count + 1) (skipBlank (p.chars ++ ']' :: tail)) = .ok ([item], tail) := by
  have hread := hitem (p.after ++ ']' :: tail) (.append p.blankAfter (ends_cons _ (by decide)))
  have hend : skipBlank (p.after ++ ']' :: tail) = ']' :: tail := skipBlank_break p.blankAfter rfl
  rw [p.skipBlank hstarts]
  simp only [arrayItems, hread, bind_of_ok, hend]
  rfl

theorem arrayItems_next {p : Padded} {item : Json} {more : List Char} (hstarts : Starts p.text)
    (hitem : ReadsBack value p.text item) :
    arrayItems value (count + 1) (skipBlank (p.chars ++ ',' :: more)) =
      (fun read => (item :: read.1, read.2)) <$> arrayItems value count (skipBlank more) := by
  have hread := hitem (p.after ++ ',' :: more) (.append p.blankAfter (ends_cons _ (by decide)))
  have hcomma : skipBlank (p.after ++ ',' :: more) = ',' :: more := skipBlank_break p.blankAfter rfl
  rw [p.skipBlank hstarts]
  simp only [arrayItems, hread, bind_of_ok, hcomma]
  rfl

/-- The parts of a list are read one after the other. -/
theorem arrayItems_listed {part : Padded × Json} {parts : List (Padded × Json)}
    (hstarts : ∀ p ∈ part :: parts, Starts p.1.text)
    (hvalue : ∀ p ∈ part :: parts, ReadsBack value p.1.text p.2) (hcount : parts.length < count) :
    arrayItems value count (skipBlank (listed ((part :: parts).map (·.1.chars)) ++ ']' :: tail)) =
      .ok ((part :: parts).map (·.2), tail) := by
  induction parts generalizing part count with
  | nil =>
    obtain ⟨count, rfl⟩ := Nat.exists_eq_succ_of_ne_zero (Nat.ne_of_gt hcount)
    rw [List.map_singleton, listed_singleton]
    exact arrayItems_last (hstarts part (by simp)) (hvalue part (by simp))
  | cons next parts ih =>
    obtain ⟨count, rfl⟩ := Nat.exists_eq_succ_of_ne_zero (Nat.ne_of_gt (Nat.zero_lt_of_lt hcount))
    have hmore := ih (fun p hp => hstarts p (List.mem_cons_of_mem _ hp))
      (fun p hp => hvalue p (List.mem_cons_of_mem _ hp)) (Nat.lt_of_succ_lt_succ hcount)
    have htext : listed ((part :: next :: parts).map (·.1.chars)) ++ ']' :: tail =
        part.1.chars ++ ',' :: (listed ((next :: parts).map (·.1.chars)) ++ ']' :: tail) :=
      listed_cons_append _ _ _ _
    rw [htext, arrayItems_next (hstarts part (by simp)) (hvalue part (by simp)), hmore]
    rfl

variable {dialect : Dialect}

/-- A key, the colon behind it and the value come apart. -/
theorem Member.skipBlank (m : Member) (dialect : Dialect) (rest : List Char) :
    ∃ body, Json.skipBlank (m.chars ++ rest) =
        '"' :: (body ++ (m.key.after ++ ':' :: (m.value.chars ++ rest))) ∧
      ∀ after, stringText dialect.half (body ++ after) = .ok (m.name, after) := by
  obtain ⟨body, hkey, hbody⟩ := stringText_spelled dialect.half m.spells
  refine ⟨body, ?_, hbody⟩
  have hstarts : Starts m.key.text := by
    rw [hkey]
    exact starts_cons _ (by decide)
  have hchars : m.chars ++ rest = m.key.chars ++ ':' :: (m.value.chars ++ rest) := by
    simp [Member.chars]
  rw [hchars, m.key.skipBlank hstarts, hkey]
  rfl

theorem objectFields_last {m : Member} (hstarts : Starts m.value.text)
    (hvalue : ReadsBack value m.value.text m.item) :
    objectFields dialect value (count + 1) (skipBlank (m.chars ++ '}' :: tail)) =
      .ok ([(m.name, m.item)], tail) := by
  obtain ⟨body, hskip, hname⟩ := m.skipBlank dialect ('}' :: tail)
  have hcolon : skipBlank (m.key.after ++ ':' :: (m.value.chars ++ '}' :: tail)) =
      ':' :: (m.value.chars ++ '}' :: tail) := skipBlank_break m.key.blankAfter rfl
  have hread := hvalue (m.value.after ++ '}' :: tail)
    (.append m.value.blankAfter (ends_cons _ (by decide)))
  have hend : skipBlank (m.value.after ++ '}' :: tail) = '}' :: tail :=
    skipBlank_break m.value.blankAfter rfl
  rw [hskip]
  simp only [objectFields, hname, bind_of_ok, hcolon, m.value.skipBlank hstarts, hread, hend]
  rfl

theorem objectFields_next {m : Member} {more : List Char} (hstarts : Starts m.value.text)
    (hvalue : ReadsBack value m.value.text m.item) :
    objectFields dialect value (count + 1) (skipBlank (m.chars ++ ',' :: more)) =
      (fun read => ((m.name, m.item) :: read.1, read.2)) <$>
        objectFields dialect value count (skipBlank more) := by
  obtain ⟨body, hskip, hname⟩ := m.skipBlank dialect (',' :: more)
  have hcolon : skipBlank (m.key.after ++ ':' :: (m.value.chars ++ ',' :: more)) =
      ':' :: (m.value.chars ++ ',' :: more) := skipBlank_break m.key.blankAfter rfl
  have hread := hvalue (m.value.after ++ ',' :: more)
    (.append m.value.blankAfter (ends_cons _ (by decide)))
  have hcomma : skipBlank (m.value.after ++ ',' :: more) = ',' :: more :=
    skipBlank_break m.value.blankAfter rfl
  rw [hskip]
  simp only [objectFields, hname, bind_of_ok, hcolon, m.value.skipBlank hstarts, hread, hcomma]
  rfl

/-- The members of an object are read one after the other. -/
theorem objectFields_listed {member : Member} {members : List Member}
    (hstarts : ∀ m ∈ member :: members, Starts m.value.text)
    (hvalue : ∀ m ∈ member :: members, ReadsBack value m.value.text m.item)
    (hcount : members.length < count) :
    objectFields dialect value count
        (skipBlank (listed ((member :: members).map (·.chars)) ++ '}' :: tail)) =
      .ok ((member :: members).map fun m => (m.name, m.item), tail) := by
  induction members generalizing member count with
  | nil =>
    obtain ⟨count, rfl⟩ := Nat.exists_eq_succ_of_ne_zero (Nat.ne_of_gt hcount)
    rw [List.map_singleton, listed_singleton]
    exact objectFields_last (hstarts member (by simp)) (hvalue member (by simp))
  | cons next members ih =>
    obtain ⟨count, rfl⟩ := Nat.exists_eq_succ_of_ne_zero (Nat.ne_of_gt (Nat.zero_lt_of_lt hcount))
    have hmore := ih (fun m hm => hstarts m (List.mem_cons_of_mem _ hm))
      (fun m hm => hvalue m (List.mem_cons_of_mem _ hm)) (Nat.lt_of_succ_lt_succ hcount)
    have htext : listed ((member :: next :: members).map (·.chars)) ++ '}' :: tail =
        member.chars ++ ',' :: (listed ((next :: members).map (·.chars)) ++ '}' :: tail) :=
      listed_cons_append _ _ _ _
    rw [htext, objectFields_next (hstarts member (by simp)) (hvalue member (by simp)), hmore]
    rfl

end

section

variable {dialect : Dialect} {size depth : Nat}

/-- A list that is not empty does not close at once. -/
theorem open_list {parts : List (Padded × Json)} (hne : parts ≠ [])
    (hstarts : ∀ p ∈ parts.head?, Starts p.1.text) (rest after : List Char) :
    skipBlank (listed (parts.map (·.1.chars)) ++ ']' :: rest) ≠ ']' :: after := by
  cases parts with
  | nil => exact absurd rfl hne
  | cons part parts =>
    have hstart := hstarts part rfl
    obtain ⟨_, more, hmore, -⟩ := listed_append part.1.chars (parts.map (·.1.chars)) ']' rest
    rw [List.map_cons, hmore, part.1.skipBlank hstart]
    obtain ⟨c, tail, htext, -, hbracket, -⟩ := hstart
    rw [htext]
    exact fun hclose => hbracket (List.cons.inj hclose).1

theorem open_object {members : List Member} (hne : members ≠ []) (rest after : List Char) :
    skipBlank (listed (members.map (·.chars)) ++ '}' :: rest) ≠ '}' :: after := by
  cases members with
  | nil => exact absurd rfl hne
  | cons member members =>
    obtain ⟨c, more, hmore, -⟩ := listed_append member.chars (members.map (·.chars)) '}' rest
    obtain ⟨body, hskip, -⟩ := member.skipBlank .snapshot (c :: more)
    rw [List.map_cons, hmore, hskip]
    exact fun hclose => absurd (List.cons.inj hclose).1 (by decide)

theorem value_list {parts : List (Padded × Json)} (hne : parts ≠ [])
    (hstarts : ∀ p ∈ parts.head?, Starts p.1.text) (rest : List Char) :
    value dialect size (depth + 1) ('[' :: (listed (parts.map (·.1.chars)) ++ [']']) ++ rest) =
      (fun read => (.arr read.1, read.2)) <$> arrayItems (value dialect size depth) size
        (skipBlank (listed (parts.map (·.1.chars)) ++ ']' :: rest)) := by
  rw [List.cons_append, List.append_assoc, List.singleton_append, value]
  split
  · next after hclose => exact absurd hclose (open_list hne hstarts rest after)
  · rfl

theorem value_object {members : List Member} (hne : members ≠ []) (rest : List Char) :
    value dialect size (depth + 1) ('{' :: (listed (members.map (·.chars)) ++ ['}']) ++ rest) =
      (fun read => (.obj (Fields.ofPairs read.1), read.2)) <$>
        objectFields dialect (value dialect size depth) size
          (skipBlank (listed (members.map (·.chars)) ++ '}' :: rest)) := by
  rw [List.cons_append, List.append_assoc, List.singleton_append, value]
  split
  · next after hclose => exact absurd hclose (open_object hne rest after)
  · rfl

/-- A list is read back when its items are. -/
theorem readsBack_list {parts : List (Padded × Json)} (hne : parts ≠ [])
    (hstarts : ∀ p ∈ parts, Starts p.1.text)
    (hvalue : ∀ p ∈ parts, ReadsBack (value dialect size depth) p.1.text p.2)
    (hcount : parts.length ≤ size) :
    ReadsBack (value dialect size (depth + 1)) ('[' :: (listed (parts.map (·.1.chars)) ++ [']']))
      (.arr (parts.map (·.2))) := by
  intro rest _
  rw [value_list hne (fun p hp => hstarts p (List.mem_of_mem_head? hp))]
  cases parts with
  | nil => exact absurd rfl hne
  | cons part parts =>
    rw [arrayItems_listed hstarts hvalue hcount]
    rfl

/-- An object is read back when its values are; of a key that is repeated the last value counts. -/
theorem readsBack_object {members : List Member} (hne : members ≠ [])
    (hstarts : ∀ m ∈ members, Starts m.value.text)
    (hvalue : ∀ m ∈ members, ReadsBack (value dialect size depth) m.value.text m.item)
    (hcount : members.length ≤ size) :
    ReadsBack (value dialect size (depth + 1)) ('{' :: (listed (members.map (·.chars)) ++ ['}']))
      (.obj (Fields.ofPairs (members.map fun m => (m.name, m.item)))) := by
  intro rest _
  rw [value_object hne]
  cases members with
  | nil => exact absurd rfl hne
  | cons member members =>
    rw [objectFields_listed hstarts hvalue hcount]
    rfl

/-- What a text denotes is read from it. -/
theorem readsBack_denotes {width : Nat} {text : List Char} {j : Json}
    (h : Denotes width depth text j) (hwidth : width ≤ digitLimit) (hsize : text.length ≤ size) :
    ReadsBack (value dialect size depth) text j := by
  induction h with
  | word isWord => exact readsBack_word isWord
  | number n fits => exact readsBack_numeral n (Nat.le_trans fits hwidth)
  | string spells => exact readsBack_string spells
  | emptyList blank => exact readsBack_emptyList blank
  | emptyObject blank => exact readsBack_emptyObject blank
  | list parts nonempty each ih =>
    obtain ⟨hcount, hlengths⟩ := length_listed (parts.map (·.1.chars))
    simp only [List.length_cons, List.length_append, List.length_nil, List.length_map] at hsize hcount
    refine readsBack_list nonempty (fun p hp => starts_denotes (each p hp)) ?_ (by omega)
    -- The text of a part is within the text of the list.
    intro p hp
    have hless := hlengths _ (List.mem_map_of_mem hp)
    have hpart : p.1.text.length ≤ p.1.chars.length := by simp [Padded.chars]; omega
    exact ih p hp (by omega)
  | object members nonempty each ih =>
    obtain ⟨hcount, hlengths⟩ := length_listed (members.map (·.chars))
    simp only [List.length_cons, List.length_append, List.length_nil, List.length_map] at hsize hcount
    refine readsBack_object nonempty (fun m hm => starts_denotes (each m hm)) ?_ (by omega)
    intro m hm
    have hless := hlengths _ (List.mem_map_of_mem hm)
    have hpart : m.value.text.length ≤ m.chars.length := by simp [Member.chars, Padded.chars]; omega
    exact ih m hm (by omega)

/-- A text is read as what it denotes. -/
theorem read_of_textDenotes {width : Nat} {text : String} {j : Json}
    (h : TextDenotes width depth text j) (hwidth : width ≤ digitLimit) :
    read dialect depth text.toList = .ok j := by
  obtain ⟨p, htext, hdenotes⟩ := h
  have hstarts := starts_denotes hdenotes
  have hskip : skipBlank p.chars = p.text ++ p.after := by
    have hskip := p.skipBlank hstarts []
    rw [List.append_nil, List.append_nil] at hskip
    exact hskip
  have hlength : p.text.length ≤ p.chars.length := by simp [Padded.chars]; omega
  have hends : Ends p.after := by
    have hends := Ends.append p.blankAfter ends_nil
    rw [List.append_nil] at hends
    exact hends
  have hvalue : value dialect p.chars.length depth (p.text ++ p.after) = .ok (j, p.after) :=
    readsBack_denotes hdenotes hwidth hlength p.after hends
  have hrest : skipBlank p.after = [] := by
    have hrest := skipBlank_append (s := []) p.blankAfter
    rw [List.append_nil] at hrest
    exact hrest
  rw [htext]
  unfold read
  split
  · next after hmark =>
    -- A byte order mark is no blank and starts no value.
    exfalso
    rw [hmark] at hskip
    obtain ⟨c, tail, htext, -, -, -, hc⟩ := hstarts
    rw [htext, skipBlank_cons rfl] at hskip
    exact hc (List.cons.inj hskip).1.symm
  · rw [hskip, hvalue, bind_of_ok]
    simp only [hrest]
    rfl

/-- A text that denotes a value denotes no other. -/
theorem textDenotes_unique {text : String} {j k : Json} (hj : TextDenotes digitLimit depth text j)
    (hk : TextDenotes digitLimit depth text k) : j = k := by
  have hread : read .snapshot depth text.toList = .ok j := read_of_textDenotes hj (Nat.le_refl _)
  rw [read_of_textDenotes hk (Nat.le_refl _)] at hread
  exact (Except.ok.inj hread).symm

theorem read?_of_textDenotes {text : String} {j : Json}
    (h : TextDenotes digitLimit snapshotDepth text j) : read? text = some j := by
  rw [read?, read_of_textDenotes h (Nat.le_refl _)]
  rfl

end

end Bpmn.Json
