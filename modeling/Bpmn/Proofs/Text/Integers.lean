import Bpmn.Text.Integer
import Mathlib.Data.List.TakeWhile
import Mathlib.Data.Nat.Digits.Defs
import Mathlib.Tactic.Ring

namespace Bpmn.Text

/-- In a text stands another one, and only characters of a class around it. -/
def Framed (isOuter : Char → Bool) (inner text : List Char) : Prop :=
  ∃ before after, text = before ++ (inner ++ after) ∧
    (∀ c ∈ before, isOuter c = true) ∧ ∀ c ∈ after, isOuter c = true

section Framed

variable {isOuter : Char → Bool} {inner text : List Char}

theorem framed_refl (text : List Char) : Framed isOuter text text :=
  ⟨[], [], by simp, List.forall_mem_nil _, List.forall_mem_nil _⟩

theorem framed_trim : Framed isOuter (trim isOuter text) text := by
  have hstart := List.takeWhile_append_dropWhile (p := isOuter) (l := text)
  have hend := List.takeWhile_append_dropWhile (p := isOuter) (l := (text.dropWhile isOuter).reverse)
  rw [← List.reverse_inj, List.reverse_append, List.reverse_reverse] at hend
  refine ⟨text.takeWhile isOuter, ((text.dropWhile isOuter).reverse.takeWhile isOuter).reverse, ?_, ?_, ?_⟩
  · rw [trim, hend, hstart]
  · exact List.all_eq_true.mp List.all_takeWhile
  · intro c hc
    exact List.all_eq_true.mp List.all_takeWhile c (List.mem_reverse.mp hc)

theorem dropWhile_append_of_not (hinner : ∀ c ∈ inner, isOuter c = false) (hne : inner ≠ [])
    (rest : List Char) : (inner ++ rest).dropWhile isOuter = inner ++ rest := by
  cases inner with
  | nil => exact absurd rfl hne
  | cons c inner => exact List.dropWhile_cons_of_neg (by simp [hinner c])

theorem Framed.trim_eq (h : Framed isOuter inner text) (hinner : ∀ c ∈ inner, isOuter c = false) :
    trim isOuter text = inner := by
  obtain ⟨before, after, rfl, hbefore, hafter⟩ := h
  have hreverse : ∀ c ∈ after.reverse, isOuter c = true := fun c hc => hafter c (List.mem_reverse.mp hc)
  rw [trim, List.dropWhile_append_of_pos hbefore]
  -- With nothing inside, all is dropped from the front already.
  by_cases hne : inner = []
  · subst hne
    have hnone : after.dropWhile isOuter = [] := List.dropWhile_eq_nil_iff.mpr hafter
    rw [List.nil_append, hnone]
    rfl
  · have hback : ∀ c ∈ inner.reverse, isOuter c = false := fun c hc => hinner c (List.mem_reverse.mp hc)
    have hlast := dropWhile_append_of_not hback (mt List.reverse_eq_nil_iff.mp hne) []
    rw [List.append_nil] at hlast
    rw [dropWhile_append_of_not hinner hne after, List.reverse_append,
      List.dropWhile_append_of_pos hreverse, hlast, List.reverse_reverse]

end Framed

/-- A decimal digit of some script, and its value. -/
def IsDigit (d : Nat) (c : Char) : Prop := d < 10 ∧ ∃ z ∈ zeros, c.toNat = z + d

/-- What may follow a digit: more of them, and at most one underscore before each. -/
inductive MoreDigits : List Nat → List Char → Prop where
  | nil : MoreDigits [] []
  | next {d c ds cs} (digit : IsDigit d c) (later : MoreDigits ds cs) : MoreDigits (d :: ds) (c :: cs)
  | apart {d c ds cs} (digit : IsDigit d c) (later : MoreDigits ds cs) :
      MoreDigits (d :: ds) ('_' :: c :: cs)

/-- Digits in a row, the first one without an underscore before it. -/
inductive SpellsDigits : List Nat → List Char → Prop where
  | row {d c ds cs} (digit : IsDigit d c) (more : MoreDigits ds cs) : SpellsDigits (d :: ds) (c :: cs)

/-- The number that digits make up, the first one the weightiest. -/
def numberOf (digits : List Nat) : Nat := Nat.ofDigits 10 digits.reverse

/-- The digits of two scripts do not overlap. -/
theorem zeros_apart : ∀ a ∈ zeros, ∀ b ∈ zeros, a = b ∨ a + 10 ≤ b ∨ b + 10 ≤ a := by decide +kernel

/-- No digit is a sign, an underscore or white space. -/
theorem zeros_clear : ∀ z ∈ zeros, 48 ≤ z ∧ (z + 10 ≤ 95 ∨ 95 < z) ∧
    ∀ blank ∈ wideBlanks, z + 10 ≤ blank ∨ blank < z := by decide +kernel

section Digits

variable {c : Char} {cs : List Char} {d n value : Nat} {ds : List Nat}

theorem digit?_eq_some_iff : digit? c = some d ↔ IsDigit d c := by
  rw [digit?, Option.map_eq_some_iff]
  constructor
  · rintro ⟨z, hfind, rfl⟩
    have hrange := List.find?_some hfind
    simp only [Bool.and_eq_true, decide_eq_true_eq] at hrange
    exact ⟨by omega, z, List.mem_of_find?_eq_some hfind, by omega⟩
  · rintro ⟨hd, z, hz, hc⟩
    refine ⟨z, ?_, by omega⟩
    cases hfind : zeros.find? fun z => z ≤ c.toNat && c.toNat < z + 10 with
    | none =>
      have hnone := List.find?_eq_none.mp hfind z hz
      simp only [Bool.and_eq_true, decide_eq_true_eq] at hnone
      omega
    | some a =>
      have hrange := List.find?_some hfind
      simp only [Bool.and_eq_true, decide_eq_true_eq] at hrange
      have hapart := zeros_apart a (List.mem_of_find?_eq_some hfind) z hz
      congr 1
      omega

theorem IsDigit.ne_underscore (h : IsDigit d c) : c ≠ '_' := by
  rintro rfl
  obtain ⟨hd, z, hz, hc⟩ := h
  have hclear := zeros_clear z hz
  have hcode : '_'.toNat = 95 := rfl
  omega

theorem IsDigit.ne_sign (h : IsDigit d c) : c ≠ '+' ∧ c ≠ '-' := by
  obtain ⟨hd, z, hz, hc⟩ := h
  have hclear := zeros_clear z hz
  have hplus : '+'.toNat = 43 := rfl
  have hminus : '-'.toNat = 45 := rfl
  constructor <;> rintro rfl <;> omega

theorem IsDigit.isMargin_eq (h : IsDigit d c) : isMargin c = false := by
  obtain ⟨hd, z, hz, hc⟩ := h
  obtain ⟨hlow, -, hblank⟩ := zeros_clear z hz
  have hspace : c ≠ ' ' := by
    rintro rfl
    have hcode : ' '.toNat = 32 := rfl
    omega
  have hwide : c.toNat ∉ wideBlanks := by
    intro hmem
    have hapart := hblank c.toNat hmem
    omega
  have hcontrol : ¬ (9 ≤ c.toNat ∧ c.toNat ≤ 13) := by omega
  simpa [isMargin, hspace, hwide] using hcontrol

theorem numberOf_cons (d : Nat) (ds : List Nat) :
    numberOf (d :: ds) = d * 10 ^ ds.length + numberOf ds := by
  simp only [numberOf, List.reverse_cons, Nat.ofDigits_append, List.length_reverse, Nat.ofDigits_singleton]
  ring

theorem digits?_digit (h : IsDigit d c) (value : Nat) (cs : List Char) :
    digits? value (c :: cs) = digits? (value * 10 + d) cs := by
  rw [digits?.eq_3 _ _ _ fun c' rest hc => absurd hc h.ne_underscore, digit?_eq_some_iff.mpr h]
  rfl

theorem digits?_apart (h : IsDigit d c) (value : Nat) (cs : List Char) :
    digits? value ('_' :: c :: cs) = digits? (value * 10 + d) cs := by
  rw [digits?, digit?_eq_some_iff.mpr h]
  rfl

theorem digits?_of_moreDigits (h : MoreDigits ds cs) (value : Nat) :
    digits? value cs = some (value * 10 ^ ds.length + numberOf ds) := by
  induction h generalizing value with
  | nil => simp [digits?, numberOf]
  | next digit _ ih =>
    rw [digits?_digit digit, ih, numberOf_cons, List.length_cons]
    congr 1
    ring
  | apart digit _ ih =>
    rw [digits?_apart digit, ih, numberOf_cons, List.length_cons]
    congr 1
    ring

/-- What is read in a row follows the grammar; the value is then the one that its digits make up. -/
theorem exists_moreDigits (h : digits? value cs = some n) : ∃ ds, MoreDigits ds cs := by
  fun_induction digits? value cs with
  | case1 value => exact ⟨[], .nil⟩
  | case2 value c rest ih =>
    rw [Option.bind_eq_bind, Option.bind_eq_some_iff] at h
    obtain ⟨d, hd, hmore⟩ := h
    obtain ⟨ds, hds⟩ := ih d hmore
    exact ⟨d :: ds, .apart (digit?_eq_some_iff.mp hd) hds⟩
  | case3 value c rest _ ih =>
    rw [Option.bind_eq_bind, Option.bind_eq_some_iff] at h
    obtain ⟨d, hd, hmore⟩ := h
    obtain ⟨ds, hds⟩ := ih d hmore
    exact ⟨d :: ds, .next (digit?_eq_some_iff.mp hd) hds⟩

theorem MoreDigits.digitLength_eq (h : MoreDigits ds cs) : digitLength cs = ds.length := by
  induction h with
  | nil => rfl
  | next digit _ ih =>
    rw [digitLength, List.filter_cons_of_pos (by simpa using digit.ne_underscore), List.length_cons,
      List.length_cons, ← ih, digitLength]
  | apart digit _ ih =>
    rw [digitLength, List.filter_cons_of_neg (by simp),
      List.filter_cons_of_pos (by simpa using digit.ne_underscore), List.length_cons, List.length_cons, ← ih,
      digitLength]

theorem MoreDigits.isMargin_eq (h : MoreDigits ds cs) : ∀ c ∈ cs, isMargin c = false := by
  induction h with
  | nil => exact List.forall_mem_nil _
  | next digit _ ih => exact List.forall_mem_cons.mpr ⟨digit.isMargin_eq, ih⟩
  | apart digit _ ih =>
    exact List.forall_mem_cons.mpr ⟨rfl, List.forall_mem_cons.mpr ⟨digit.isMargin_eq, ih⟩⟩

theorem digits?_eq_some_iff :
    digits? value cs = some n ↔ ∃ ds, MoreDigits ds cs ∧ n = value * 10 ^ ds.length + numberOf ds := by
  constructor
  · intro h
    obtain ⟨ds, hds⟩ := exists_moreDigits h
    rw [digits?_of_moreDigits hds] at h
    exact ⟨ds, hds, (Option.some.inj h).symm⟩
  · rintro ⟨ds, hds, rfl⟩
    exact digits?_of_moreDigits hds value

theorem SpellsDigits.digitLength_eq (h : SpellsDigits ds cs) : digitLength cs = ds.length := by
  cases h with
  | row digit more => exact (MoreDigits.next digit more).digitLength_eq

end Digits

/-- A number of not too many digits. -/
def SpellsNatural (width : Option Nat) (n : Nat) (cs : List Char) : Prop :=
  ∃ ds, SpellsDigits ds cs ∧ (∀ w ∈ width, ds.length ≤ w) ∧ n = numberOf ds

/-- A number, with a sign or without one. -/
inductive SpellsSigned (width : Option Nat) : Int → List Char → Prop where
  | plain {n cs} (spells : SpellsNatural width n cs) : SpellsSigned width n cs
  | plus {n cs} (spells : SpellsNatural width n cs) : SpellsSigned width n ('+' :: cs)
  | minus {n cs} (spells : SpellsNatural width n cs) : SpellsSigned width (-n) ('-' :: cs)

/-- An integer with characters of a class around it. -/
def SpellsInteger (isOuter : Char → Bool) (width : Option Nat) (i : Int) (text : List Char) : Prop :=
  ∃ inner, SpellsSigned width i inner ∧ Framed isOuter inner text

section Integers

variable {cs : List Char} {n : Nat} {i : Int} {width : Option Nat}

theorem natural?_eq_some_iff : natural? cs = some n ↔ SpellsNatural (some digitLimit) n cs := by
  constructor
  · intro h
    unfold natural? at h
    split at h
    · cases h
    · next hlength =>
      cases cs with
      | nil => cases h
      | cons c cs =>
        rw [Option.bind_eq_bind, Option.bind_eq_some_iff] at h
        obtain ⟨d, hd, hmore⟩ := h
        obtain ⟨ds, hds, rfl⟩ := digits?_eq_some_iff.mp hmore
        have hspells : SpellsDigits (d :: ds) (c :: cs) := .row (digit?_eq_some_iff.mp hd) hds
        refine ⟨d :: ds, hspells, ?_, (numberOf_cons d ds).symm⟩
        rintro w ⟨rfl⟩
        rw [← hspells.digitLength_eq]
        omega
  · rintro ⟨ds, hspells, hfits, rfl⟩
    have hlength : ¬ digitLimit < digitLength cs := by
      rw [hspells.digitLength_eq]
      exact Nat.not_lt.mpr (hfits _ rfl)
    rw [natural?.eq_def, if_neg hlength]
    cases hspells with
    | row digit more =>
      simp [digit?_eq_some_iff.mpr digit, digits?_of_moreDigits more, numberOf_cons]

theorem SpellsNatural.exists_cons (h : SpellsNatural width n cs) :
    ∃ c rest d, cs = c :: rest ∧ IsDigit d c := by
  obtain ⟨ds, hspells, -, -⟩ := h
  cases hspells with
  | row digit more => exact ⟨_, _, _, rfl, digit⟩

theorem SpellsNatural.isMargin_eq (h : SpellsNatural width n cs) : ∀ c ∈ cs, isMargin c = false := by
  obtain ⟨ds, hspells, -, -⟩ := h
  cases hspells with
  | row digit more => exact (MoreDigits.next digit more).isMargin_eq

theorem SpellsSigned.isMargin_eq (h : SpellsSigned width i cs) : ∀ c ∈ cs, isMargin c = false := by
  cases h with
  | plain spells => exact spells.isMargin_eq
  | plus spells => exact List.forall_mem_cons.mpr ⟨rfl, spells.isMargin_eq⟩
  | minus spells => exact List.forall_mem_cons.mpr ⟨rfl, spells.isMargin_eq⟩

theorem signed?_eq_some_iff : signed? cs = some i ↔ SpellsSigned (some digitLimit) i cs := by
  constructor
  · intro h
    fun_cases signed? cs with
    | case1 rest =>
      obtain ⟨n, hn, rfl⟩ : ∃ n : Nat, natural? rest = some n ∧ -(n : Int) = i := by
        simpa [signed?, Option.bind_eq_some_iff] using h
      exact .minus (natural?_eq_some_iff.mp hn)
    | case2 rest =>
      obtain ⟨n, hn, rfl⟩ := Option.map_eq_some_iff.mp h
      exact .plus (natural?_eq_some_iff.mp hn)
    | case3 _ hminus hplus =>
      rw [signed?.eq_3 cs hminus hplus, Option.map_eq_some_iff] at h
      obtain ⟨n, hn, rfl⟩ := h
      exact .plain (natural?_eq_some_iff.mp hn)
  · intro h
    cases h with
    | plain spells =>
      -- The first character is a digit, so none of the signs is taken off.
      obtain ⟨c, rest, d, rfl, digit⟩ := spells.exists_cons
      have hminus : ∀ after, c :: rest = '-' :: after → False := by
        rintro after ⟨rfl, -⟩
        exact digit.ne_sign.2 rfl
      have hplus : ∀ after, c :: rest = '+' :: after → False := by
        rintro after ⟨rfl, -⟩
        exact digit.ne_sign.1 rfl
      rw [signed?.eq_3 _ hminus hplus, natural?_eq_some_iff.mpr spells]
      rfl
    | plus spells => simp [signed?, natural?_eq_some_iff.mpr spells]
    | minus spells => simp [signed?, natural?_eq_some_iff.mpr spells]

/-- A text is read as the integer that it spells in so many digits, and as none if it spells none. -/
theorem integer?_eq_some_iff {s : String} :
    integer? s = some i ↔ SpellsInteger isMargin (some digitLimit) i s.toList := by
  rw [integer?, signed?_eq_some_iff]
  constructor
  · intro h
    exact ⟨_, h, framed_trim⟩
  · rintro ⟨inner, hspells, hframed⟩
    rw [hframed.trim_eq hspells.isMargin_eq]
    exact hspells

theorem moreDigits_zeros (size : Nat) : MoreDigits (List.replicate size 0) (List.replicate size '0') := by
  induction size with
  | zero => exact .nil
  | succ size ih => exact .next (digit?_eq_some_iff.mp (by decide)) ih

theorem numberOf_zeros (size : Nat) : numberOf (List.replicate size 0) = 0 := by
  induction size with
  | zero => rfl
  | succ size ih => rw [List.replicate_succ, numberOf_cons, ih, Nat.zero_mul]

theorem spellsNatural_zeros (size : Nat) : SpellsNatural none 0 (List.replicate (size + 1) '0') :=
  ⟨List.replicate (size + 1) 0, .row (digit?_eq_some_iff.mp (by decide)) (moreDigits_zeros size), by simp,
    (numberOf_zeros _).symm⟩

/-- Zeros beyond the limit are not read. -/
theorem integer?_zeros {size : Nat} (h : digitLimit < size) :
    integer? (String.ofList (List.replicate size '0')) = none := by
  have htrim : trim isMargin (List.replicate size '0') = List.replicate size '0' := by
    apply (framed_refl _).trim_eq
    intro c hc
    rw [List.eq_of_mem_replicate hc]
    rfl
  have hlength : digitLimit < digitLength (List.replicate size '0') := by
    rw [(moreDigits_zeros size).digitLength_eq, List.length_replicate]
    exact h
  rw [integer?, String.toList_ofList, htrim]
  cases size with
  | zero => rfl
  | succ size =>
    rw [List.replicate_succ] at hlength ⊢
    simp [signed?, natural?, hlength]

end Integers

end Bpmn.Text
