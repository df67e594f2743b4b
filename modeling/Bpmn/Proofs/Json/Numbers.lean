import Bpmn.Proofs.Json.Grammar
import Bpmn.Proofs.Number.Rounding

namespace Bpmn

namespace Json

/-- A text that a number before it does not go on with. -/
def Ends (rest : List Char) : Prop :=
  ∀ c ∈ rest.head?, c.isDigit = false ∧ c ≠ '.' ∧ c ≠ 'e' ∧ c ≠ 'E'

theorem Ends.notDigit {rest : List Char} (h : Ends rest) : ∀ c ∈ rest.head?, c.isDigit = false :=
  fun c hc => (h c hc).1

theorem isDigit_ne {c d : Char} (hc : c.isDigit = true) (hd : d.isDigit = false) : d ≠ c := by
  rintro rfl
  rw [hc] at hd
  cases hd

theorem takeDigits_append {digits rest : List Char} (h : ∀ c ∈ digits, c.isDigit = true)
    (hrest : ∀ c ∈ rest.head?, c.isDigit = false) : takeDigits (digits ++ rest) = (digits, rest) := by
  induction digits with
  | nil =>
    cases rest with
    | nil => rfl
    | cons c rest => simp [takeDigits, hrest c rfl]
  | cons c digits ih =>
    have hc := h c (by simp)
    have hdigits := ih fun c hc => h c (List.mem_cons_of_mem _ hc)
    simp only [takeDigits, Prod.mk.injEq] at hdigits
    simp [takeDigits, hc, hdigits.1, hdigits.2]

theorem wholeDigits?_append {digits rest : List Char} (h : ∀ c ∈ digits, c.isDigit = true)
    (hne : digits ≠ []) (hhead : digits.head? ≠ some '0' ∨ digits = ['0'])
    (hrest : ∀ c ∈ rest.head?, c.isDigit = false) :
    wholeDigits? (digits ++ rest) = some (digits, rest) := by
  rcases hhead with hhead | rfl
  · cases digits with
    | nil => exact absurd rfl hne
    | cons c digits =>
      have hc : c ≠ '0' := by
        rintro rfl
        exact hhead rfl
      have htake := takeDigits_append h hrest
      rw [List.cons_append] at htake ⊢
      rw [wholeDigits?]
      · rw [if_pos (h c (by simp)), htake]
      · exact hc
  · rfl

theorem fractionDigits_none {rest : List Char} (h : ∀ c ∈ rest.head?, c ≠ '.') :
    fractionDigits rest = ([], rest) := by
  cases rest with
  | nil => rfl
  | cons c rest =>
    have hc := h c rfl
    rw [fractionDigits]
    intro after hafter
    exact hc (List.cons.inj hafter).1

theorem fractionDigits_some {digits rest : List Char} (h : ∀ c ∈ digits, c.isDigit = true)
    (hne : digits ≠ []) (hrest : ∀ c ∈ rest.head?, c.isDigit = false) :
    fractionDigits ('.' :: (digits ++ rest)) = (digits, rest) := by
  rw [fractionDigits, takeDigits_append h hrest, if_neg]
  simpa using hne

theorem exponent?_none {rest : List Char} (h : ∀ c ∈ rest.head?, c ≠ 'e' ∧ c ≠ 'E') :
    exponent? rest = none := by
  cases rest with
  | nil => rfl
  | cons c rest =>
    obtain ⟨he, hE⟩ := h c rfl
    exact if_neg (by simp [he, hE])

/-- A power of ten without a sign. -/
theorem exponent?_unsigned {mark : Char} {s : List Char} (hmark : mark = 'e' ∨ mark = 'E')
    (hs : ∀ c ∈ s.head?, c ≠ '-' ∧ c ≠ '+') : exponent? (mark :: s) =
      if (takeDigits s).1.isEmpty then none
      else some ((Nat.ofDigitChars 10 (takeDigits s).1 0 : Int), (takeDigits s).2) := by
  unfold exponent?
  dsimp only
  rw [if_pos hmark]
  split
  · exact absurd rfl (hs '-' rfl).1
  · exact absurd rfl (hs '+' rfl).2
  · rfl

theorem exponent?_power (p : Power) {rest : List Char} (hrest : ∀ c ∈ rest.head?, c.isDigit = false) :
    exponent? (p.chars ++ rest) = some (p.value, rest) := by
  have hne : p.digits.isEmpty = false := by simpa using p.nonempty
  have htake : takeDigits (p.digits ++ rest) = (p.digits, rest) := takeDigits_append p.areDigits hrest
  rw [Power.chars, List.cons_append, List.append_assoc]
  cases hsign : p.sign with
  | some negative =>
    cases negative <;> simp [exponent?, p.isMark, Power.signChars, Power.value, hsign, htake, hne]
  | none =>
    rw [Power.signChars, List.nil_append, exponent?_unsigned p.isMark]
    · simp [htake, hne, Power.value, hsign]
    · cases hdigits : p.digits with
      | nil => exact absurd hdigits p.nonempty
      | cons d tail =>
        intro c hc
        obtain rfl : d = c := Option.some.inj hc
        have hd : d.isDigit = true := p.areDigits d (by simp [hdigits])
        exact ⟨(isDigit_ne hd rfl).symm, (isDigit_ne hd rfl).symm⟩

section

variable {n : Numeral} {rest : List Char}

theorem ends_power (p : Power) (rest : List Char) :
    ∀ c ∈ (p.chars ++ rest).head?, c.isDigit = false ∧ c ≠ '.' := by
  intro c hc
  obtain rfl : p.mark = c := Option.some.inj hc
  rcases p.isMark with hmark | hmark <;> rw [hmark] <;> decide

theorem fractionDigits_numeral (n : Numeral) (hends : Ends rest) :
    fractionDigits (n.fractionChars ++ (n.powerChars ++ rest)) = (n.fraction, n.powerChars ++ rest) := by
  have hstop : ∀ c ∈ (n.powerChars ++ rest).head?, c.isDigit = false ∧ c ≠ '.' := by
    rw [Numeral.powerChars]
    cases n.power with
    | none => exact fun c hc => ⟨(hends c hc).1, (hends c hc).2.1⟩
    | some p => exact ends_power p rest
  rw [Numeral.fractionChars]
  split
  · next hnone =>
    rw [hnone]
    exact fractionDigits_none fun c hc => (hstop c hc).2
  · next hsome => exact fractionDigits_some n.fractionDigits hsome fun c hc => (hstop c hc).1

theorem wholeDigits?_numeral (n : Numeral) (hends : Ends rest) :
    wholeDigits? (n.unsignedChars ++ rest) =
      some (n.whole, n.fractionChars ++ (n.powerChars ++ rest)) := by
  have hstop : ∀ c ∈ (n.fractionChars ++ (n.powerChars ++ rest)).head?, c.isDigit = false := by
    rw [Numeral.fractionChars, Numeral.powerChars]
    split
    · cases n.power with
      | none => exact hends.notDigit
      | some p => exact fun c hc => (ends_power p rest c hc).1
    · simp
  rw [Numeral.unsignedChars, List.append_assoc, List.append_assoc]
  exact wholeDigits?_append n.wholeDigits n.nonempty n.noLeadingZero hstop

theorem unsignedNumber?_numeral (n : Numeral) (hends : Ends rest) :
    unsignedNumber? n.negative (n.unsignedChars ++ rest) = some (n.value, rest) := by
  simp only [unsignedNumber?, wholeDigits?_numeral n hends, Option.bind_eq_bind, Option.bind_some,
    fractionDigits_numeral n hends]
  rw [Numeral.value, Numeral.decimal, Numeral.powerChars]
  cases n.power with
  | none =>
    have hnone : exponent? (([] : List Char) ++ rest) = none :=
      exponent?_none fun c hc => (hends c hc).2.2
    simp only [Option.elim_none, hnone]
    by_cases hfraction : n.fraction = []
    · simp [hfraction]
    · simp [hfraction]
  | some p => simp [exponent?_power p hends.notDigit]

theorem takeSign_signed (negative : Bool) {text : List Char} (h : ∀ c ∈ text.head?, c ≠ '-')
    (hne : text ≠ []) : takeSign (signed negative text ++ rest) = (negative, text ++ rest) := by
  cases negative with
  | true => rfl
  | false =>
    cases text with
    | nil => exact absurd rfl hne
    | cons c text =>
      have hc := h c rfl
      rw [signed, if_neg (by decide), List.cons_append, takeSign]
      intro after hafter
      exact hc (List.cons.inj hafter).1

/-- A numeral without its sign starts with a digit. -/
theorem unsignedChars_eq_cons (n : Numeral) : ∃ c tail, n.unsignedChars = c :: tail ∧ c.isDigit = true := by
  cases hwhole : n.whole with
  | nil => exact absurd hwhole n.nonempty
  | cons c tail =>
    refine ⟨c, tail ++ (n.fractionChars ++ n.powerChars), ?_, n.wholeDigits c (by simp [hwhole])⟩
    rw [Numeral.unsignedChars, hwhole]
    rfl

/-- A number is read from its numeral, unless the whole part is too long. -/
theorem number_numeral {dialect : Dialect} (n : Numeral) (hends : Ends rest) :
    number dialect (n.chars ++ rest) =
      if dialect.isTooLong n.whole.length n.value then
        refuse (.tooManyDigits n.whole.length) (n.chars ++ rest)
      else .ok (.num n.value, rest) := by
  obtain ⟨c, tail, htext, hc⟩ := unsignedChars_eq_cons n
  have hsign : takeSign (n.chars ++ rest) = (n.negative, n.unsignedChars ++ rest) := by
    apply takeSign_signed
    · rw [htext]
      rintro d hd rfl
      obtain rfl : c = '-' := Option.some.inj hd
      cases hc
    · rw [htext]
      exact List.cons_ne_nil _ _
  simp [number, hsign, unsignedNumber?_numeral n hends, wholeDigits?_numeral n hends]

theorem isTooLong_of_le {dialect : Dialect} {length : Nat} (h : length ≤ digitLimit) (n : Number) :
    dialect.isTooLong length n = false := by
  have hnot : ¬ digitLimit < length := Nat.not_lt.mpr h
  cases dialect with
  | snapshot => simp [Dialect.isTooLong, hnot]
  | document => cases n <;> simp [Dialect.isTooLong, hnot]

end

end Json

namespace Magnitude

theorem dropTrailing (digits : List Char) :
    ∃ k, digits = (digits.reverse.dropWhile (· == '0')).reverse ++ List.replicate k '0' := by
  have hparts := List.takeWhile_append_dropWhile (p := (· == '0')) (l := digits.reverse)
  have hzeros : digits.reverse.takeWhile (· == '0') =
      List.replicate (digits.reverse.takeWhile (· == '0')).length '0' := by
    apply List.eq_replicate_of_mem
    intro c hc
    exact eq_of_beq (List.all_eq_true.mp List.all_takeWhile c hc)
  have hback := congrArg List.reverse hparts
  rw [List.reverse_append, List.reverse_reverse, hzeros, List.reverse_replicate] at hback
  exact ⟨_, hback.symm⟩

variable {m : Magnitude}

/-- The digits that are written: they start and end with no zero, and spell the shortest decimal. -/
structure Spells (m : Magnitude) (zeros : Nat) : Prop where
  areDigits : ∀ c ∈ m.significant, c.isDigit = true
  nonempty : m.significant ≠ []
  head : m.significant.head? ≠ some '0'
  count : digitCount m.shortest.digits = m.significant.length + zeros
  value : m.shortest.digits = Nat.ofDigitChars 10 m.significant 0 * 10 ^ zeros

theorem spells (h : m.mantissa ≠ 0) : ∃ zeros, m.Spells zeros := by
  obtain ⟨zeros, hzeros⟩ := dropTrailing (Nat.toDigits 10 m.shortest.digits)
  have hdigits : Nat.toDigits 10 m.shortest.digits = m.significant ++ List.replicate zeros '0' := hzeros
  have hvalue := Nat.ofDigitChars_ten_toDigits (n := m.shortest.digits)
  rw [hdigits, Nat.ofDigitChars_append, Nat.ofDigitChars_replicate_zero] at hvalue
  have hpositive := digits_shortest_ne_zero h
  have hnonempty : m.significant ≠ [] := by
    intro hnil
    rw [hnil] at hvalue
    simp at hvalue
    omega
  refine ⟨zeros, ?_, hnonempty, ?_, ?_, ?_⟩
  · intro c hc
    have hmem : c ∈ Nat.toDigits 10 m.shortest.digits := by
      rw [hdigits]
      exact List.mem_append_left _ hc
    exact Digits.isDigit_toDigits c hmem
  · have hhead := Digits.head_toDigits hpositive
    rw [hdigits] at hhead
    cases hs : m.significant with
    | nil => exact absurd hs hnonempty
    | cons c rest =>
      rw [hs] at hhead
      exact hhead
  · simp [digitCount, hdigits]
  · rw [Nat.mul_comm]
    exact hvalue.symm

/-- The written digits with zeros behind them, at their place, read back. -/
theorem Spells.toMagnitude? {zeros : Nat} (h : m.Spells zeros) (more : Nat) {e : Int}
    (he : e = m.pointPlace - m.significant.length - more) :
    (⟨Nat.ofDigitChars 10 m.significant 0 * 10 ^ more, e⟩ : Decimal).toMagnitude? = some m := by
  have hplace : m.pointPlace - m.significant.length = m.shortest.exponent + zeros := by
    rw [pointPlace, h.count]
    omega
  have hshortest : m.shortest =
      ⟨Nat.ofDigitChars 10 m.significant 0 * 10 ^ zeros,
        m.shortest.exponent + zeros - zeros⟩ := by
    rw [← h.value]
    simp
  have hback := m.toMagnitude?_shortest
  rw [hshortest, Decimal.toMagnitude?_shift] at hback
  rw [he, hplace, Decimal.toMagnitude?_shift]
  exact hback

/-- A text spells a magnitude, of either sign, with a short whole part. -/
def SpelledBy (m : Magnitude) (text : List Char) : Prop :=
  ∀ negative, ∃ n : Json.Numeral, n.whole.length ≤ 16 ∧ n.chars = signed negative text ∧
    n.value = .float (.finite negative m)

/-- The text of a numeral that is no integer spells the magnitude its decimal is rounded to. -/
theorem spelledBy_numeral (n : Json.Numeral) (hscaled : n.fraction ≠ [] ∨ n.power ≠ none)
    (hlength : n.whole.length ≤ 16) (hm : n.decimal.toMagnitude? = some m) :
    m.SpelledBy n.unsignedChars := by
  intro negative
  refine ⟨{ n with negative := negative }, hlength, rfl, ?_⟩
  have hnot : ¬ (n.fraction = [] ∧ n.power = none) := fun h => hscaled.elim (· h.1) (· h.2)
  have hrounded : Json.roundedFloat negative n.decimal = .finite negative m := by
    rw [Json.roundedFloat, hm]
  rw [← hrounded, Json.Numeral.value]
  exact if_neg hnot

/-- A whole part and a fraction. -/
theorem spelledBy_point (whole fraction : List Char) (hwhole : ∀ c ∈ whole, c.isDigit = true)
    (hfraction : ∀ c ∈ fraction, c.isDigit = true) (hlength : whole.length ≤ 16) (hwholeNe : whole ≠ [])
    (hfractionNe : fraction ≠ []) (hhead : whole.head? ≠ some '0' ∨ whole = ['0'])
    (hm : (⟨Nat.ofDigitChars 10 (whole ++ fraction) 0, -(fraction.length : Int)⟩ :
      Decimal).toMagnitude? = some m) :
    m.SpelledBy (whole ++ '.' :: fraction) := by
  have hspelled := spelledBy_numeral (m := m)
    ⟨false, whole, fraction, none, hwhole, hfraction, hwholeNe, hhead⟩ (.inl hfractionNe) hlength
    (by simpa [Json.Numeral.decimal] using hm)
  simpa [Json.Numeral.unsignedChars, Json.Numeral.fractionChars, Json.Numeral.powerChars, hfractionNe]
    using hspelled

/-- Zeros between the point and the digits. -/
theorem spelledBy_small {zeros : Nat} (h : m.Spells zeros) (hplace : m.pointPlace ≤ 0) :
    m.SpelledBy ('0' :: '.' :: (List.replicate (-m.pointPlace).toNat '0' ++ m.significant)) := by
  obtain ⟨pad, hpad⟩ : ∃ pad, pad = (-m.pointPlace).toNat := ⟨_, rfl⟩
  rw [← hpad]
  refine spelledBy_point ['0'] _ (List.forall_mem_singleton.mpr rfl) ?_ (by decide) (by simp)
    (by simp [h.nonempty]) (.inr rfl) ?_
  · intro c hc
    rcases List.mem_append.mp hc with hc | hc
    · rw [List.eq_of_mem_replicate hc]
      rfl
    · exact h.areDigits c hc
  · have hvalue : Nat.ofDigitChars 10 (['0'] ++ (List.replicate pad '0' ++ m.significant)) 0 =
        Nat.ofDigitChars 10 m.significant 0 * 10 ^ 0 := by
      simp [Nat.ofDigitChars_cons, Nat.ofDigitChars_append]
    rw [hvalue]
    apply h.toMagnitude? 0
    simp only [List.length_append, List.length_replicate]
    omega

/-- The point among the digits. -/
theorem spelledBy_between {zeros : Nat} (h : m.Spells zeros) (hpositive : 0 < m.pointPlace)
    (hplace : m.pointPlace ≤ 16) (hless : m.pointPlace < m.significant.length) :
    m.SpelledBy (m.significant.take m.pointPlace.toNat ++
      '.' :: m.significant.drop m.pointPlace.toNat) := by
  obtain ⟨place, hnat⟩ : ∃ place, place = m.pointPlace.toNat := ⟨_, rfl⟩
  rw [← hnat]
  have htake : (m.significant.take place).length = place := by
    rw [List.length_take]
    omega
  refine spelledBy_point _ _ (fun c hc => h.areDigits c (List.mem_of_mem_take hc))
    (fun c hc => h.areDigits c (List.mem_of_mem_drop hc)) (by omega) ?_ ?_ ?_ ?_
  · intro hnil
    rw [hnil] at htake
    simp at htake
    omega
  · rw [← List.length_pos_iff, List.length_drop]
    omega
  · left
    rw [List.head?_take, if_neg (by omega)]
    exact h.head
  · have hvalue : Nat.ofDigitChars 10 (m.significant.take place ++ m.significant.drop place) 0 =
        Nat.ofDigitChars 10 m.significant 0 * 10 ^ 0 := by
      rw [List.take_append_drop, Nat.pow_zero, Nat.mul_one]
    rw [hvalue]
    apply h.toMagnitude? 0
    rw [List.length_drop]
    omega

/-- Zeros between the digits and the point. -/
theorem spelledBy_large {zeros : Nat} (h : m.Spells zeros) (hplace : m.pointPlace ≤ 16)
    (hge : m.significant.length ≤ m.pointPlace) :
    m.SpelledBy (m.significant ++
      List.replicate (m.pointPlace.toNat - m.significant.length) '0' ++ ['.', '0']) := by
  obtain ⟨pad, hpad⟩ : ∃ pad, pad = m.pointPlace.toNat - m.significant.length := ⟨_, rfl⟩
  rw [← hpad]
  refine spelledBy_point _ ['0'] ?_ (List.forall_mem_singleton.mpr rfl) ?_
    (by simp [h.nonempty]) (by simp) ?_ ?_
  · intro c hc
    rcases List.mem_append.mp hc with hc | hc
    · exact h.areDigits c hc
    · rw [List.eq_of_mem_replicate hc]
      rfl
  · simp only [List.length_append, List.length_replicate]
    omega
  · left
    cases hs : m.significant with
    | nil => exact absurd hs h.nonempty
    | cons c digits =>
      have hhead := h.head
      rw [hs] at hhead
      exact hhead
  · have hvalue : Nat.ofDigitChars 10 (m.significant ++ List.replicate pad '0' ++ ['0']) 0 =
        Nat.ofDigitChars 10 m.significant 0 * 10 ^ (pad + 1) := by
      rw [List.append_assoc, ← List.replicate_succ', Nat.ofDigitChars_append,
        Nat.ofDigitChars_replicate_zero, Nat.mul_comm]
    rw [hvalue]
    apply h.toMagnitude? (pad + 1)
    simp only [List.length_cons, List.length_nil]
    omega

/-- A power of ten is written with its sign and two digits or more. -/
theorem exponentText_eq (power : Int) :
    ∃ p : Json.Power, p.chars = exponentText power ∧ p.value = power := by
  obtain ⟨digits, hdigits⟩ : ∃ digits, digits =
      (if (Nat.toDigits 10 power.natAbs).length < 2 then '0' :: Nat.toDigits 10 power.natAbs
        else Nat.toDigits 10 power.natAbs) := ⟨_, rfl⟩
  have hall : ∀ c ∈ digits, c.isDigit = true := by
    intro c hc
    rw [hdigits] at hc
    split at hc
    · rcases List.mem_cons.mp hc with rfl | hc
      · rfl
      · exact Digits.isDigit_toDigits c hc
    · exact Digits.isDigit_toDigits c hc
  have hne : digits ≠ [] := by
    rw [hdigits]
    split
    · simp
    · exact Nat.toDigits_ne_nil
  have hvalue : Nat.ofDigitChars 10 digits 0 = power.natAbs := by
    rw [hdigits]
    split
    · simp [Nat.ofDigitChars_cons]
    · simp
  refine ⟨⟨'e', some (decide (power < 0)), digits, .inl rfl, hall, hne⟩, ?_, ?_⟩
  · rw [exponentText, ← hdigits]
    by_cases hneg : power < 0 <;> simp [Json.Power.chars, Json.Power.signChars, hneg]
  · by_cases hneg : power < 0
    · simp only [Json.Power.value, hneg, decide_true, if_true, hvalue]
      omega
    · simp only [Json.Power.value, hneg, decide_false, hvalue]
      rw [if_neg (by decide)]
      omega

/-- One digit before the point, and a power of ten. -/
theorem spelledBy_power {zeros : Nat} (h : m.Spells zeros) :
    m.SpelledBy (m.significant.take 1 ++
      (if (m.significant.drop 1).isEmpty then [] else '.' :: m.significant.drop 1) ++
      exponentText (m.pointPlace - 1)) := by
  obtain ⟨p, hchars, hvalue⟩ := exponentText_eq (m.pointPlace - 1)
  cases hs : m.significant with
  | nil => exact absurd hs h.nonempty
  | cons c tail =>
    have hareDigits := h.areDigits
    have hhead := h.head
    have hmagnitude := h.toMagnitude? 0 (e := m.pointPlace - 1 - tail.length) (by
      rw [hs, List.length_cons]
      omega)
    rw [hs] at hareDigits hhead hmagnitude
    rw [Nat.pow_zero, Nat.mul_one] at hmagnitude
    have hspelled := spelledBy_numeral (m := m) ⟨false, [c], tail, some p, fun d hd => hareDigits d
      (by simp_all), fun d hd => hareDigits d (by simp [hd]), by simp, .inl hhead⟩ (.inr (by simp))
      (by simp) (by simpa [Json.Numeral.decimal, hvalue] using hmagnitude)
    simpa [Json.Numeral.unsignedChars, Json.Numeral.fractionChars, Json.Numeral.powerChars, hchars,
      List.isEmpty_iff] using hspelled

theorem spelledBy_zero (h : m.mantissa = 0) : m.SpelledBy ['0', '.', '0'] := by
  refine spelledBy_point ['0'] ['0'] (List.forall_mem_singleton.mpr rfl)
    (List.forall_mem_singleton.mpr rfl) (by decide) (by decide) (by decide) (.inr rfl) ?_
  rw [eq_zero_of_mantissa h]
  rfl

/-- A magnitude is spelled by its text. -/
theorem spelledBy_text (m : Magnitude) : m.SpelledBy m.text := by
  by_cases hzero : m.mantissa = 0
  · have htext : m.text = ['0', '.', '0'] := by
      rw [eq_zero_of_mantissa hzero]
      rfl
    rw [htext]
    exact spelledBy_zero hzero
  obtain ⟨zeros, h⟩ := spells hzero
  rw [text]
  split
  · next hplace =>
    split
    · next hsmall => exact spelledBy_small h hsmall
    · next hpositive =>
      split
      · next hless => exact spelledBy_between h (by omega) hplace.2 hless
      · next hge => exact spelledBy_large h hplace.2 (by omega)
  · exact spelledBy_power h

end Magnitude

namespace Json

/-- An integer is written as its sign and its digits. -/
theorem numeral_int (i : Int) : ∃ n : Numeral, n.whole.length = digitCount i.natAbs ∧
    n.chars = (Number.int i).text ∧ n.value = .int i := by
  have hhead : (Nat.toDigits 10 i.natAbs).head? ≠ some '0' ∨ Nat.toDigits 10 i.natAbs = ['0'] := by
    by_cases hzero : i.natAbs = 0
    · right
      rw [hzero]
      rfl
    · exact .inl (Digits.head_toDigits hzero)
  refine ⟨⟨decide (i < 0), Nat.toDigits 10 i.natAbs, [], none, Digits.isDigit_toDigits, by simp,
    Nat.toDigits_ne_nil, hhead⟩, rfl, ?_, ?_⟩
  · simp [Numeral.chars, Numeral.unsignedChars, Numeral.fractionChars, Numeral.powerChars, Number.text]
  · have hsign : (if decide (i < 0) = true then -(i.natAbs : Int) else i.natAbs) = i := by
      by_cases hneg : i < 0
      · rw [if_pos (decide_eq_true hneg)]
        omega
      · rw [if_neg (by simp [hneg])]
        omega
    simp only [Numeral.value, and_self, if_true, Nat.ofDigitChars_ten_toDigits, hsign]

end Json

end Bpmn
