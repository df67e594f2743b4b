import Bpmn.Number.Basic
import Bpmn.Proofs.Number.Digits

namespace Bpmn

namespace Magnitude

theorem roundHalfEven_mul {c : Nat} (hc : 0 < c) (n d : Nat) :
    roundHalfEven (n * c) (d * c) = roundHalfEven n d := by
  have hhalf : 2 * (n % d * c) < d * c ↔ 2 * (n % d) < d := by
    rw [← Nat.mul_assoc]
    exact Nat.mul_lt_mul_right hc
  have htie : 2 * (n % d * c) = d * c ↔ 2 * (n % d) = d := by
    rw [← Nat.mul_assoc]
    exact Nat.mul_left_inj (by omega)
  simp only [roundHalfEven, Nat.mul_div_mul_right n d hc, Nat.mul_mod_mul_right, hhalf, htie]

/-- A ratio may be cancelled. -/
theorem ofRatio_mul {c : Nat} (hc : 0 < c) (num den : Nat) :
    ofRatio (num * c) (den * c) = ofRatio num den := by
  have hscaled : num * c * Nat.pow 2 1074 = num * Nat.pow 2 1074 * c := Nat.mul_right_comm _ _ _
  have hden (e : Nat) : den * c * Nat.pow 2 e = den * Nat.pow 2 e * c := Nat.mul_right_comm _ _ _
  simp only [ofRatio, hscaled, hden, Nat.mul_div_mul_right _ _ hc, roundHalfEven_mul hc]

theorem roundHalfEven_mul_self {d : Nat} (hd : 0 < d) (n : Nat) : roundHalfEven (n * d) d = n := by
  simp [roundHalfEven, hd]

theorem ofParts?_self (m : Magnitude) : ofParts? m.mantissa m.exponent = some m := by
  rw [ofParts?, dif_pos m.canonical]

theorem two_pow_pos (e : Nat) : 0 < Nat.pow 2 e := Nat.pow_pos (by decide)

theorem pos_of_eq_pow {n b e : Nat} (h : n = Nat.pow b e) (hb : 0 < b) : 0 < n := by
  subst h
  exact Nat.pow_pos hb

/-- The exponent of a magnitude shows in the size of its units. -/
theorem log2_units (m : Magnitude) : m.units.log2 - 52 = m.exponent := by
  obtain ⟨hlt, -, hcanonical⟩ := m.canonical
  have hunits : m.units = m.mantissa * 2 ^ m.exponent := rfl
  have hlt : m.mantissa < 2 ^ 53 := hlt
  rcases hcanonical with hge | hzero
  · have hge : 2 ^ 52 ≤ m.mantissa := hge
    have hne : m.units ≠ 0 := by
      rw [hunits]
      have := two_pow_pos m.exponent
      exact Nat.mul_ne_zero (by omega) (Nat.ne_of_gt this)
    have hlog : m.units.log2 = 52 + m.exponent := by
      rw [Nat.log2_eq_iff hne, hunits]
      constructor
      · rw [Nat.pow_add]
        exact Nat.mul_le_mul_right _ hge
      · rw [show 52 + m.exponent + 1 = 53 + m.exponent by omega, Nat.pow_add]
        exact Nat.mul_lt_mul_of_pos_right hlt (two_pow_pos _)
    omega
  · have hlow : m.units < 2 ^ 53 := by
      rw [hunits, hzero]
      omega
    by_cases hne : m.units = 0
    · rw [hne, hzero]
      rfl
    · have hlog := (Nat.log2_lt hne).mpr hlow
      omega

/-- A magnitude is the one nearest to itself. -/
theorem ofRatio_units (m : Magnitude) {scale : Nat} (hscale : scale = Nat.pow 2 1074) :
    ofRatio m.units scale = some m := by
  have hpos : 0 < scale := pos_of_eq_pow hscale (by decide)
  have hround : roundHalfEven (m.units * scale) (scale * Nat.pow 2 m.exponent) = m.mantissa := by
    rw [Nat.mul_comm scale, roundHalfEven_mul hpos]
    exact roundHalfEven_mul_self (two_pow_pos _) m.mantissa
  simp only [ofRatio, ← hscale, Nat.mul_div_cancel _ hpos, log2_units, hround, ofParts?_self]
  rfl

end Magnitude

namespace Decimal

/-- The magnitude nearest to `d · 10^e`, whatever its size. -/
def rounded (d : Nat) (e : Int) : Option Magnitude :=
  if 0 ≤ e then Magnitude.ofRatio (d * Nat.pow 10 e.toNat) 1
  else Magnitude.ofRatio d (Nat.pow 10 (-e).toNat)

theorem toMagnitude?_eq (x : Decimal) :
    x.toMagnitude? =
      if x.digits = 0 then some .zero
      else if (digitCount x.digits : Int) + x.exponent > 310 then none
      else if (digitCount x.digits : Int) + x.exponent < -330 then some .zero
      else rounded x.digits x.exponent := rfl

theorem rounded_neg (d : Nat) {n ten : Nat} (hn : 0 < n) (hten : ten = Nat.pow 10 n) :
    rounded d (-(n : Int)) = Magnitude.ofRatio d ten := by
  rw [rounded, if_neg (by omega), Int.neg_neg, Int.toNat_natCast, hten]

/-- A decimal as a ratio over any large power of ten. -/
theorem rounded_eq (d a : Nat) (e : Int) (h : 0 ≤ e + a) :
    rounded d e = Magnitude.ofRatio (d * 10 ^ (e + a).toNat) (10 ^ a) := by
  by_cases he : 0 ≤ e
  · have hsum : (e + a).toNat = e.toNat + a := by omega
    rw [rounded, if_pos he, hsum, Nat.pow_add, ← Nat.mul_assoc]
    have hone := Magnitude.ofRatio_mul (Nat.pow_pos (by decide) : 0 < 10 ^ a)
      (d * 10 ^ e.toNat) 1
    rw [Nat.one_mul] at hone
    exact hone.symm
  · have hpart : a = (-e).toNat + (e + a).toNat := by omega
    have hsplit : 10 ^ a = 10 ^ (-e).toNat * 10 ^ (e + a).toNat := by
      rw [← Nat.pow_add, ← hpart]
    rw [rounded, if_neg he, hsplit]
    exact (Magnitude.ofRatio_mul (Nat.pow_pos (by decide)) d _).symm

/-- Zeros may be moved between the digits and the exponent. -/
theorem toMagnitude?_shift (d k : Nat) (e : Int) :
    (⟨d * 10 ^ k, e - k⟩ : Decimal).toMagnitude? = (⟨d, e⟩ : Decimal).toMagnitude? := by
  by_cases hd : d = 0
  · simp [toMagnitude?_eq, hd]
  have hpow : 0 < 10 ^ k := Nat.pow_pos (by decide)
  have hdk : d * 10 ^ k ≠ 0 := Nat.mul_ne_zero hd (by omega)
  have hsize : (digitCount (d * 10 ^ k) : Int) + (e - k) = digitCount d + e := by
    rw [Digits.digitCount_mul_pow hd]
    omega
  have hrounded : rounded (d * 10 ^ k) (e - k) = rounded d e := by
    obtain ⟨a, ha⟩ : ∃ a : Nat, a = (-e).toNat + k := ⟨_, rfl⟩
    have hsum : (e + a).toNat = k + (e - k + a).toNat := by omega
    rw [rounded_eq d a e (by omega), rounded_eq (d * 10 ^ k) a (e - k) (by omega), hsum,
      Nat.pow_add, Nat.mul_assoc]
  simp only [toMagnitude?_eq, hsize, hrounded, if_neg hd, if_neg hdk]

end Decimal

namespace Magnitude

theorem eq_zero_of_mantissa {m : Magnitude} (h : m.mantissa = 0) : m = .zero := by
  obtain ⟨mantissa, exponent, hlt, hle, hcanonical⟩ := m
  obtain rfl : mantissa = 0 := h
  have hexponent : exponent = 0 := by
    rcases hcanonical with hge | hzero
    · have hge : 2 ^ 52 ≤ 0 := hge
      omega
    · exact hzero
  subst hexponent
  rfl

theorem units_lt (m : Magnitude) {bound : Nat} (hbound : bound = Nat.pow 2 2045) :
    m.units < Nat.pow 2 53 * bound := by
  obtain ⟨hlt, hle, -⟩ := m.canonical
  have hmono {e : Nat} (h : bound = Nat.pow 2 e) (he : m.exponent ≤ e) :
      Nat.pow 2 m.exponent ≤ bound := by
    subst h
    exact Nat.pow_le_pow_right (by decide) he
  exact Nat.mul_lt_mul_of_lt_of_le hlt (hmono hbound hle) (pos_of_eq_pow hbound (by decide))

theorem units_pos {m : Magnitude} (h : m.mantissa ≠ 0) : 0 < m.units :=
  Nat.mul_pos (by omega) (two_pow_pos m.exponent)

/-- The sizes that decide between small, large and other decimals. -/
theorem digitCount_exact {m : Magnitude} (h : m.mantissa ≠ 0) {five : Nat}
    (hfive : five = Nat.pow 5 1074) :
    744 < digitCount (m.units * five) ∧ digitCount (m.units * five) ≤ 1384 := by
  obtain ⟨bound, hbound⟩ : ∃ bound, bound = Nat.pow 2 2045 := ⟨_, rfl⟩
  obtain ⟨low, hlow⟩ : ∃ low, low = 10 ^ 744 := ⟨_, rfl⟩
  obtain ⟨high, hhigh⟩ : ∃ high, high = 10 ^ 1384 := ⟨_, rfl⟩
  constructor
  · have hle := Nat.mul_le_mul_right five (units_pos h)
    have hleast : low ≤ Nat.succ 0 * five := by
      rw [hlow, hfive]
      decide +kernel
    rw [← Nat.not_le, digitCount_le_iff (by decide), ← hlow]
    omega
  · have hless := Nat.mul_lt_mul_of_pos_right (m.units_lt hbound) (pos_of_eq_pow hfive (by decide))
    have hmost : Nat.pow 2 53 * bound * five < high := by
      rw [hbound, hfive, hhigh]
      decide +kernel
    rw [digitCount_le_iff (by decide), ← hhigh]
    exact Nat.lt_trans hless hmost

/-- All digits of a magnitude are enough to read it back. -/
theorem toMagnitude?_exactDecimal {m : Magnitude} (h : m.mantissa ≠ 0) :
    m.exactDecimal.toMagnitude? = some m := by
  obtain ⟨five, hfive⟩ : ∃ five, five = Nat.pow 5 1074 := ⟨_, rfl⟩
  obtain ⟨scale, hscale⟩ : ∃ scale, scale = Nat.pow 2 1074 := ⟨_, rfl⟩
  have hexact : m.exactDecimal = ⟨m.units * five, -(1074 : Nat)⟩ := by
    rw [exactDecimal, hfive]
    rfl
  have hfive' : 0 < five := pos_of_eq_pow hfive (by decide)
  have hten : scale * five = Nat.pow 10 1074 := by
    rw [hscale, hfive]
    decide +kernel
  obtain ⟨hlower, hupper⟩ := digitCount_exact h hfive
  have hdigits : m.units * five ≠ 0 := Nat.mul_ne_zero (Nat.ne_of_gt (units_pos h)) (by omega)
  have hrounded : Decimal.rounded (m.units * five) (-(1074 : Nat)) = some m := by
    rw [Decimal.rounded_neg _ (by decide) hten, ofRatio_mul hfive']
    exact m.ofRatio_units hscale
  rw [hexact, Decimal.toMagnitude?_eq]
  dsimp only
  rw [if_neg hdigits, if_neg (by omega), if_neg (by omega)]
  exact hrounded

/-- The shortest decimal of a magnitude reads back. -/
theorem toMagnitude?_shortest (m : Magnitude) : m.shortest.toMagnitude? = some m := by
  by_cases h : m.mantissa = 0
  · rw [shortest, if_pos h, eq_zero_of_mantissa h]
    rfl
  rw [shortest, if_neg h, shortestWithin]
  cases hfound : (List.range 17).findSome? fun k =>
      (m.exactDecimal.neighbours (digitCount m.exactDecimal.digits - (k + 1))).find?
        (Decimal.readsBack m) with
  | none => exact toMagnitude?_exactDecimal h
  | some x =>
    obtain ⟨k, -, hk⟩ := List.exists_of_findSome?_eq_some hfound
    have hreads := List.find?_some hk
    exact eq_of_beq hreads

theorem digits_shortest_ne_zero {m : Magnitude} (h : m.mantissa ≠ 0) : m.shortest.digits ≠ 0 := by
  intro hzero
  have hback := m.toMagnitude?_shortest
  rw [Decimal.toMagnitude?_eq, if_pos hzero] at hback
  obtain rfl := Option.some.inj hback
  exact h rfl

/-- A number of units has a nearest magnitude well before the largest one. -/
theorem exists_ofRatio {units scale : Nat} (hscale : scale = Nat.pow 2 1074) (h : units.log2 < 2097) :
    ∃ m, ofRatio units scale = some m := by
  have hpos : 0 < scale := pos_of_eq_pow hscale (by decide)
  obtain ⟨e, he⟩ : ∃ e, e = units.log2 - 52 := ⟨_, rfl⟩
  obtain ⟨q, hq⟩ : ∃ q, q = roundHalfEven units (2 ^ e) := ⟨_, rfl⟩
  have hround : roundHalfEven (units * scale) (scale * Nat.pow 2 e) = q := by
    rw [Nat.mul_comm scale, roundHalfEven_mul hpos, hq]
    rfl
  have hparts : Canonical q e ∨ Canonical (q / 2) (e + 1) := by
    by_cases hsmall : units < 2 ^ 53
    · have hzero : e = 0 := by
        by_cases hunits : units = 0
        · rw [he, hunits]
          rfl
        · have hlog := (Nat.log2_lt hunits).mpr hsmall
          omega
      refine .inl ⟨?_, by omega, .inr hzero⟩
      rw [hq, hzero, show units = units * 2 ^ 0 by simp, roundHalfEven_mul_self (by decide)]
      exact hsmall
    · have hunits : units ≠ 0 := by omega
      have hlog : units.log2 = 52 + e := by
        have hlarge : 53 ≤ units.log2 := (Nat.le_log2 hunits).mpr (by omega)
        omega
      obtain ⟨hlow, hhigh⟩ := (Nat.log2_eq_iff hunits).mp hlog
      have hdiv : 2 ^ 52 ≤ units / 2 ^ e ∧ units / 2 ^ e < 2 ^ 53 := by
        rw [Nat.le_div_iff_mul_le (Nat.two_pow_pos e), Nat.div_lt_iff_lt_mul (Nat.two_pow_pos e),
          ← Nat.pow_add, ← Nat.pow_add]
        rw [show 52 + e + 1 = 53 + e by omega] at hhigh
        exact ⟨hlow, hhigh⟩
      have hbetween : 2 ^ 52 ≤ q ∧ q ≤ 2 ^ 53 := by
        rw [hq, roundHalfEven]
        split <;> omega
      by_cases hlast : q < 2 ^ 53
      · exact .inl ⟨hlast, by omega, .inl hbetween.1⟩
      · have hq : q / 2 = 2 ^ 52 := by omega
        rw [hq]
        exact .inr ⟨by decide, by omega, .inl (Nat.le_refl _)⟩
  simp only [ofRatio, ← hscale, Nat.mul_div_cancel _ hpos, ← he, hround]
  by_cases hfirst : Canonical q e
  · exact ⟨_, by rw [ofParts?, dif_pos hfirst]; rfl⟩
  · have hsecond := hparts.resolve_left hfirst
    exact ⟨_, by rw [ofParts?, dif_neg hfirst, ofParts?, dif_pos hsecond]; rfl⟩

theorem log2_mul_pow_lt {n a b scale : Nat} (hscale : scale = Nat.pow 2 b) (h : n < 2 ^ a) (ha : 0 < a) :
    (n * scale).log2 < a + b := by
  by_cases hzero : n * scale = 0
  · rw [hzero, Nat.log2_zero]
    omega
  · rw [Nat.log2_lt hzero, hscale, Nat.pow_add]
    exact Nat.mul_lt_mul_of_pos_right h (two_pow_pos b)

end Magnitude

theorem Binary64.isFinite_ofUnits {negative : Bool} {units scale : Nat} {m : Magnitude}
    (hscale : scale = Nat.pow 2 1074) (h : Magnitude.ofRatio units scale = some m) :
    (ofUnits negative units).isFinite = true := by
  -- The unit is kept a variable, as no check may ever work out a ratio of that size.
  obtain ⟨f, hf⟩ : ∃ f, ofUnits = f := ⟨_, rfl⟩
  rw [hf]
  delta ofUnits at hf
  rw [← hscale] at hf
  rw [← hf]
  dsimp only
  rw [h]
  rfl

/-- A word of 64 bits is nearest to a finite number. -/
theorem Number.isFinite_toFloat {i : Int} (h : i.natAbs < 2 ^ 64) : (int i).toFloat.isFinite = true := by
  obtain ⟨scale, hscale⟩ : ∃ scale, scale = Nat.pow 2 1074 := ⟨_, rfl⟩
  have hlog := Magnitude.log2_mul_pow_lt hscale h (by decide)
  obtain ⟨m, hm⟩ : ∃ m, Magnitude.ofRatio (i.natAbs * scale) scale = some m :=
    Magnitude.exists_ofRatio hscale (by omega)
  simp only [toFloat, ← hscale]
  exact Binary64.isFinite_ofUnits hscale hm

end Bpmn
