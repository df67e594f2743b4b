import Bpmn.Number.Decimal
import Mathlib.Algebra.Group.Nat.Defs

namespace Bpmn

theorem digitCount_le_iff {n k : Nat} (hk : 0 < k) : digitCount n ≤ k ↔ n < 10 ^ k :=
  Nat.length_toDigits_le_iff (by decide) hk

namespace Digits

variable {n : Nat}

theorem isDigit_toDigits : ∀ c ∈ Nat.toDigits 10 n, c.isDigit = true :=
  fun _ hc => Nat.isDigit_of_mem_toDigits (by decide) (by decide) hc

theorem toDigits_mul_ten (hn : n ≠ 0) : Nat.toDigits 10 (n * 10) = Nat.toDigits 10 n ++ ['0'] := by
  have h := Nat.toDigits_append_toDigits (b := 10) (n := n) (d := 0) (by decide) (by omega) (by decide)
  rw [Nat.add_zero, Nat.mul_comm] at h
  exact h.symm

/-- Each power of ten appends a zero. -/
theorem toDigits_mul_pow (hn : n ≠ 0) (k : Nat) :
    Nat.toDigits 10 (n * 10 ^ k) = Nat.toDigits 10 n ++ List.replicate k '0' := by
  induction k with
  | zero => simp
  | succ k ih =>
    have hpos : n * 10 ^ k ≠ 0 := by
      have h10 : 0 < 10 ^ k := Nat.pow_pos (by decide)
      have hmul := Nat.mul_ne_zero hn (by omega : 10 ^ k ≠ 0)
      exact hmul
    rw [Nat.pow_succ, ← Nat.mul_assoc, toDigits_mul_ten hpos, ih, List.replicate_succ']
    simp

theorem digitCount_mul_pow (hn : n ≠ 0) (k : Nat) :
    digitCount (n * 10 ^ k) = digitCount n + k := by
  rw [digitCount, toDigits_mul_pow hn]
  simp [digitCount]

/-- The first digit of a number is no zero, unless the number is. -/
theorem head_toDigits (hn : n ≠ 0) : (Nat.toDigits 10 n).head? ≠ some '0' := by
  induction n using Nat.strongRecOn with
  | _ n ih =>
    by_cases hlt : n < 10
    · rw [Nat.toDigits_of_lt_base hlt]
      intro h
      have hc : n.digitChar = '0' := by simpa using h
      have hv := Nat.toNat_digitChar_of_lt_ten hlt
      rw [hc] at hv
      simp at hv
      omega
    · have hdiv : n / 10 ≠ 0 := by omega
      have hhead := ih (n / 10) (by omega) hdiv
      rw [Nat.toDigits_of_base_le (by decide) (by omega)]
      cases hd : Nat.toDigits 10 (n / 10) with
      | nil => exact absurd hd Nat.toDigits_ne_nil
      | cons c rest =>
        rw [hd] at hhead
        exact hhead

theorem value_le {c : Char} (h : c.isDigit = true) : 10 * 0 + (c.toNat - '0'.toNat) ≤ 9 := by
  simp only [Char.isDigit, Bool.and_eq_true, decide_eq_true_eq] at h
  have hle : c.val.toNat ≤ 57 := UInt32.le_iff_toNat_le.mp h.2
  have hc : c.toNat ≤ 57 := hle
  have h0 : '0'.toNat = 48 := rfl
  omega

/-- Digits spell less than the power of ten that has one digit more. -/
theorem ofDigitChars_lt {digits : List Char} (h : ∀ c ∈ digits, c.isDigit = true) :
    Nat.ofDigitChars 10 digits 0 < 10 ^ digits.length := by
  induction digits with
  | nil => simp
  | cons c rest ih =>
    have hrest := ih fun c hc => h c (List.mem_cons_of_mem _ hc)
    have hvalue := value_le (h c (by simp))
    rw [Nat.ofDigitChars_cons, Nat.ofDigitChars_eq_ofDigitChars_zero, List.length_cons, Nat.pow_succ]
    have hscaled := Nat.mul_le_mul_left (10 ^ rest.length) hvalue
    omega

theorem digitCount_ofDigitChars_le {digits : List Char} (h : ∀ c ∈ digits, c.isDigit = true)
    (hne : digits ≠ []) : digitCount (Nat.ofDigitChars 10 digits 0) ≤ digits.length := by
  rw [digitCount_le_iff (List.length_pos_iff.mpr hne)]
  exact ofDigitChars_lt h

end Digits

end Bpmn
