/-
This file says what a written numeral denotes, and proves that the number that is found
for it is the nearest to that. The two shortcuts for extreme exponents change nothing:
what they pass over is beyond the largest number, or less than half a grid step.
-/

import EcmaCore.Number.Decimal
import EcmaCore.Proofs.Number.Nearest
import Mathlib.Tactic.FieldSimp

namespace EcmaCore

open Number

/-! ### Decimals -/

/-- One is a power of two. The exponent is a variable, so that nothing computes the power. -/
theorem one_eq_two_pow {bits : Nat} (exact : 1074 = bits) : (one : ℚ) = 2 ^ bits := by
  obtain ⟨room, rfl⟩ : ∃ room, bits = room + 52 := ⟨1022, exact.symm⟩
  have shorter : 1022 = room := by omega
  rw [one_eq_pow shorter, Nat.cast_pow, Nat.cast_ofNat]

/-- A power of ten is at least the power of two with three times as many factors. -/
theorem two_pow_le_ten_pow (exponent : Nat) : (2 : ℚ) ^ (3 * exponent) ≤ 10 ^ exponent := by
  rw [pow_mul]
  exact pow_le_pow_left₀ (by norm_num) (by norm_num) exponent

theorem overflow_le_of_large {coefficient exponent : Nat} (nonzero : coefficient ≠ 0)
    (large : 400 < exponent) : overflow ≤ coefficient * 10 ^ exponent * one := by
  have least : (1 : ℚ) ≤ coefficient := by exact_mod_cast Nat.pos_of_ne_zero nonzero
  have digits : (10 : ℚ) ^ exponent ≤ coefficient * 10 ^ exponent :=
    le_mul_of_one_le_left (pow_nonneg (by norm_num) exponent) least
  calc overflow
      ≤ 2 ^ 54 * 2 ^ 2044 := mul_le_mul_of_nonneg_right (by norm_num) (unit_pos 2044).le
    _ = 2 ^ 2098 := (pow_add _ _ _).symm
    _ ≤ 2 ^ (3 * exponent + 1074) := pow_le_pow_right₀ one_le_two (by omega)
    _ = 2 ^ (3 * exponent) * one := by rw [pow_add, one_eq_two_pow rfl]
    _ ≤ coefficient * 10 ^ exponent * one :=
        mul_le_mul_of_nonneg_right ((two_pow_le_ten_pow exponent).trans digits) (Nat.cast_nonneg _)

theorem le_half_of_small {coefficient below : Nat} (small : coefficient.log2 + 1080 < 3 * below) :
    (coefficient * one : ℚ) / 10 ^ (below + 1) ≤ 1 / 2 := by
  have bits : (coefficient : ℚ) ≤ 2 ^ (coefficient.log2 + 1) := by
    exact_mod_cast (Nat.lt_log2_self (n := coefficient)).le
  have power : (0 : ℚ) < 10 ^ (below + 1) := pow_pos (by norm_num) _
  have bound : (2 : ℚ) * (coefficient * one) ≤ 10 ^ (below + 1) := by
    calc (2 : ℚ) * (coefficient * one)
        ≤ 2 * (2 ^ (coefficient.log2 + 1) * one) :=
          mul_le_mul_of_nonneg_left (mul_le_mul_of_nonneg_right bits (Nat.cast_nonneg _))
            zero_le_two
      _ = 2 ^ (coefficient.log2 + 1076) := by
          rw [one_eq_two_pow rfl, ← pow_add, ← pow_succ']
      _ ≤ 2 ^ (3 * (below + 1)) := pow_le_pow_right₀ one_le_two (by omega)
      _ ≤ 10 ^ (below + 1) := two_pow_le_ten_pow _
  rw [div_le_iff₀ power]
  linarith

/-- The exact value of a decimal, and the number that is found for it. -/
theorem Decimal.isNearest_toNumber (decimal : Decimal) :
    decimal.toNumber.IsNearest decimal.negative
      (decimal.coefficient * 10 ^ decimal.exponent * one) := by
  obtain ⟨negative, coefficient, exponent⟩ := decimal
  cases exponent with
  | ofNat exponent =>
    rw [toNumber, Int.ofNat_eq_natCast, zpow_natCast]
    dsimp only
    split_ifs with nothing large
    · rw [nothing, Nat.cast_zero, zero_mul, zero_mul]
      exact isNearest_zero negative le_rfl (by norm_num)
    · exact .infinite (overflow_le_of_large nothing large)
    · have found := isNearest_nearest negative (coefficient * Nat.pow 10 exponent * one) Nat.one_pos
      have exact : ((coefficient * Nat.pow 10 exponent * one : Nat) : ℚ) / (1 : Nat) =
          coefficient * 10 ^ exponent * one := by
        show ((coefficient * 10 ^ exponent * one : Nat) : ℚ) / _ = _
        push_cast
        rw [div_one]
      rwa [exact] at found
  | negSucc below =>
    have exact : (coefficient * 10 ^ Int.negSucc below * one : ℚ) =
        coefficient * one / 10 ^ (below + 1) := by
      rw [zpow_negSucc, div_eq_mul_inv]
      ring
    rw [toNumber]
    dsimp only
    rw [exact]
    split_ifs with small
    · refine isNearest_zero negative ?_ (le_half_of_small small)
      exact div_nonneg (mul_nonneg (Nat.cast_nonneg _) (Nat.cast_nonneg _))
        (pow_nonneg (by norm_num) _)
    · have found := isNearest_nearest negative (coefficient * one)
        (Nat.pow_pos (n := below + 1) (show 0 < 10 by decide))
      push_cast at found
      exact found

/-! ### Numerals -/

theorem foldl_digits (value : Nat) (digits : List Nat) :
    digits.foldl (fun value digit => value * 10 + digit) value =
      value * 10 ^ digits.length + ofDigits digits := by
  unfold ofDigits
  induction digits generalizing value with
  | nil => simp
  | cons digit digits inductionHypothesis =>
    rw [List.foldl_cons, List.foldl_cons, inductionHypothesis, inductionHypothesis (0 * 10 + digit),
      List.length_cons, pow_succ]
    ring

theorem ofDigits_append (first second : List Nat) :
    ofDigits (first ++ second) = ofDigits first * 10 ^ second.length + ofDigits second := by
  rw [ofDigits, List.foldl_append, foldl_digits, ← ofDigits]

/-- The magnitude that a numeral denotes. -/
def Numeral.magnitude (numeral : Numeral) : ℚ :=
  (ofDigits numeral.whole + ofDigits numeral.fraction / 10 ^ numeral.fraction.length) *
    10 ^ (if numeral.exponentNegative then -(ofDigits numeral.exponent : ℤ)
      else ofDigits numeral.exponent)

theorem Numeral.magnitude_toDecimal (numeral : Numeral) :
    (numeral.toDecimal.coefficient * 10 ^ numeral.toDecimal.exponent : ℚ) = numeral.magnitude := by
  have ten : (10 : ℚ) ≠ 0 := by norm_num
  have power : (10 : ℚ) ^ numeral.fraction.length ≠ 0 := pow_ne_zero _ ten
  rw [toDecimal, magnitude]
  dsimp only
  rw [ofDigits_append, zpow_sub₀ ten, zpow_natCast]
  push_cast
  field_simp

/-- The number is the nearest to the magnitude that the numeral denotes, with its sign. -/
def Numeral.Denotes (numeral : Numeral) (number : Number) : Prop :=
  number.IsNearest numeral.negative (numeral.magnitude * one)

theorem Numeral.denotes_toNumber (numeral : Numeral) : numeral.Denotes numeral.toNumber := by
  unfold Denotes
  rw [← magnitude_toDecimal]
  exact numeral.toDecimal.isNearest_toNumber

/-- A numeral denotes one number, the one that is found for it. -/
theorem Numeral.Denotes.eq_toNumber {numeral : Numeral} {number : Number}
    (denotes : numeral.Denotes number) : number = numeral.toNumber :=
  denotes.unique numeral.denotes_toNumber

end EcmaCore
