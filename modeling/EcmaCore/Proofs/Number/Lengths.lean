/-
This file says which numbers pass for the length of an array. A number is converted to an
unsigned integer and has to equal the result. That holds for the integers up to
`2 ^ 32 - 1`, the negative zero included, and for no other number: a number has one
canonical pair, so an integer has no second positive number to be.
-/

import EcmaCore.Proofs.Number.Nearest

namespace EcmaCore.Number

variable {number : Number} {length : Nat}

theorem integer?_of_isZero (zero : number.isZero = true) : number.integer? = some 0 := by
  cases number with
  | nan => cases zero
  | infinity negative => cases zero
  | finite negative mantissa scale canonical =>
    obtain rfl : mantissa = 0 := beq_iff_eq.mp zero
    exact integer?_zero negative canonical

/-- The grid steps of an integer are as many as the integer asks for. -/
theorem steps_of_integer? {negative : Bool} {mantissa scale : Nat}
    {canonical : Canonical mantissa scale}
    (whole : (finite negative mantissa scale canonical).integer? = some (length : Int)) :
    mantissa * 2 ^ scale = length * one ∧ (negative = true → length = 0) := by
  obtain ⟨integer, value, steps⟩ := exists_steps_of_integer? whole
  rw [signed] at value
  split at value <;> rename_i sign
  · exact ⟨by rw [steps]; congr 1; omega, fun _ => by omega⟩
  · exact ⟨by rw [steps]; congr 1; omega, fun below => absurd below sign⟩

/-- A natural number is the only number that it is, but for the sign of zero. -/
theorem eq_ofNat_of_integer? (whole : number.integer? = some (length : Int))
    (positive : 0 < length) (small : length < 2 ^ 53) : number = ofNat length := by
  cases number with
  | nan => cases whole
  | infinity negative => cases whole
  | finite negative mantissa scale canonical =>
    obtain ⟨steps, sign⟩ := steps_of_integer? whole
    have bits : length.log2 ≤ 52 :=
      Nat.le_of_lt_succ ((Nat.log2_lt (Nat.ne_of_gt positive)).mpr small)
    obtain rfl : negative = false := by
      cases negative with
      | false => rfl
      | true => exact absurd (sign rfl) (Nat.ne_of_gt positive)
    have shifted : length * 2 ^ (52 - length.log2) * 2 ^ (length.log2 + 1022) = length * one := by
      rw [one_eq_pow rfl]
      exact shifted_mul_pow length 1022 bits
    obtain ⟨rfl, rfl⟩ :=
      canonical.unique (canonical_shifted positive bits) (steps.trans shifted.symm)
    exact (ofNat_eq_finite positive bits).symm

theorem isZero_of_integer?_zero (whole : number.integer? = some ((0 : Nat) : Int)) :
    number.isZero = true := by
  cases number with
  | nan => cases whole
  | infinity negative => cases whole
  | finite negative mantissa scale canonical =>
    have steps := (steps_of_integer? whole).1
    rw [Nat.zero_mul] at steps
    exact beq_iff_eq.mpr ((Nat.mul_eq_zero.mp steps).resolve_right (Nat.two_pow_pos scale).ne')

/-- The numbers that equal their own conversion to an unsigned integer are the lengths that arrays
can have. -/
theorem equals_toUint32_iff :
    (ofNat number.toUint32).equals number = true ↔
      ∃ length ≤ maxLength, number.integer? = some ((length : Nat) : Int) := by
  constructor
  · intro equal
    rw [equals, Bool.or_eq_true, Bool.and_eq_true, Bool.and_eq_true] at equal
    rcases equal with ⟨_, same⟩ | ⟨_, zero⟩
    · have whole := integer?_ofNat_of_le number.toUint32_le
      rw [beq_iff_eq.mp same] at whole
      exact ⟨_, number.toUint32_le, whole⟩
    · exact ⟨0, Nat.zero_le _, integer?_of_isZero zero⟩
  · rintro ⟨length, bound, whole⟩
    rw [toUint32_of_integer? whole bound]
    rcases Nat.eq_zero_or_pos length with rfl | positive
    · rw [ofNat_zero, equals, isZero_of_integer?_zero whole]
      exact Bool.or_true _
    · rw [eq_ofNat_of_integer? whole positive (Nat.lt_of_le_of_lt bound (by decide))]
      exact equals_ofNat bound

end EcmaCore.Number
