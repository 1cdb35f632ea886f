/-
This file proves that small natural numbers are numbers: rounding leaves them as they
are, so the number of a length says that length back. The mantissa of a positive one is
shifted until it has 53 bits, and nothing is shifted out, since its grid steps are a
multiple of the unit of that scale.
-/

import EcmaCore.Engine.Array
import Mathlib.Algebra.Group.Nat.Defs

namespace EcmaCore.Number

/-! ### Rounding -/

/-- A quotient without a remainder is rounded to itself. -/
theorem nearestEven_mul (quotient : Nat) {denominator : Nat} (positive : 0 < denominator) :
    nearestEven (quotient * denominator) denominator = quotient := by
  unfold nearestEven
  simp only [Nat.mul_mod_left, Nat.mul_zero, positive, if_true]
  exact Nat.mul_div_cancel quotient positive

/-- A canonical pair is the number nearest to its own magnitude. -/
theorem carried_of_canonical (negative : Bool) {mantissa scale : Nat}
    (canonical : Canonical mantissa scale) :
    carried negative mantissa scale = .finite negative mantissa scale canonical := by
  rw [carried, dif_pos canonical]

theorem log2_mul_pow {value : Nat} (positive : 0 < value) (bits : Nat) :
    (value * 2 ^ bits).log2 = value.log2 + bits := by
  rw [Nat.log2_eq_iff (Nat.ne_of_gt (Nat.mul_pos positive (Nat.two_pow_pos bits)))]
  constructor
  · rw [Nat.pow_add]
    exact Nat.mul_le_mul_right _ (Nat.log2_self_le (Nat.ne_of_gt positive))
  · rw [Nat.add_right_comm, Nat.pow_add]
    exact Nat.mul_lt_mul_of_pos_right Nat.lt_log2_self (Nat.two_pow_pos bits)

/-- A positive natural number below `2 ^ 53` fills 53 bits after a shift. -/
theorem canonical_shifted {value : Nat} (positive : 0 < value) (small : value.log2 ≤ 52) :
    Canonical (value * 2 ^ (52 - value.log2)) (value.log2 + 1022) := by
  have low : 2 ^ value.log2 ≤ value := Nat.log2_self_le (Nat.ne_of_gt positive)
  have high : value < 2 ^ (value.log2 + 1) := Nat.lt_log2_self
  refine ⟨?_, by omega, Or.inr ?_⟩
  · calc value * 2 ^ (52 - value.log2)
        < 2 ^ (value.log2 + 1) * 2 ^ (52 - value.log2) :=
          Nat.mul_lt_mul_of_pos_right high (Nat.two_pow_pos _)
      _ = 2 ^ 53 := by rw [← Nat.pow_add]; congr 1; omega
  · calc 2 ^ 52 = 2 ^ value.log2 * 2 ^ (52 - value.log2) := by
          rw [← Nat.pow_add]; congr 1; omega
      _ ≤ value * 2 ^ (52 - value.log2) := Nat.mul_le_mul_right _ low

/-- One is the unit of the scale at which 53 bits begin at one, shifted by the other 52. -/
theorem one_eq_pow {room : Nat} (exact : 1022 = room) : one = 2 ^ (room + 52) := by
  have exponents : 1074 = room + 52 := by omega
  delta one
  simp only [exponents]
  exact Nat.pow_eq

theorem one_pos : 0 < one := by
  obtain ⟨room, exact⟩ : ∃ room, 1022 = room := ⟨_, rfl⟩
  rw [one_eq_pow exact]
  exact Nat.two_pow_pos _

/-- The shifted mantissa at its scale is as many grid steps as the natural number. -/
theorem shifted_mul_pow (value room : Nat) {bits : Nat} (small : bits ≤ 52) :
    value * 2 ^ (52 - bits) * 2 ^ (bits + room) = value * 2 ^ (room + 52) := by
  have exponents : 52 - bits + (bits + room) = room + 52 := by omega
  rw [Nat.mul_assoc, ← Nat.pow_add, exponents]

theorem ofNat_eq_finite {value : Nat} (positive : 0 < value) (small : value.log2 ≤ 52) :
    ofNat value = .finite false (value * 2 ^ (52 - value.log2)) (value.log2 + 1022)
      (canonical_shifted positive small) := by
  have scale : (value * one / 1).log2 - 52 = value.log2 + 1022 := by
    obtain ⟨room, exact⟩ : ∃ room, 1022 = room := ⟨_, rfl⟩
    rw [Nat.div_one, one_eq_pow exact, exact, log2_mul_pow positive, ← Nat.add_assoc,
      Nat.add_sub_cancel]
  have steps : value * one =
      value * 2 ^ (52 - value.log2) * (1 * 2 ^ (value.log2 + 1022)) := by
    obtain ⟨room, exact⟩ : ∃ room, 1022 = room := ⟨_, rfl⟩
    rw [one_eq_pow exact, exact, Nat.one_mul, shifted_mul_pow value room small]
  have rounded : nearestEven (value * one) (1 * Nat.pow 2 (value.log2 + 1022)) =
      value * 2 ^ (52 - value.log2) := by
    rw [steps]
    exact nearestEven_mul _ (Nat.mul_pos Nat.one_pos (Nat.two_pow_pos _))
  rw [ofNat, nearest, scale, rounded, carried_of_canonical]

theorem canonical_zero : Canonical 0 0 := by decide

theorem ofNat_zero : ofNat 0 = zero := by
  rw [ofNat, Nat.zero_mul]
  decide

/-! ### Integers -/

/-- Natural numbers below `2 ^ 53` are not changed by rounding. -/
theorem integer?_ofNat {value : Nat} (small : value < 2 ^ 53) :
    (ofNat value).integer? = some (value : Int) := by
  rcases Nat.eq_zero_or_pos value with rfl | positive
  · rw [ofNat_zero, zero, integer?, truncated?, Nat.zero_mul, Nat.zero_mod, Nat.zero_div,
      if_pos rfl]
    rfl
  · have bits : value.log2 ≤ 52 :=
      Nat.le_of_lt_succ ((Nat.log2_lt (Nat.ne_of_gt positive)).mpr small)
    have steps : value * 2 ^ (52 - value.log2) * Nat.pow 2 (value.log2 + 1022) = value * one := by
      rw [one_eq_pow rfl]
      exact shifted_mul_pow value 1022 bits
    rw [ofNat_eq_finite positive bits, integer?, truncated?, steps, Nat.mul_mod_left, if_pos rfl,
      Nat.mul_div_cancel _ one_pos]
    rfl

theorem integer?_zero (negative : Bool) {scale : Nat} (canonical : Canonical 0 scale) :
    (Number.finite negative 0 scale canonical).integer? = some 0 := by
  rw [integer?, truncated?, Nat.zero_mul, Nat.zero_mod, Nat.zero_div, if_pos rfl]
  cases negative <;> rfl

/-- The grid steps of a number that is an integer are as many as the integer asks for. -/
theorem exists_steps_of_integer? {negative : Bool} {mantissa scale : Nat}
    {canonical : Canonical mantissa scale} {value : Int}
    (whole : (finite negative mantissa scale canonical).integer? = some value) :
    ∃ integer : Nat, value = signed negative integer ∧ mantissa * 2 ^ scale = integer * one := by
  rw [integer?] at whole
  split at whole
  · rename_i exact
    exact ⟨mantissa * Nat.pow 2 scale / one, (Option.some.inj whole).symm,
      (Nat.div_mul_cancel (Nat.dvd_of_mod_eq_zero exact)).symm⟩
  · cases whole

theorem natAbs_signed (negative : Bool) (value : Nat) : (signed negative value).natAbs = value := by
  cases negative <;> simp [signed]

theorem pos_of_steps {mantissa scale integer : Nat} (positive : 0 < mantissa)
    (steps : mantissa * 2 ^ scale = integer * one) : 0 < integer := by
  refine Nat.pos_of_ne_zero fun nothing => ?_
  rw [nothing, Nat.zero_mul] at steps
  exact Nat.ne_of_gt (Nat.mul_pos positive (Nat.two_pow_pos scale)) steps

/-- The length of a number that is a natural number, either zero included. -/
theorem toLength_of_integer? {number : Number} {value : Nat}
    (whole : number.integer? = some (value : Int)) :
    number.toLength = min value maxSafeInteger := by
  cases number with
  | nan => cases whole
  | infinity negative => cases whole
  | finite negative mantissa scale canonical =>
    rw [integer?] at whole
    split at whole
    · have steps := Option.some.inj whole
      cases negative with
      | false =>
        have equal : mantissa * Nat.pow 2 scale / one = value := Int.ofNat.inj steps
        rw [toLength, equal]
        rfl
      | true =>
        have nothing : value = 0 := by
          rw [signed, if_pos rfl] at steps
          generalize mantissa * Nat.pow 2 scale / one = whole at steps
          omega
        rw [nothing]
        rfl
    · cases whole

theorem clampedUint32_of_integer? {number : Number} {value : Nat}
    (whole : number.integer? = some (value : Int)) (bound : value ≤ maxLength) :
    number.clampedUint32 = value := by
  have room : maxLength ≤ maxSafeInteger := by decide
  rw [clampedUint32, toLength_of_integer? whole, Nat.min_eq_left (Nat.le_trans bound room)]
  exact Nat.min_eq_left bound

/-- Every length is a number. -/
theorem integer?_ofNat_of_le {length : Nat} (bound : length ≤ maxLength) :
    (ofNat length).integer? = some (length : Int) :=
  integer?_ofNat (Nat.lt_of_le_of_lt bound (by decide))

theorem toLength_ofNat {length : Nat} (bound : length ≤ maxLength) :
    (ofNat length).toLength = length := by
  rw [toLength_of_integer? (integer?_ofNat_of_le bound)]
  exact Nat.min_eq_left (Nat.le_trans bound (by decide))

theorem truncated?_of_integer? {number : Number} {value : Int}
    (whole : number.integer? = some value) : number.truncated? = some value := by
  cases number with
  | nan => cases whole
  | infinity negative => cases whole
  | finite negative mantissa scale canonical =>
    rw [integer?] at whole
    split at whole
    · exact whole
    · cases whole

/-- Conversion to an unsigned integer leaves a length as it is. -/
theorem toUint32_of_integer? {number : Number} {length : Nat}
    (whole : number.integer? = some (length : Int)) (bound : length ≤ maxLength) :
    number.toUint32 = length := by
  have small : length < Nat.pow 2 32 := Nat.lt_of_le_of_lt bound (by decide)
  rw [toUint32, truncated?_of_integer? whole]
  show ((length : Int) % (Nat.pow 2 32 : Nat)).toNat = length
  rw [← Int.natCast_emod, Int.toNat_natCast, Nat.mod_eq_of_lt small]

theorem toUint32_ofNat {length : Nat} (bound : length ≤ maxLength) :
    (ofNat length).toUint32 = length :=
  toUint32_of_integer? (integer?_ofNat_of_le bound) bound

/-- A length equals itself, since it is not NaN. -/
theorem equals_ofNat {length : Nat} (bound : length ≤ maxLength) :
    (ofNat length).equals (ofNat length) = true := by
  have number : ofNat length ≠ .nan := by
    intro same
    have whole := integer?_ofNat_of_le bound
    rw [same] at whole
    cases whole
  rw [equals, bne_iff_ne.mpr number, BEq.rfl, Bool.and_self, Bool.true_or]

theorem toUint32_le (number : Number) : number.toUint32 ≤ maxLength := by
  rw [toUint32]
  split
  · rename_i value _
    have bound : value % (Nat.pow 2 32 : Nat) < (Nat.pow 2 32 : Nat) :=
      Int.emod_lt_of_pos value (by decide)
    have exact : maxLength = 2 ^ 32 - 1 := rfl
    have power : (Nat.pow 2 32 : Nat) = 2 ^ 32 := rfl
    omega
  · exact Nat.zero_le _

end EcmaCore.Number
