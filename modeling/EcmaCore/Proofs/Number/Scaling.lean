/-
This file follows a value through one step of collecting the digits of a literal: it is
multiplied by a power of two, and a digit is added. As long as the value is below `2 ^ 53`
nothing is lost before the last rounding, which is the only one. From `2 ^ 53` on the
product has no more bits than the value had, and the digit is less than half a unit, so
the sum is rounded back to the product: the step only moves the scale.
-/

import EcmaCore.Number.Literal
import EcmaCore.Proofs.Number.Spelling

namespace EcmaCore.Number

variable {mantissa scale : Nat}

theorem one_cast_pos : (0 : ℚ) < one := Nat.cast_pos.mpr one_pos

/-! ### Rounding where 53 bits are filled -/

/-- A value that fills 53 bits is rounded in the same way at every larger scale. -/
theorem Rounded.scaled {value : ℚ} (rounded : Rounded value mantissa scale)
    (normal : 2 ^ 52 * 2 ^ scale ≤ value) (bits : Nat) :
    Rounded (value * 2 ^ bits) mantissa (scale + bits) := by
  have positive := unit_pos bits
  have distance : |value * 2 ^ bits - magnitude mantissa (scale + bits)| =
      |value - magnitude mantissa scale| * 2 ^ bits := by
    rw [magnitude, magnitude, pow_add, ← mul_assoc, ← sub_mul, abs_mul, abs_of_pos positive]
  have half : (2 : ℚ) ^ (scale + bits) / 2 = 2 ^ scale / 2 * 2 ^ bits := by
    rw [pow_add, mul_div_right_comm]
  refine ⟨?_, Or.inr ?_, ?_, fun far => rounded.even ?_⟩
  · rw [pow_add, ← mul_assoc]
    exact mul_lt_mul_of_pos_right rounded.below positive
  · rw [pow_add, ← mul_assoc]
    exact mul_le_mul_of_nonneg_right normal positive.le
  · rw [distance, half]
    exact mul_le_mul_of_nonneg_right rounded.close positive.le
  · rw [distance, half] at far
    exact mul_right_cancel₀ positive.ne' far

theorem lt_halfway (mantissa scale : Nat) :
    magnitude mantissa scale < magnitude mantissa scale + 2 ^ scale / 2 :=
  lt_add_of_pos_right _ (half_pos (unit_pos scale))

/-- A value at most half a unit above a mantissa of 53 bits is rounded to that mantissa, halfway
only if that is even. -/
theorem rounded_of_near {value : ℚ} (low : 2 ^ 52 ≤ mantissa) (high : mantissa < 2 ^ 53)
    (above : magnitude mantissa scale ≤ value)
    (near : value ≤ magnitude mantissa scale + 2 ^ scale / 2)
    (even : value = magnitude mantissa scale + 2 ^ scale / 2 → mantissa % 2 = 0) :
    Rounded value mantissa scale := by
  have positive := unit_pos scale
  have distance : |value - magnitude mantissa scale| = value - magnitude mantissa scale :=
    abs_of_nonneg (sub_nonneg.mpr above)
  have least : 2 ^ 52 * 2 ^ scale ≤ magnitude mantissa scale :=
    mul_le_mul_of_nonneg_right (by exact_mod_cast low) positive.le
  have most : magnitude mantissa scale + 2 ^ scale ≤ 2 ^ 53 * 2 ^ scale := by
    have bound : (mantissa : ℚ) + 1 ≤ 2 ^ 53 := by exact_mod_cast high
    have scaled := mul_le_mul_of_nonneg_right bound positive.le
    rw [magnitude]
    linarith
  refine ⟨by linarith, Or.inr (least.trans above), ?_, fun half => even ?_⟩
  · rw [distance]
    linarith
  · rw [distance] at half
    linarith

/-- The number of a mantissa with 53 bits, at any scale, is the nearest to what rounds to it. -/
theorem nearest_eq_carried (negative : Bool) {numerator denominator : Nat}
    (positive : 0 < denominator) (rounded : Rounded (numerator / denominator) mantissa scale) :
    nearest negative numerator denominator = carried negative mantissa scale :=
  (isNearest_nearest negative numerator positive).unique (rounded.isNearest_carried negative)

/-- A mantissa that is one bit too long has the same number as half of it at the next scale. -/
theorem carried_carry (negative : Bool) (scale : Nat) :
    carried negative (2 ^ 53) scale = carried negative (2 ^ 52) (scale + 1) := by
  have long : ¬ Canonical (2 ^ 53) scale := fun canonical => absurd canonical.1 (lt_irrefl _)
  unfold carried
  rw [dif_neg long]
  by_cases room : scale < 2045
  · rw [dif_pos room, dif_pos ⟨by decide, room, Or.inr (le_refl _)⟩]
    rfl
  · rw [dif_neg room, dif_neg fun canonical => room canonical.2.1, dif_neg (by omega)]

/-- Beyond the largest scale a mantissa of 53 bits is infinite. -/
theorem carried_of_large (negative : Bool) (mantissa : Nat) (large : 2045 < scale) :
    carried negative mantissa scale = .infinity negative := by
  unfold carried
  rw [dif_neg fun canonical => absurd canonical.2.1 (by omega), dif_neg (by omega)]

/-! ### Natural numbers -/

/-- The number of a natural number is the nearest to it. -/
theorem isNearest_ofNat (value : Nat) : (ofNat value).IsNearest false (value * one) := by
  have found := isNearest_nearest false (value * one) Nat.one_pos
  rwa [Nat.cast_one, div_one, Nat.cast_mul] at found

/-- A natural number of at most 53 bits times a power of two is exact. -/
theorem exists_steps_shifted {value bits : Nat} (small : value < 2 ^ 53) (few : bits ≤ 52) :
    ∃ (mantissa scale : Nat) (canonical : Canonical mantissa scale),
      ofNat (value * 2 ^ bits) = .finite false mantissa scale canonical ∧
        mantissa * 2 ^ scale = value * 2 ^ bits * one := by
  rcases Nat.eq_zero_or_pos value with rfl | positive
  · refine ⟨0, 0, canonical_zero, ?_, by rw [zero_mul, zero_mul, zero_mul]⟩
    rw [zero_mul, ofNat_zero]
    rfl
  have length : value.log2 ≤ 52 :=
    Nat.le_of_lt_succ ((Nat.log2_lt positive.ne').mpr small)
  have canonical := canonical_shifted positive length
  have shifted : value * 2 ^ (52 - value.log2) * 2 ^ (value.log2 + 1022) = value * one := by
    rw [one_eq_pow rfl]
    exact shifted_mul_pow value 1022 length
  have steps : value * 2 ^ (52 - value.log2) * 2 ^ (value.log2 + 1022 + bits) =
      value * 2 ^ bits * one := by
    rw [pow_add _ _ bits, ← mul_assoc, shifted, mul_right_comm]
  have canonicalScaled : Canonical (value * 2 ^ (52 - value.log2)) (value.log2 + 1022 + bits) :=
    ⟨canonical.1, by omega, canonical.2.2.imp_left fun zero => absurd zero (by omega)⟩
  refine ⟨_, _, canonicalScaled, ?_, steps⟩
  have self := isNearest_self false canonicalScaled
  rw [magnitude_eq_cast, steps, Nat.cast_mul] at self
  exact (isNearest_ofNat _).unique self

/-- A natural number is rounded to a mantissa at a scale where the unit is an even number. -/
structure Overfull (value mantissa scale excess : Nat) : Prop where
  rounded : Rounded (value * one) mantissa scale
  unit : (2 : ℚ) ^ scale = 2 ^ (excess + 1) * one

/-- Some scale has that unit. -/
theorem exists_scale (excess : Nat) : ∃ scale, (2 : ℚ) ^ scale = 2 ^ (excess + 1) * one := by
  -- The count of fractional bits gets a name, so that its power is not evaluated.
  obtain ⟨room, exact⟩ : ∃ room, 1074 = room := ⟨_, rfl⟩
  exact ⟨excess + 1 + room, by rw [pow_add, one_eq_two_pow exact]⟩

theorem exists_overfull {value : Nat} (large : 2 ^ 53 ≤ value) :
    ∃ mantissa scale excess, Overfull value mantissa scale excess := by
  have nonzero : value ≠ 0 := fun zero => by
    rw [zero] at large
    exact absurd large (by decide)
  obtain ⟨excess, bits⟩ := Nat.exists_eq_add_of_le ((Nat.le_log2 nonzero).mpr large)
  have low : 2 ^ 52 * 2 ^ (excess + 1) ≤ value := by
    rw [← pow_add, show 52 + (excess + 1) = value.log2 by omega]
    exact Nat.log2_self_le nonzero
  have high : value < 2 ^ 53 * 2 ^ (excess + 1) := by
    rw [← pow_add, show 53 + (excess + 1) = value.log2 + 1 by omega]
    exact Nat.lt_log2_self
  obtain ⟨scale, unit⟩ := exists_scale excess
  have steps : 2 ^ scale = 2 ^ (excess + 1) * one := by exact_mod_cast unit
  have rounded : Rounded ((value * one : Nat) / (1 : Nat))
      (nearestEven (value * one) (1 * 2 ^ scale)) scale := by
    refine rounded_nearestEven Nat.one_pos ?_ (Or.inr ?_)
    · rw [steps, mul_one, ← mul_assoc]
      exact Nat.mul_lt_mul_of_pos_right high one_pos
    · rw [steps, mul_one, ← mul_assoc]
      exact Nat.mul_le_mul_right one low
  rw [Nat.cast_one, div_one, Nat.cast_mul] at rounded
  exact ⟨_, _, excess, rounded, unit⟩

namespace Overfull

variable {value excess : Nat}

theorem scale_ne_zero (overfull : Overfull value mantissa scale excess) : scale ≠ 0 := by
  rintro rfl
  have unit := overfull.unit
  have grows : (1 : ℚ) ≤ 2 ^ excess := one_le_pow₀ one_le_two
  have least : (1 : ℚ) ≤ one := Nat.one_le_cast.mpr one_pos
  rw [pow_zero, pow_succ] at unit
  nlinarith

theorem normal (overfull : Overfull value mantissa scale excess) :
    (2 : ℚ) ^ 52 * 2 ^ scale ≤ value * one :=
  overfull.rounded.fits.resolve_left overfull.scale_ne_zero

theorem low (overfull : Overfull value mantissa scale excess) : 2 ^ 52 ≤ mantissa :=
  overfull.rounded.normal.resolve_left overfull.scale_ne_zero

/-- Multiplied by a power of two, the number keeps its mantissa. -/
theorem ofNat_mul_pow (overfull : Overfull value mantissa scale excess) (bits : Nat) :
    ofNat (value * 2 ^ bits) = carried false mantissa (scale + bits) := by
  have scaled := overfull.rounded.scaled overfull.normal bits
  have product : (value * one * 2 ^ bits : ℚ) = (value * 2 ^ bits : Nat) * one := by
    push_cast
    ring
  rw [product] at scaled
  exact (isNearest_ofNat _).unique (scaled.isNearest_carried false)

end Overfull

/-- The same with a mantissa that is not too long. -/
theorem exists_ofNat_mul_pow {value : Nat} (large : 2 ^ 53 ≤ value) :
    ∃ mantissa scale excess, 2 ^ 52 ≤ mantissa ∧ mantissa < 2 ^ 53 ∧
      (2 : ℚ) ^ scale = 2 ^ (excess + 1) * one ∧
      ∀ bits, ofNat (value * 2 ^ bits) = carried false mantissa (scale + bits) := by
  obtain ⟨mantissa, scale, excess, overfull⟩ := exists_overfull large
  rcases Nat.lt_or_eq_of_le overfull.rounded.le with high | rfl
  · exact ⟨mantissa, scale, excess, overfull.low, high, overfull.unit, overfull.ofNat_mul_pow⟩
  · refine ⟨2 ^ 52, scale + 1, excess + 1, le_rfl, by decide, ?_, fun bits => ?_⟩
    · rw [pow_succ, overfull.unit, pow_succ 2 (excess + 1)]
      ring
    · rw [overfull.ofNat_mul_pow, carried_carry, Nat.add_right_comm]

/-! ### Products and sums -/

/-- The sum of two magnitudes is rounded once. -/
theorem add_finite {otherMantissa otherScale : Nat} (canonical : Canonical mantissa scale)
    (canonicalOther : Canonical otherMantissa otherScale) :
    (finite false mantissa scale canonical).add
        (.finite false otherMantissa otherScale canonicalOther) =
      nearest false (mantissa * 2 ^ scale + otherMantissa * 2 ^ otherScale) 1 := by
  have sum : signed false (mantissa * Nat.pow 2 scale) +
        signed false (otherMantissa * Nat.pow 2 otherScale) =
      ((mantissa * 2 ^ scale + otherMantissa * 2 ^ otherScale : Nat) : Int) :=
    (Nat.cast_add _ _).symm
  rw [add, sum]
  generalize mantissa * 2 ^ scale + otherMantissa * 2 ^ otherScale = steps
  rcases Nat.eq_zero_or_pos steps with rfl | positive
  · rfl
  · rw [if_neg (by omega), ofSteps, decide_eq_false (by omega), Int.natAbs_natCast]

/-- A product of at most 53 bits times a power of two is exact. -/
theorem ofNat_mul_ofNat {value bits : Nat} (small : value < 2 ^ 53) (few : bits ≤ 52) :
    (ofNat value).mul (ofNat (2 ^ bits)) = ofNat (value * 2 ^ bits) := by
  obtain ⟨mantissa, scale, canonical, found, steps⟩ := exists_steps_shifted small (Nat.zero_le 52)
  obtain ⟨factor, shift, canonicalFactor, foundFactor, factorSteps⟩ :=
    exists_steps_shifted (show 1 < 2 ^ 53 by decide) few
  rw [pow_zero, mul_one] at found steps
  rw [one_mul] at foundFactor factorSteps
  rw [found, foundFactor]
  show nearest false (mantissa * 2 ^ scale * (factor * 2 ^ shift)) one = _
  rw [steps, factorSteps]
  have product := isNearest_nearest false (value * one * (2 ^ bits * one)) one_pos
  have same : ((value * one * (2 ^ bits * one) : Nat) : ℚ) / one =
      (value * 2 ^ bits : Nat) * one := by
    have nonzero := one_cast_pos.ne'
    push_cast
    field_simp
  rw [same] at product
  exact product.unique (isNearest_ofNat _)

/-- A sum of such a product and a natural number of at most 53 bits is rounded once. -/
theorem ofNat_add_ofNat {value bits addend : Nat} (small : value < 2 ^ 53) (few : bits ≤ 52)
    (addendSmall : addend < 2 ^ 53) :
    (ofNat (value * 2 ^ bits)).add (ofNat addend) = ofNat (value * 2 ^ bits + addend) := by
  obtain ⟨mantissa, scale, canonical, found, steps⟩ := exists_steps_shifted small few
  obtain ⟨other, otherScale, canonicalOther, foundOther, otherSteps⟩ :=
    exists_steps_shifted addendSmall (Nat.zero_le 52)
  rw [pow_zero, mul_one] at foundOther otherSteps
  rw [found, foundOther, add_finite, steps, otherSteps, ← add_mul]
  rfl

/-- A mantissa of 53 bits is not changed by a power of two. -/
theorem mul_ofNat_two_pow (low : 2 ^ 52 ≤ mantissa) (high : mantissa < 2 ^ 53) (scale : Nat)
    {bits : Nat} (few : bits ≤ 52) :
    (carried false mantissa scale).mul (ofNat (2 ^ bits)) =
      carried false mantissa (scale + bits) := by
  obtain ⟨factor, shift, canonicalFactor, found, steps⟩ :=
    exists_steps_shifted (show 1 < 2 ^ 53 by decide) few
  rw [one_mul] at found steps
  rw [found]
  rcases Nat.lt_or_ge 2045 scale with beyond | within
  · have positive : factor ≠ 0 := by
      rintro rfl
      rw [zero_mul] at steps
      exact (Nat.mul_pos (Nat.two_pow_pos bits) one_pos).ne steps
    rw [carried_of_large false mantissa beyond,
      carried_of_large false mantissa (beyond.trans_le (Nat.le_add_right scale bits)), mul,
      if_neg positive]
    rfl
  · have canonical : Canonical mantissa scale := ⟨high, within, Or.inr low⟩
    rw [carried_of_canonical false canonical]
    show nearest false (mantissa * 2 ^ scale * (factor * 2 ^ shift)) one = _
    rw [steps]
    refine nearest_eq_carried false one_pos ?_
    have value : ((mantissa * 2 ^ scale * (2 ^ bits * one) : Nat) : ℚ) / one =
        magnitude mantissa (scale + bits) := by
      have nonzero := one_cast_pos.ne'
      rw [magnitude, pow_add]
      push_cast
      field_simp
    rw [value]
    have inside := lt_halfway mantissa (scale + bits)
    exact rounded_of_near low high le_rfl inside.le fun half => absurd half inside.ne

/-- Less than half a unit is lost when it is added to a mantissa of 53 bits. -/
theorem add_ofNat_of_small (low : 2 ^ 52 ≤ mantissa) (high : mantissa < 2 ^ 53) {digit : Nat}
    (small : digit < 2 ^ 53) (near : (digit * one : ℚ) < 2 ^ scale / 2) :
    (carried false mantissa scale).add (ofNat digit) = carried false mantissa scale := by
  obtain ⟨addend, shift, canonicalAddend, found, steps⟩ :=
    exists_steps_shifted small (Nat.zero_le 52)
  rw [pow_zero, mul_one] at found steps
  rw [found]
  rcases Nat.lt_or_ge 2045 scale with beyond | within
  · rw [carried_of_large false mantissa beyond]
    rfl
  · have canonical : Canonical mantissa scale := ⟨high, within, Or.inr low⟩
    rw [carried_of_canonical false canonical, add_finite, steps,
      ← carried_of_canonical false canonical]
    refine nearest_eq_carried false Nat.one_pos ?_
    have value : ((mantissa * 2 ^ scale + digit * one : Nat) : ℚ) / (1 : Nat) =
        magnitude mantissa scale + digit * one := by
      rw [Nat.cast_one, div_one, magnitude]
      push_cast
      ring
    have positive : (0 : ℚ) ≤ digit * one := mul_nonneg (Nat.cast_nonneg _) (Nat.cast_nonneg _)
    rw [value]
    exact rounded_of_near low high (by linarith) (by linarith) fun half => absurd half (by linarith)

end EcmaCore.Number
