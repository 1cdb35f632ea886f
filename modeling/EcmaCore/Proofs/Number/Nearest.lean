/-
This file says which number is the nearest to a magnitude, apart from how it is found: no
other number is nearer, of two that are equally near it is the one with the even
mantissa, and from halfway beyond the largest number on it is infinite. There is exactly
one, and rounding finds it.

Magnitudes are counted in grid steps. The numbers of one scale are multiples of a power of
two, and all numbers of smaller scales lie below the least mantissa of a larger one. So a
value that has 53 bits at some scale is nearest to a multiple of the unit of that scale.
-/

import EcmaCore.Proofs.Number.Integers
import Mathlib.Algebra.Order.Field.Basic
import Mathlib.Algebra.Order.Field.Rat
import Mathlib.Algebra.Order.Ring.Abs
import Mathlib.Tactic.Linarith
import Mathlib.Tactic.Ring

namespace EcmaCore

/-! ### Pairs in order -/

section

variable {mantissa scale other otherScale : Nat}

theorem Canonical.lt (canonical : Canonical mantissa scale) : mantissa < 2 ^ 53 := canonical.1

theorem Canonical.le (canonical : Canonical mantissa scale) (normal : scale ≠ 0) :
    2 ^ 52 ≤ mantissa :=
  canonical.2.2.resolve_left normal

/-- A pair of a smaller scale lies below every pair of a larger one. -/
theorem Canonical.lt_of_scale_lt (canonical : Canonical mantissa scale)
    (smaller : scale < otherScale) :
    mantissa * 2 ^ scale < 2 ^ 52 * 2 ^ otherScale := by
  calc mantissa * 2 ^ scale
      < 2 ^ 53 * 2 ^ scale := Nat.mul_lt_mul_of_pos_right canonical.lt (Nat.two_pow_pos scale)
    _ = 2 ^ 52 * 2 ^ (scale + 1) := by rw [Nat.pow_succ 2 scale]; omega
    _ ≤ 2 ^ 52 * 2 ^ otherScale := Nat.mul_le_mul_left _ (Nat.pow_le_pow_right (by decide) smaller)

/-- A pair at a larger scale is a multiple of the unit of a smaller one. -/
theorem exists_multiple (mantissa : Nat) (smaller : scale ≤ otherScale) :
    ∃ multiple, mantissa * 2 ^ otherScale = multiple * 2 ^ scale := by
  refine ⟨mantissa * 2 ^ (otherScale - scale), ?_⟩
  rw [Nat.mul_assoc, ← Nat.pow_add, Nat.sub_add_cancel smaller]

/-- Nothing lies between a pair and the next multiple of its unit. -/
theorem Canonical.succ_mul_le (canonical : Canonical mantissa scale)
    (canonicalOther : Canonical other otherScale)
    (less : mantissa * 2 ^ scale < other * 2 ^ otherScale) :
    (mantissa + 1) * 2 ^ scale ≤ other * 2 ^ otherScale := by
  rcases Nat.lt_or_ge otherScale scale with smaller | larger
  · have low := canonicalOther.lt_of_scale_lt smaller
    have high : 2 ^ 52 * 2 ^ scale ≤ mantissa * 2 ^ scale :=
      Nat.mul_le_mul_right _ (canonical.le (Nat.ne_of_gt (Nat.zero_lt_of_lt smaller)))
    omega
  · obtain ⟨multiple, equal⟩ := exists_multiple other larger
    rw [equal] at less ⊢
    exact Nat.mul_le_mul_right _ (Nat.lt_of_mul_lt_mul_right less)

/-- Every magnitude has one canonical pair. -/
theorem Canonical.unique (canonical : Canonical mantissa scale)
    (canonicalOther : Canonical other otherScale)
    (equal : mantissa * 2 ^ scale = other * 2 ^ otherScale) :
    mantissa = other ∧ scale = otherScale := by
  rcases Nat.lt_trichotomy scale otherScale with smaller | rfl | larger
  · have low := canonical.lt_of_scale_lt smaller
    have high : 2 ^ 52 * 2 ^ otherScale ≤ other * 2 ^ otherScale :=
      Nat.mul_le_mul_right _ (canonicalOther.le (Nat.ne_of_gt (Nat.zero_lt_of_lt smaller)))
    omega
  · exact ⟨Nat.eq_of_mul_eq_mul_right (Nat.two_pow_pos scale) equal, rfl⟩
  · have low := canonicalOther.lt_of_scale_lt larger
    have high : 2 ^ 52 * 2 ^ scale ≤ mantissa * 2 ^ scale :=
      Nat.mul_le_mul_right _ (canonical.le (Nat.ne_of_gt (Nat.zero_lt_of_lt larger)))
    omega

end

namespace Number

/-! ### Which number is the nearest -/

/-- The magnitude of a pair, in grid steps. -/
def magnitude (mantissa scale : Nat) : ℚ := mantissa * 2 ^ scale

/-- Halfway from the largest magnitude of a pair to the next power of two. -/
def overflow : ℚ := (2 ^ 54 - 1) * 2 ^ 2044

/-- The number is the nearest to a magnitude, with a sign. Of two that are equally near it is the
one with the even mantissa, and from halfway beyond the largest on it is infinite. -/
inductive IsNearest (negative : Bool) (value : ℚ) : Number → Prop
  | finite {mantissa scale : Nat} (canonical : Canonical mantissa scale) (below : value < overflow)
      (nearest : ∀ other otherScale, Canonical other otherScale →
        |value - magnitude mantissa scale| ≤ |value - magnitude other otherScale|)
      (even : ∀ other otherScale, Canonical other otherScale →
        magnitude other otherScale ≠ magnitude mantissa scale →
        |value - magnitude other otherScale| = |value - magnitude mantissa scale| →
        mantissa % 2 = 0) :
      IsNearest negative value (.finite negative mantissa scale canonical)
  | infinite (above : overflow ≤ value) : IsNearest negative value (.infinity negative)

theorem magnitude_eq_cast (mantissa scale : Nat) :
    magnitude mantissa scale = ((mantissa * 2 ^ scale : Nat) : ℚ) := by
  rw [magnitude, Nat.cast_mul, Nat.cast_pow, Nat.cast_ofNat]

theorem magnitude_inj {mantissa scale other otherScale : Nat} :
    magnitude mantissa scale = magnitude other otherScale ↔
      mantissa * 2 ^ scale = other * 2 ^ otherScale := by
  rw [magnitude_eq_cast, magnitude_eq_cast, Nat.cast_inj]

theorem magnitude_lt {mantissa scale other otherScale : Nat} :
    magnitude mantissa scale < magnitude other otherScale ↔
      mantissa * 2 ^ scale < other * 2 ^ otherScale := by
  rw [magnitude_eq_cast, magnitude_eq_cast, Nat.cast_lt]

theorem magnitude_le {mantissa scale other otherScale : Nat} :
    magnitude mantissa scale ≤ magnitude other otherScale ↔
      mantissa * 2 ^ scale ≤ other * 2 ^ otherScale := by
  rw [magnitude_eq_cast, magnitude_eq_cast, Nat.cast_le]

/-! ### There is only one -/

/-- Between two pairs with even mantissas lies the successor of the lower one, so they are not both
the nearest. -/
theorem not_equally_near {value : ℚ} {mantissa scale other otherScale : Nat}
    (canonical : Canonical mantissa scale) (canonicalOther : Canonical other otherScale)
    (even : mantissa % 2 = 0) (evenOther : other % 2 = 0)
    (less : magnitude mantissa scale < magnitude other otherScale)
    (equal : |value - magnitude other otherScale| = |value - magnitude mantissa scale|)
    (nearest : ∀ another anotherScale, Canonical another anotherScale →
      |value - magnitude mantissa scale| ≤ |value - magnitude another anotherScale|) : False := by
  have small : mantissa + 1 < 2 ^ 53 := by
    have bound := canonical.lt
    omega
  have successor : Canonical (mantissa + 1) scale :=
    ⟨small, canonical.2.1, canonical.2.2.imp_right Nat.le_succ_of_le⟩
  have above : magnitude mantissa scale < magnitude (mantissa + 1) scale :=
    magnitude_lt.mpr (Nat.mul_lt_mul_of_pos_right (Nat.lt_succ_self _) (Nat.two_pow_pos _))
  have below : magnitude (mantissa + 1) scale < magnitude other otherScale := by
    refine lt_of_le_of_ne (magnitude_le.mpr (canonical.succ_mul_le canonicalOther
      (magnitude_lt.mp less))) fun same => ?_
    obtain ⟨rfl, _⟩ := successor.unique canonicalOther (magnitude_inj.mp same)
    omega
  have further := nearest _ _ successor
  -- The value is the midpoint of the two, and the successor is nearer to it than either.
  have middle : 2 * value = magnitude mantissa scale + magnitude other otherScale := by
    rcases abs_eq_abs.mp equal with same | opposite
    · exact absurd less (by linarith)
    · linarith
  have distance : |value - magnitude mantissa scale| = value - magnitude mantissa scale :=
    abs_of_pos (by linarith)
  rw [distance] at further
  rcases abs_cases (value - magnitude (mantissa + 1) scale) with ⟨same, _⟩ | ⟨same, _⟩
  · linarith
  · linarith

theorem IsNearest.unique {negative : Bool} {value : ℚ} {number other : Number}
    (first : number.IsNearest negative value) (second : other.IsNearest negative value) :
    number = other := by
  cases first with
  | infinite above =>
    cases second with
    | infinite _ => rfl
    | finite _ below _ _ => exact absurd below (not_lt_of_ge above)
  | @finite mantissa scale canonical below nearest even =>
    cases second with
    | infinite above => exact absurd below (not_lt_of_ge above)
    | @finite other otherScale canonicalOther _ nearestOther evenOther =>
      have equal := le_antisymm (nearestOther _ _ canonical) (nearest _ _ canonicalOther)
      rcases lt_trichotomy (magnitude mantissa scale) (magnitude other otherScale)
        with less | same | more
      · exact (not_equally_near canonical canonicalOther
          (even _ _ canonicalOther less.ne' equal) (evenOther _ _ canonical less.ne equal.symm)
          less equal nearest).elim
      · obtain ⟨rfl, rfl⟩ := canonical.unique canonicalOther (magnitude_inj.mp same)
        rfl
      · exact (not_equally_near canonicalOther canonical
          (evenOther _ _ canonical more.ne' equal.symm) (even _ _ canonicalOther more.ne equal)
          more equal.symm nearestOther).elim

/-! ### Rounding finds it -/

/-- A quotient lies within half a unit of the integer that it is rounded to, and at the very end of
that range only if the integer is even. -/
theorem nearestEven_close (numerator : Nat) {denominator : Nat} (positive : 0 < denominator) :
    2 * numerator ≤ (2 * nearestEven numerator denominator + 1) * denominator ∧
      2 * nearestEven numerator denominator * denominator ≤ 2 * numerator + denominator ∧
      (2 * numerator = (2 * nearestEven numerator denominator + 1) * denominator ∨
        2 * nearestEven numerator denominator * denominator = 2 * numerator + denominator →
        nearestEven numerator denominator % 2 = 0) := by
  have split := Nat.div_add_mod numerator denominator
  have small := Nat.mod_lt numerator positive
  unfold nearestEven
  generalize numerator / denominator = quotient at split ⊢
  generalize numerator % denominator = left at split small ⊢
  have once : (2 * quotient + 1) * denominator =
      2 * (denominator * quotient) + denominator := by ring
  have twice : 2 * quotient * denominator = 2 * (denominator * quotient) := by ring
  have onceMore : (2 * (quotient + 1) + 1) * denominator =
      2 * (denominator * quotient) + 3 * denominator := by ring
  have twiceMore : 2 * (quotient + 1) * denominator =
      2 * (denominator * quotient) + 2 * denominator := by ring
  dsimp only
  split_ifs with down up
  · rw [once, twice]
    omega
  · rw [onceMore, twiceMore]
    omega
  · rcases Nat.mod_two_eq_zero_or_one quotient with even | odd
    · simp only [even, Nat.add_zero, once, twice]
      exact ⟨by omega, by omega, fun _ => trivial⟩
    · rw [odd, onceMore, twiceMore]
      omega

/-- A mantissa that a value was rounded to, at the scale at which the value has 53 bits. -/
structure Rounded (value : ℚ) (mantissa scale : Nat) : Prop where
  below : value < 2 ^ 53 * 2 ^ scale
  fits : scale = 0 ∨ 2 ^ 52 * 2 ^ scale ≤ value
  close : |value - magnitude mantissa scale| ≤ 2 ^ scale / 2
  even : |value - magnitude mantissa scale| = 2 ^ scale / 2 → mantissa % 2 = 0

variable {value : ℚ} {mantissa scale : Nat}

theorem unit_pos (scale : Nat) : (0 : ℚ) < 2 ^ scale := pow_pos two_pos scale

/-- No other multiple of the unit is nearer, and one that is as near is half a unit away. -/
theorem Rounded.multiple (rounded : Rounded value mantissa scale) {other : Nat}
    (different : other ≠ mantissa) :
    |value - magnitude mantissa scale| ≤ |value - magnitude other scale| ∧
      (|value - magnitude other scale| = |value - magnitude mantissa scale| →
        |value - magnitude mantissa scale| = 2 ^ scale / 2) := by
  have apart : (2 : ℚ) ^ scale ≤ |magnitude other scale - magnitude mantissa scale| := by
    have whole : (1 : ℚ) ≤ |(other : ℚ) - mantissa| := by
      have distinct : (other : ℤ) - mantissa ≠ 0 := by omega
      have least := Int.one_le_abs distinct
      exact_mod_cast least
    rw [magnitude, magnitude, ← sub_mul, abs_mul, abs_of_pos (unit_pos scale)]
    exact le_mul_of_one_le_left (unit_pos scale).le whole
  have detour : |magnitude other scale - magnitude mantissa scale| ≤
      |value - magnitude mantissa scale| + |value - magnitude other scale| := by
    have sum := abs_sub_le (magnitude other scale) value (magnitude mantissa scale)
    rw [abs_sub_comm (magnitude other scale) value] at sum
    linarith
  have close := rounded.close
  constructor
  · linarith
  · intro equal
    linarith

/-- A pair of a smaller scale is further away. -/
theorem Rounded.smaller (rounded : Rounded value mantissa scale) {other otherScale : Nat}
    (canonical : Canonical other otherScale) (smaller : otherScale < scale) :
    |value - magnitude mantissa scale| < |value - magnitude other otherScale| := by
  have low : magnitude other otherScale < 2 ^ 52 * 2 ^ scale := by
    have less := canonical.lt_of_scale_lt smaller
    rw [magnitude_eq_cast]
    exact_mod_cast less
  have high := rounded.fits.resolve_left (Nat.ne_of_gt (Nat.zero_lt_of_lt smaller))
  have least : |value - magnitude mantissa scale| ≤ |value - magnitude (2 ^ 52) scale| := by
    by_cases same : 2 ^ 52 = mantissa
    · rw [same]
    · exact (rounded.multiple same).1
  have distance : |value - magnitude (2 ^ 52) scale| = value - 2 ^ 52 * 2 ^ scale := by
    rw [magnitude, Nat.cast_pow, Nat.cast_ofNat]
    exact abs_of_nonneg (by linarith)
  have distanceOther : |value - magnitude other otherScale| = value - magnitude other otherScale :=
    abs_of_pos (by linarith)
  rw [distance] at least
  rw [distanceOther]
  linarith

theorem Rounded.nearest (rounded : Rounded value mantissa scale) {other otherScale : Nat}
    (canonical : Canonical other otherScale) :
    |value - magnitude mantissa scale| ≤ |value - magnitude other otherScale| ∧
      (magnitude other otherScale ≠ magnitude mantissa scale →
        |value - magnitude other otherScale| = |value - magnitude mantissa scale| →
        mantissa % 2 = 0) := by
  rcases Nat.lt_or_ge otherScale scale with smaller | larger
  · have further := rounded.smaller canonical smaller
    exact ⟨further.le, fun _ equal => absurd equal further.ne'⟩
  · obtain ⟨multiple, equal⟩ := exists_multiple other larger
    rw [magnitude_inj.mpr equal]
    by_cases same : multiple = mantissa
    · rw [same]
      exact ⟨le_rfl, fun different => absurd rfl different⟩
    · obtain ⟨near, half⟩ := rounded.multiple same
      exact ⟨near, fun _ equal => rounded.even (half equal)⟩

/-- A mantissa is at most one unit too long. -/
theorem Rounded.le (rounded : Rounded value mantissa scale) : mantissa ≤ 2 ^ 53 := by
  have close := abs_le.mp rounded.close
  have below := rounded.below
  have less : magnitude mantissa scale < magnitude (2 ^ 53 + 1) scale := by
    have positive := unit_pos scale
    have next : magnitude (2 ^ 53 + 1) scale = 2 ^ 53 * 2 ^ scale + 2 ^ scale := by
      rw [magnitude, Nat.cast_add, Nat.cast_pow, Nat.cast_ofNat, Nat.cast_one, add_mul, one_mul]
    rw [next]
    linarith [close.1]
  exact Nat.le_of_lt_succ (Nat.lt_of_mul_lt_mul_right (magnitude_lt.mp less))

theorem Rounded.normal (rounded : Rounded value mantissa scale) :
    scale = 0 ∨ 2 ^ 52 ≤ mantissa := by
  refine rounded.fits.imp_right fun high => ?_
  have close := abs_le.mp rounded.close
  have less : magnitude (2 ^ 52) scale < magnitude (mantissa + 1) scale := by
    have positive := unit_pos scale
    have here : magnitude (2 ^ 52) scale = 2 ^ 52 * 2 ^ scale := by
      rw [magnitude, Nat.cast_pow, Nat.cast_ofNat]
    have next : magnitude (mantissa + 1) scale = magnitude mantissa scale + 2 ^ scale := by
      rw [magnitude, magnitude, Nat.cast_add, Nat.cast_one, add_mul, one_mul]
    rw [here, next]
    linarith [close.2]
  exact Nat.le_of_lt_succ (Nat.lt_of_mul_lt_mul_right (magnitude_lt.mp less))

/-- Half a unit of the largest scale below the next power of two. -/
theorem overflow_eq : overflow = 2 ^ 53 * 2 ^ 2045 - 2 ^ 2045 / 2 := by
  rw [overflow, pow_succ (2 : ℚ) 2044]
  generalize (2 : ℚ) ^ 2044 = unit
  ring

theorem Rounded.below_overflow_of_lt (rounded : Rounded value mantissa scale)
    (room : scale < 2045) : value < overflow := by
  have grows : (2 : ℚ) ^ scale ≤ 2 ^ 2044 :=
    pow_le_pow_right₀ one_le_two (Nat.le_of_lt_succ room)
  have positive := unit_pos 2044
  have below := rounded.below
  rw [overflow]
  generalize (2 : ℚ) ^ 2044 = unit at grows positive ⊢
  linarith

theorem Rounded.below_overflow (rounded : Rounded value mantissa 2045) (fits : mantissa < 2 ^ 53) :
    value < overflow := by
  -- The end of the range is half a unit above the largest mantissa, which is odd.
  have even := rounded.even
  have close := (abs_le.mp rounded.close).2
  have bound : (mantissa : ℚ) + 1 ≤ 2 ^ 53 := by exact_mod_cast fits
  rw [overflow_eq]
  rw [magnitude] at even close
  have positive := unit_pos 2045
  generalize (2 : ℚ) ^ 2045 = unit at positive even close ⊢
  have least := mul_le_mul_of_nonneg_right bound positive.le
  rcases lt_or_eq_of_le close with within | half
  · linarith
  · have two : mantissa % 2 = 0 := even (by rw [half, abs_of_pos (half_pos positive)])
    have boundTwo : (mantissa : ℚ) + 2 ≤ 2 ^ 53 := by
      have fitsTwo : mantissa + 2 ≤ 2 ^ 53 := by omega
      exact_mod_cast fitsTwo
    have leastTwo := mul_le_mul_of_nonneg_right boundTwo positive.le
    linarith

theorem Rounded.overflow_le (rounded : Rounded value mantissa scale) (large : 2045 ≤ scale)
    (carries : scale = 2045 → mantissa = 2 ^ 53) : overflow ≤ value := by
  have positive := unit_pos 2045
  rw [overflow_eq]
  rcases Nat.lt_or_eq_of_le large with larger | rfl
  · have grows : (2 : ℚ) ^ 2046 ≤ 2 ^ scale := pow_le_pow_right₀ one_le_two larger
    have fits := rounded.fits.resolve_left (Nat.ne_of_gt (Nat.zero_lt_of_lt larger))
    rw [pow_succ (2 : ℚ) 2045] at grows
    generalize (2 : ℚ) ^ 2045 = unit at positive grows ⊢
    linarith
  · have close := (abs_le.mp rounded.close).1
    rw [magnitude, carries rfl, Nat.cast_pow, Nat.cast_ofNat] at close
    generalize (2 : ℚ) ^ 2045 = unit at positive close ⊢
    linarith

theorem Rounded.isNearest_carried (rounded : Rounded value mantissa scale) (negative : Bool) :
    (carried negative mantissa scale).IsNearest negative value := by
  have bound := rounded.le
  unfold carried
  split_ifs with canonical room
  · refine .finite canonical ?_ (fun _ _ other => (rounded.nearest other).1)
      fun _ _ other => (rounded.nearest other).2
    rcases Nat.lt_or_eq_of_le canonical.2.1 with room | rfl
    · exact rounded.below_overflow_of_lt room
    · exact rounded.below_overflow canonical.1
  · -- A carried mantissa is the least one of the next scale, with the same magnitude.
    have full : mantissa = 2 ^ 53 := by
      refine Nat.le_antisymm bound (Nat.le_of_not_lt fun small => canonical ?_)
      exact ⟨small, room.le, rounded.normal⟩
    have same : magnitude (Nat.pow 2 52) (scale + 1) = magnitude mantissa scale := by
      rw [full, magnitude_inj, pow_succ 2 scale]
      show 2 ^ 52 * _ = _
      omega
    refine .finite _ (rounded.below_overflow_of_lt room) (fun _ _ other => ?_) fun _ _ _ _ _ => rfl
    rw [same]
    exact (rounded.nearest other).1
  · refine .infinite (rounded.overflow_le (Nat.le_of_not_lt room) ?_)
    rintro rfl
    refine Nat.le_antisymm bound (Nat.le_of_not_lt fun small => canonical ?_)
    exact ⟨small, le_rfl, rounded.normal⟩

theorem rounded_nearestEven {numerator denominator scale : Nat} (positive : 0 < denominator)
    (below : numerator < 2 ^ 53 * 2 ^ scale * denominator)
    (fits : scale = 0 ∨ 2 ^ 52 * 2 ^ scale * denominator ≤ numerator) :
    Rounded (numerator / denominator) (nearestEven numerator (denominator * 2 ^ scale)) scale := by
  obtain ⟨low, high, even⟩ :=
    nearestEven_close numerator (Nat.mul_pos positive (Nat.two_pow_pos scale))
  generalize nearestEven numerator (denominator * 2 ^ scale) = mantissa at low high even ⊢
  have divisor : (0 : ℚ) < denominator := Nat.cast_pos.mpr positive
  generalize quotient : (numerator / denominator : ℚ) = value
  have whole : value * denominator = numerator := by rw [← quotient, div_mul_cancel₀ _ divisor.ne']
  have lowValue : 2 * value ≤ (2 * mantissa + 1) * 2 ^ scale := by
    have cast : 2 * (numerator : ℚ) ≤ (2 * mantissa + 1) * (denominator * 2 ^ scale) := by
      exact_mod_cast low
    rw [← whole] at cast
    refine le_of_mul_le_mul_right ?_ divisor
    linarith
  have highValue : 2 * mantissa * 2 ^ scale ≤ 2 * value + 2 ^ scale := by
    have cast : 2 * (mantissa : ℚ) * (denominator * 2 ^ scale) ≤
        2 * numerator + denominator * 2 ^ scale := by
      exact_mod_cast high
    rw [← whole] at cast
    refine le_of_mul_le_mul_right ?_ divisor
    linarith
  refine ⟨?_, fits.imp_right fun normal => ?_, ?_, fun half => even ?_⟩
  · have cast : (numerator : ℚ) < 2 ^ 53 * 2 ^ scale * denominator := by exact_mod_cast below
    rw [← whole] at cast
    exact lt_of_mul_lt_mul_right cast divisor.le
  · have cast : 2 ^ 52 * 2 ^ scale * (denominator : ℚ) ≤ numerator := by exact_mod_cast normal
    rw [← whole] at cast
    exact le_of_mul_le_mul_right cast divisor
  · rw [magnitude, abs_le]
    constructor <;> linarith
  · rw [magnitude] at half
    rcases (abs_eq (half_pos (unit_pos scale)).le).mp half with above | under
    · have cast : 2 * (numerator : ℚ) = (2 * mantissa + 1) * (denominator * 2 ^ scale) := by
        rw [← whole, sub_eq_iff_eq_add.mp above]
        ring
      exact Or.inl (by exact_mod_cast cast)
    · have cast : 2 * (mantissa : ℚ) * (denominator * 2 ^ scale) =
          2 * numerator + denominator * 2 ^ scale := by
        rw [← whole, sub_eq_iff_eq_add.mp under]
        ring
      exact Or.inr (by exact_mod_cast cast)

/-- Rounding finds the nearest number. -/
theorem isNearest_nearest (negative : Bool) (numerator : Nat) {denominator : Nat}
    (positive : 0 < denominator) :
    (nearest negative numerator denominator).IsNearest negative (numerator / denominator) := by
  refine Rounded.isNearest_carried (rounded_nearestEven positive ?_ ?_) negative
  · have bits : (numerator / denominator).log2 + 1 ≤
        53 + ((numerator / denominator).log2 - 52) := by omega
    rw [← Nat.pow_add, ← Nat.div_lt_iff_lt_mul positive]
    exact Nat.lt_of_lt_of_le Nat.lt_log2_self (Nat.pow_le_pow_right (by decide) bits)
  · rcases Nat.lt_or_ge 52 (numerator / denominator).log2 with long | short
    · have nonzero : numerator / denominator ≠ 0 := by
        intro zero
        rw [zero] at long
        exact absurd long (by decide)
      have bits : 52 + ((numerator / denominator).log2 - 52) = (numerator / denominator).log2 := by
        omega
      rw [← Nat.pow_add, bits, ← Nat.le_div_iff_mul_le positive]
      exact Or.inr (Nat.log2_self_le nonzero)
    · exact Or.inl (Nat.sub_eq_zero_of_le short)

/-- What is at most half a step is rounded to zero. -/
theorem isNearest_zero (negative : Bool) (positive : 0 ≤ value) (small : value ≤ 1 / 2) :
    (nearest negative 0 1).IsNearest negative value := by
  have zero : |value - magnitude 0 0| = value := by
    rw [magnitude, Nat.cast_zero, zero_mul, sub_zero, abs_of_nonneg positive]
  have rounded : Rounded value 0 0 := by
    refine ⟨?_, Or.inl rfl, ?_, fun _ => rfl⟩
    · norm_num
      linarith
    · rw [zero, pow_zero]
      exact small
  exact rounded.isNearest_carried negative

end Number

end EcmaCore
