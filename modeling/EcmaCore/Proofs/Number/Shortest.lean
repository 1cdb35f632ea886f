/-
This file says where the search for the shortest decimal of a number ends. Whether a grid has
a decimal that reads back does not depend on the rule for ties, so both rules find a decimal
on the same grid, and it is the same one unless two are equally near.

An integer below `2 ^ 53` is found at the latest on the grid of integers, and on that grid
and on all coarser ones nothing else reads back as it, because the integers next to it are
numbers themselves. So its shortest decimal is the integer and not only near to it.
-/

import EcmaCore.Proofs.Number.Lengths
import EcmaCore.Proofs.Number.Spelling

namespace EcmaCore

open Number

namespace Shortest

variable {tie : Tie} {magnitude : Number} {steps grids : Nat} {exponent target : Int}
  {decimal : Decimal}

/-! ### Grids -/

theorem exponent_onGrid? (hit : onGrid? tie magnitude steps exponent = some decimal) :
    decimal.exponent = exponent := by
  unfold onGrid? at hit
  dsimp only at hit
  split at hit <;> cases hit <;> rfl

/-- A grid has a hit if one of the neighbours reads back. -/
theorem isSome_onGrid? :
    (onGrid? tie magnitude steps exponent).isSome =
      (readsBack magnitude (below steps exponent).1 exponent ||
        readsBack magnitude ((below steps exponent).1 + 1) exponent) := by
  unfold onGrid?
  dsimp only
  split
  · rename_i low high
    rw [low, high]
    rfl
  · rename_i low _
    rw [low]
    rfl
  · rename_i _ high
    rw [high, Bool.or_true]
    rfl
  · rename_i low _
    rw [low]
    rfl

/-- The search ends on the same grid for both rules for ties. -/
theorem exponent_search (first second : Tie) (magnitude : Number) (steps grids : Nat)
    (exponent : Int) :
    (search first magnitude steps grids exponent).exponent =
      (search second magnitude steps grids exponent).exponent := by
  induction grids generalizing exponent with
  | zero => rfl
  | succ grids inductionHypothesis =>
    have same : (onGrid? first magnitude steps exponent).isSome =
        (onGrid? second magnitude steps exponent).isSome :=
      isSome_onGrid?.trans isSome_onGrid?.symm
    rw [search, search]
    cases hit : onGrid? first magnitude steps exponent with
    | none =>
      cases hitToo : onGrid? second magnitude steps exponent with
      | none => exact inductionHypothesis (exponent - 1)
      | some decimal =>
        rw [hit, hitToo] at same
        cases same
    | some decimal =>
      cases hitToo : onGrid? second magnitude steps exponent with
      | none =>
        rw [hit, hitToo] at same
        cases same
      | some other => exact (exponent_onGrid? hit).trans (exponent_onGrid? hitToo).symm

/-- The search does not go past a grid with a hit. -/
theorem le_exponent_search (hit : (onGrid? tie magnitude steps target).isSome = true)
    (within : target ≤ exponent) (reach : exponent - target < grids) :
    target ≤ (search tie magnitude steps grids exponent).exponent := by
  induction grids generalizing exponent with
  | zero => omega
  | succ grids inductionHypothesis =>
    rw [search]
    cases here : onGrid? tie magnitude steps exponent with
    | some decimal => exact within.trans (exponent_onGrid? here).ge
    | none =>
      have apart : target ≠ exponent := by
        rintro rfl
        rw [here] at hit
        cases hit
      exact inductionHypothesis (by omega) (by omega)

/-! ### The decimal of a number -/

variable {mantissa scale : Nat}

theorem exponent_found (first second : Tie) (canonical : Canonical mantissa scale) :
    (found first canonical).exponent = (found second canonical).exponent :=
  exponent_search first second _ _ _ _

/-- On one grid, decimals that are not below zero differ in their coefficients only. -/
theorem found_eq_of_coefficient_eq {first second : Tie} (canonical : Canonical mantissa scale)
    (same : (found first canonical).coefficient = (found second canonical).coefficient) :
    found first canonical = found second canonical := by
  have grid := exponent_found first second canonical
  have unsigned := (isNearest_of_toNumber (toNumber_found first canonical)).1
  have unsignedToo := (isNearest_of_toNumber (toNumber_found second canonical)).1
  generalize found first canonical = decimal at same grid unsigned ⊢
  generalize found second canonical = other at same grid unsignedToo ⊢
  obtain ⟨sign, coefficient, exponent⟩ := decimal
  obtain ⟨otherSign, otherCoefficient, otherExponent⟩ := other
  cases unsigned
  cases unsignedToo
  cases grid
  cases same
  rfl

/-! ### Integers -/

variable {canonical : Canonical mantissa scale} {value : Nat}

/-- The magnitude of an integer, in grid steps. -/
theorem magnitude_of_steps (steps : mantissa * 2 ^ scale = value * one) :
    Number.magnitude mantissa scale = value * one := by
  rw [magnitude_eq_cast, steps, Nat.cast_mul]

/-- On a grid of integers nothing but the integer itself reads back as it. -/
theorem eq_of_toNumber {coefficient power : Nat} (steps : mantissa * 2 ^ scale = value * one)
    (small : value < 2 ^ 53)
    (read : Decimal.toNumber ⟨false, coefficient, (power : Int)⟩ =
      .finite false mantissa scale canonical) :
    coefficient * 10 ^ power = value := by
  have nearest := (isNearest_of_toNumber read).2
  have whole : (coefficient : ℚ) * 10 ^ (power : Int) * one =
      ((coefficient * 10 ^ power : Nat) : ℚ) * one := by
    rw [zpow_natCast]
    push_cast
    rfl
  dsimp only at nearest
  rw [whole] at nearest
  clear whole read
  generalize coefficient * 10 ^ power = integer at nearest ⊢
  rcases Nat.lt_or_ge integer (2 ^ 53) with below | above
  · -- The integer on the grid is a number, so it reads back as itself.
    have itself := isNearest_nearest false (integer * one) Nat.one_pos
    rw [Nat.cast_one, div_one, Nat.cast_mul] at itself
    have same : Number.finite false mantissa scale canonical = ofNat integer :=
      nearest.unique itself
    have whole :
        (Number.finite false mantissa scale canonical).integer? = some (integer : Int) := by
      rw [same, integer?_ofNat below]
    exact Nat.eq_of_mul_eq_mul_right Number.one_pos
      ((steps_of_integer? whole).1.symm.trans steps)
  · -- Otherwise the end of the range would be nearer to it.
    obtain ⟨bits, exact⟩ : ∃ bits, 1074 = bits := ⟨_, rfl⟩
    have edge : Canonical (2 ^ 52) (bits + 1) := ⟨by decide, by omega, Or.inr le_rfl⟩
    have edgeMagnitude : Number.magnitude (2 ^ 52) (bits + 1) = 2 ^ 53 * one := by
      rw [Number.magnitude, one_eq_two_pow exact, pow_succ (2 : ℚ) bits]
      push_cast
      ring
    cases nearest with
    | finite _ _ near _ =>
      have closer := near _ _ edge
      have unit : (0 : ℚ) < one := Nat.cast_pos.mpr Number.one_pos
      have low : (value : ℚ) < 2 ^ 53 := by exact_mod_cast small
      have high : (2 : ℚ) ^ 53 ≤ integer := by exact_mod_cast above
      rw [magnitude_of_steps steps, edgeMagnitude, ← sub_mul, ← sub_mul, abs_mul, abs_mul,
        abs_of_nonneg (by linarith), abs_of_nonneg (sub_nonneg.mpr high)] at closer
      have order := le_of_mul_le_mul_right closer (abs_pos.mpr unit.ne')
      linarith

theorem below_zero (steps : Nat) : (below steps 0).1 = steps / one := by
  unfold below
  generalize one = unit
  exact congrArg (steps / ·) (Nat.mul_one unit)

/-- The grid of integers has a hit for an integer. -/
theorem isSome_onGrid?_integer (tie : Tie) (canonical : Canonical mantissa scale)
    (steps : mantissa * 2 ^ scale = value * one) :
    (onGrid? tie (.finite false mantissa scale canonical) (mantissa * Nat.pow 2 scale) 0).isSome =
      true := by
  have stepsToo : mantissa * Nat.pow 2 scale = value * one := steps
  have low : (below (mantissa * Nat.pow 2 scale) 0).1 = value := by
    rw [below_zero, stepsToo, Nat.mul_div_cancel _ Number.one_pos]
  have read : Decimal.toNumber ⟨false, value, 0⟩ = .finite false mantissa scale canonical := by
    have nearest := Decimal.isNearest_toNumber ⟨false, value, 0⟩
    dsimp only at nearest
    rw [zpow_zero, mul_one, ← magnitude_of_steps steps] at nearest
    exact nearest.unique (isNearest_self false canonical)
  rw [isSome_onGrid?, low, readsBack, read, beq_self_eq_true, Bool.true_or]

/-- The search for an integer starts on a grid of integers. -/
theorem ceilingExponent_integer (positive : 0 < value) (small : value < 2 ^ 53) :
    0 ≤ ceilingExponent (value * one) ∧ ceilingExponent (value * one) < 1400 := by
  obtain ⟨room, exact⟩ : ∃ room, 1022 = room := ⟨_, rfl⟩
  have bits : value.log2 < 53 := (Nat.log2_lt (Nat.ne_of_gt positive)).mpr small
  rw [one_eq_pow exact, ceilingExponent, log2_mul_pow positive]
  omega

/-- The shortest decimal of an integer is the integer. -/
theorem exists_found_integer (tie : Tie) (canonical : Canonical mantissa scale)
    (steps : mantissa * 2 ^ scale = value * one) (positive : 0 < value) (small : value < 2 ^ 53) :
    ∃ coefficient power : Nat, found tie canonical = ⟨false, coefficient, power⟩ ∧
      coefficient * 10 ^ power = value := by
  have read := toNumber_found tie canonical
  obtain ⟨start, reach⟩ := ceilingExponent_integer positive small
  have hit := isSome_onGrid?_integer tie canonical steps
  have whole : 0 ≤ (found tie canonical).exponent := by
    have stepsToo : mantissa * Nat.pow 2 scale = value * one := steps
    rw [stepsToo] at hit
    rw [found, stepsToo]
    exact le_exponent_search hit start (by rwa [sub_zero])
  have unsigned := (isNearest_of_toNumber read).1
  generalize found tie canonical = decimal at read whole unsigned ⊢
  obtain ⟨sign, coefficient, exponent⟩ := decimal
  obtain ⟨power, rfl⟩ := Int.eq_ofNat_of_zero_le whole
  cases unsigned
  exact ⟨coefficient, power, rfl, eq_of_toNumber steps small read⟩

end Shortest

end EcmaCore
