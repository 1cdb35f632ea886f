/-
This file says which number the digits of a literal in base 16, 8 or 2 become, when they are
collected from the left with a rounding at every digit. The base is a power of two, so a
digit counts in full while the value before it is below `2 ^ 53`, and from there on only its
place counts: what is rounded in the end are the digits up to the first that does not fit,
with zeros for those after it.

That is the number nearest to what all digits denote, except in one case. If the digits up
to some place are exactly halfway between two numbers, the one with the even mantissa is
taken; if that is the lower one, and a digit that is no zero follows, the upper one would have
been nearer.
-/

import EcmaCore.Proofs.Number.Scaling
import Mathlib.Data.Nat.Digits.Lemmas

namespace EcmaCore

open Number

/-! ### What digits denote -/

/-- The natural number that digits denote in a base, the first of them the most significant. -/
def radixValue (base : Nat) (digits : List Nat) : Nat := Nat.ofDigits base digits.reverse

section

variable {base : Nat}

theorem radixValue_append (first second : List Nat) :
    radixValue base (first ++ second) =
      radixValue base first * base ^ second.length + radixValue base second := by
  rw [radixValue, List.reverse_append, Nat.ofDigits_append, List.length_reverse, radixValue,
    radixValue]
  ring

theorem radixValue_concat (digits : List Nat) (digit : Nat) :
    radixValue base (digits ++ [digit]) = radixValue base digits * base + digit := by
  rw [radixValue_append, List.length_singleton, pow_one]
  simp [radixValue]

theorem radixValue_lt (large : 1 < base) {digits : List Nat}
    (small : ∀ digit ∈ digits, digit < base) : radixValue base digits < base ^ digits.length := by
  rw [radixValue, ← List.length_reverse]
  exact Nat.ofDigits_lt_base_pow_length large fun digit member =>
    small digit (List.mem_reverse.mp member)

/-! ### What is kept of them -/

/-- One digit more. From `2 ^ 53` on only its place counts. -/
def keepDigit (base value digit : Nat) : Nat :=
  if value < 2 ^ 53 then value * base + digit else value * base

/-- The natural number that the digits denote as far as they are kept. -/
def keptValue (base : Nat) (digits : List Nat) : Nat := digits.foldl (keepDigit base) 0

theorem keptValue_concat (digits : List Nat) (digit : Nat) :
    keptValue base (digits ++ [digit]) = keepDigit base (keptValue base digits) digit := by
  rw [keptValue, List.foldl_append]
  rfl

/-- Nothing is kept of the digits after a value from `2 ^ 53` on but their places. -/
theorem keptValue_append (positive : 0 < base) {first : List Nat} (second : List Nat)
    (large : 2 ^ 53 ≤ keptValue base first) :
    keptValue base (first ++ second) = keptValue base first * base ^ second.length := by
  induction second using List.reverseRecOn with
  | nil => rw [List.append_nil, List.length_nil, pow_zero, mul_one]
  | append_singleton second digit inductionHypothesis =>
    have grows : 2 ^ 53 ≤ keptValue base first * base ^ second.length :=
      large.trans (Nat.le_mul_of_pos_right _ (Nat.pow_pos positive))
    rw [← List.append_assoc, keptValue_concat, inductionHypothesis, keepDigit,
      if_neg (Nat.not_lt.mpr grows), List.length_append, List.length_singleton, pow_succ, mul_assoc]

/-- The digits up to some place are kept in full. If any follow, the value there is `2 ^ 53` or
more. -/
theorem exists_kept (base : Nat) (digits : List Nat) :
    ∃ head tail, digits = head ++ tail ∧ keptValue base head = radixValue base head ∧
      (tail = [] ∨ 2 ^ 53 ≤ radixValue base head) := by
  induction digits using List.reverseRecOn with
  | nil => exact ⟨[], [], rfl, rfl, Or.inl rfl⟩
  | append_singleton digits digit inductionHypothesis =>
    obtain ⟨head, tail, rfl, kept, ends⟩ := inductionHypothesis
    by_cases large : 2 ^ 53 ≤ radixValue base head
    · exact ⟨head, tail ++ [digit], List.append_assoc _ _ _, kept, Or.inr large⟩
    · obtain rfl := ends.resolve_right large
      refine ⟨head ++ [digit], [], by simp, ?_, Or.inl rfl⟩
      rw [keptValue_concat, kept, keepDigit, if_pos (Nat.lt_of_not_le large), radixValue_concat]

end

/-! ### Collecting digits -/

namespace Number

variable {bits : Nat}

/-- One digit is collected. -/
theorem mul_add_ofNat (few : bits ≤ 52) (value : Nat) {digit : Nat} (small : digit < 2 ^ bits) :
    ((ofNat value).mul (ofNat (2 ^ bits))).add (ofNat digit) =
      ofNat (keepDigit (2 ^ bits) value digit) := by
  have digitSmall : digit < 2 ^ 53 :=
    small.trans (Nat.pow_lt_pow_right (by decide) (Nat.lt_succ_of_le few))
  rw [keepDigit]
  split
  · rename_i valueSmall
    rw [ofNat_mul_ofNat valueSmall few, ofNat_add_ofNat valueSmall few digitSmall]
  · rename_i valueLarge
    obtain ⟨mantissa, scale, excess, low, high, unit, found⟩ :=
      exists_ofNat_mul_pow (Nat.le_of_not_lt valueLarge)
    have here := found 0
    rw [pow_zero, mul_one, add_zero] at here
    rw [here, mul_ofNat_two_pow low high scale few, found]
    refine add_ofNat_of_small low high digitSmall ?_
    have half : (2 : ℚ) ^ (scale + bits) / 2 = 2 ^ excess * (2 ^ bits * one) := by
      rw [pow_add, unit, pow_succ]
      ring
    have positive := one_cast_pos
    have below : (digit : ℚ) < 2 ^ bits := by exact_mod_cast small
    calc (digit * one : ℚ) < 2 ^ bits * one := mul_lt_mul_of_pos_right below positive
      _ ≤ 2 ^ excess * (2 ^ bits * one) :=
        le_mul_of_one_le_left (mul_pos (unit_pos bits) positive).le (one_le_pow₀ one_le_two)
      _ = 2 ^ (scale + bits) / 2 := half.symm

/-- The digits that are kept are rounded once. -/
theorem ofRadixDigits_eq (few : bits ≤ 52) {digits : List Nat}
    (small : ∀ digit ∈ digits, digit < 2 ^ bits) :
    ofRadixDigits (2 ^ bits) digits = ofNat (keptValue (2 ^ bits) digits) := by
  induction digits using List.reverseRecOn with
  | nil =>
    rw [keptValue, List.foldl_nil, ofNat_zero, ofRadixDigits, List.foldl_nil]
  | append_singleton digits digit inductionHypothesis =>
    have before := inductionHypothesis fun other member =>
      small other (List.mem_append_left [digit] member)
    rw [ofRadixDigits] at before ⊢
    rw [List.foldl_append, before, keptValue_concat, ← mul_add_ofNat few _
      (small digit (List.mem_append_right digits (List.mem_singleton_self digit))),
      List.foldl_cons, List.foldl_nil]

/-! ### Halfway -/

/-- The natural number is halfway between two neighbours of 53 bits, of which the lower one has the
even mantissa. -/
def HalfwayAboveEven (value : Nat) : Prop :=
  ∃ mantissa excess, mantissa % 2 = 0 ∧ 2 ^ 52 ≤ mantissa ∧ mantissa < 2 ^ 53 ∧
    value = (2 * mantissa + 1) * 2 ^ excess

variable {mantissa scale excess value : Nat}

/-- Strictly within half a unit of a mantissa, counted in units. -/
theorem rounded_of_between {unit : Nat} (steps : (2 : ℚ) ^ scale = unit * one)
    (fits : 2 ^ 52 * unit ≤ value) (below : value < 2 ^ 53 * unit)
    (low : 2 * mantissa * unit < 2 * value + unit) (high : 2 * value < (2 * mantissa + 1) * unit) :
    Rounded (value * one) mantissa scale := by
  have positive := one_cast_pos
  have lowSteps : 2 * (mantissa : ℚ) * unit * one < (2 * value + unit) * one :=
    mul_lt_mul_of_pos_right (by exact_mod_cast low) positive
  have highSteps : 2 * (value : ℚ) * one < (2 * mantissa + 1) * unit * one :=
    mul_lt_mul_of_pos_right (by exact_mod_cast high) positive
  have near : |(value * one : ℚ) - magnitude mantissa scale| < 2 ^ scale / 2 := by
    rw [magnitude, steps, abs_lt]
    constructor <;> linarith
  refine ⟨?_, Or.inr ?_, near.le, fun half => absurd half near.ne⟩
  · rw [steps, ← mul_assoc]
    exact mul_lt_mul_of_pos_right (by exact_mod_cast below) positive
  · rw [steps, ← mul_assoc]
    exact mul_le_mul_of_nonneg_right (by exact_mod_cast fits) positive.le

/-- Where a natural number lies that is rounded to a mantissa. -/
theorem Overfull.between (overfull : Overfull value mantissa scale excess) :
    2 ^ 52 * 2 ^ (excess + 1) ≤ value ∧ value < 2 ^ 53 * 2 ^ (excess + 1) ∧
      mantissa * 2 ^ (excess + 1) ≤ value + 2 ^ excess ∧
      value ≤ mantissa * 2 ^ (excess + 1) + 2 ^ excess ∧
      (value = mantissa * 2 ^ (excess + 1) + 2 ^ excess → mantissa % 2 = 0) := by
  have positive := one_cast_pos
  obtain ⟨below, -, close, even⟩ := overfull.rounded
  have fits := overfull.normal
  have distance : (value * one : ℚ) - magnitude mantissa scale =
      (value - mantissa * 2 ^ (excess + 1)) * one := by
    rw [magnitude, overfull.unit]
    ring
  have half : (2 : ℚ) ^ scale / 2 = 2 ^ excess * one := by
    rw [overfull.unit, pow_succ]
    ring
  rw [overfull.unit, ← mul_assoc] at below fits
  rw [distance, half, abs_mul, abs_of_pos positive] at close even
  have near := abs_le.mp (le_of_mul_le_mul_right close positive)
  refine ⟨?_, ?_, ?_, ?_, fun tie => even ?_⟩
  · exact_mod_cast le_of_mul_le_mul_right fits positive
  · exact_mod_cast lt_of_mul_lt_mul_right below positive.le
  · have bound : (mantissa : ℚ) * 2 ^ (excess + 1) ≤ value + 2 ^ excess := by linarith [near.1]
    exact_mod_cast bound
  · have bound : (value : ℚ) ≤ mantissa * 2 ^ (excess + 1) + 2 ^ excess := by linarith [near.2]
    exact_mod_cast bound
  · rw [tie]
    push_cast
    rw [add_sub_cancel_left, abs_of_pos (unit_pos excess)]

/-- What is put after a natural number does not change its mantissa, unless it is halfway. -/
theorem Overfull.rounded_append (overfull : Overfull value mantissa scale excess)
    {shift rest : Nat} (some : 0 < rest) (small : rest < 2 ^ shift) :
    Rounded ((value * 2 ^ shift + rest : Nat) * one) mantissa (scale + shift) ∨
      HalfwayAboveEven value := by
  obtain ⟨fits, below, low, high, even⟩ := overfull.between
  rcases Nat.eq_or_lt_of_le high with tie | within
  · right
    refine ⟨mantissa, excess, even tie, overfull.low, ?_, by rw [tie, pow_succ]; ring⟩
    refine Nat.lt_of_mul_lt_mul_right (a := 2 ^ (excess + 1)) (lt_of_le_of_lt ?_ below)
    rw [tie]
    exact Nat.le_add_right _ _
  · left
    have steps : (2 : ℚ) ^ (scale + shift) = (2 ^ (excess + 1) * 2 ^ shift : Nat) * one := by
      rw [pow_add, overfull.unit]
      push_cast
      ring
    rw [pow_succ 2 excess] at fits below low within steps
    have fitsTimes := Nat.mul_le_mul_right (2 ^ shift) fits
    have lowTimes := Nat.mul_le_mul_right (2 ^ shift) low
    have belowTimes : (value + 1) * 2 ^ shift ≤ 2 ^ 53 * (2 ^ excess * 2) * 2 ^ shift :=
      Nat.mul_le_mul_right (2 ^ shift) below
    have withinTimes : (value + 1) * 2 ^ shift ≤
        (mantissa * (2 ^ excess * 2) + 2 ^ excess) * 2 ^ shift :=
      Nat.mul_le_mul_right (2 ^ shift) within
    refine rounded_of_between steps ?_ ?_ ?_ ?_ <;> linarith

/-- A number that is halfway is rounded to the even mantissa below it. -/
theorem overfull_halfway (even : mantissa % 2 = 0) (low : 2 ^ 52 ≤ mantissa)
    (high : mantissa < 2 ^ 53) (excess : Nat) :
    ∃ scale, Overfull ((2 * mantissa + 1) * 2 ^ excess) mantissa scale excess := by
  obtain ⟨scale, unit⟩ := exists_scale excess
  have middle : (((2 * mantissa + 1) * 2 ^ excess : Nat) * one : ℚ) =
      magnitude mantissa scale + 2 ^ scale / 2 := by
    rw [magnitude, unit, pow_succ]
    push_cast
    ring
  refine ⟨scale, ?_, unit⟩
  rw [middle]
  exact rounded_of_near low high (lt_halfway _ _).le le_rfl fun _ => even

/-- Above halfway, up to the next mantissa, the even mantissa below is no longer the nearest, unless
the value is out of range. -/
theorem isNearest_above_halfway_iff {value : ℚ} (even : mantissa % 2 = 0) (low : 2 ^ 52 ≤ mantissa)
    (high : mantissa < 2 ^ 53) (above : magnitude mantissa scale + 2 ^ scale / 2 < value)
    (most : value ≤ magnitude (mantissa + 1) scale) :
    (carried false mantissa scale).IsNearest false value ↔ overflow ≤ value := by
  rcases Nat.lt_or_ge 2045 scale with beyond | within
  · rw [carried_of_large false mantissa beyond]
    refine ⟨fun nearest => ?_, .infinite⟩
    cases nearest
    assumption
  · have canonical : Canonical mantissa scale := ⟨high, within, Or.inr low⟩
    have next : Canonical (mantissa + 1) scale :=
      ⟨by show _ < 2 ^ 53; omega, within, Or.inr (Nat.le_succ_of_le low)⟩
    rw [carried_of_canonical false canonical]
    refine iff_of_false (fun found => ?_) (not_le_of_gt ?_)
    · cases found with
      | finite _ _ nearest _ =>
        have further := nearest _ _ next
        have step : magnitude (mantissa + 1) scale = magnitude mantissa scale + 2 ^ scale := by
          rw [magnitude, magnitude, Nat.cast_add, Nat.cast_one, add_mul, one_mul]
        have positive := unit_pos scale
        rw [abs_of_pos (by linarith), abs_of_nonpos (by linarith)] at further
        linarith
    · cases isNearest_self false next with
      | finite _ below _ _ => exact most.trans_lt below

end Number

/-! ### Digits after a halfway point -/

/-- If the value of more than 53 bits with further digits behind it is halfway, these are zeros. -/
theorem eq_zero_of_halfway {value shift rest : Nat} (large : 2 ^ 53 ≤ value)
    (small : rest < 2 ^ shift) (halfway : HalfwayAboveEven (value * 2 ^ shift + rest)) :
    rest = 0 := by
  obtain ⟨mantissa, excess, -, -, high, same⟩ := halfway
  have deep : shift ≤ excess := by
    refine Nat.le_of_not_lt fun shallow => absurd same (Nat.ne_of_gt ?_)
    calc (2 * mantissa + 1) * 2 ^ excess
        < 2 ^ 54 * 2 ^ excess := Nat.mul_lt_mul_of_pos_right (by omega) (Nat.two_pow_pos excess)
      _ = 2 ^ 53 * 2 ^ (excess + 1) := by rw [pow_succ 2 excess]; ring
      _ ≤ 2 ^ 53 * 2 ^ shift :=
        Nat.mul_le_mul_left _ (Nat.pow_le_pow_right (by decide) shallow)
      _ ≤ value * 2 ^ shift := Nat.mul_le_mul_right _ large
      _ ≤ value * 2 ^ shift + rest := Nat.le_add_right _ _
  have divides : 2 ^ shift ∣ value * 2 ^ shift + rest := by
    rw [same]
    exact Dvd.dvd.mul_left (pow_dvd_pow 2 deep) _
  exact Nat.eq_zero_of_dvd_of_lt ((Nat.dvd_add_right (Nat.dvd_mul_left _ _)).mp divides) small

theorem Number.HalfwayAboveEven.large {value : Nat} (halfway : HalfwayAboveEven value) :
    2 ^ 53 ≤ value := by
  obtain ⟨mantissa, excess, -, low, -, rfl⟩ := halfway
  calc 2 ^ 53 ≤ 2 * mantissa + 1 := by omega
    _ ≤ (2 * mantissa + 1) * 2 ^ excess := Nat.le_mul_of_pos_right _ (Nat.two_pow_pos excess)

section

variable {bits : Nat} {head tail : List Nat}

/-- All digits up to a halfway point are kept. -/
theorem keptValue_of_halfway (nonzero : bits ≠ 0) (small : ∀ digit ∈ head, digit < 2 ^ bits)
    (halfway : HalfwayAboveEven (radixValue (2 ^ bits) head)) :
    keptValue (2 ^ bits) head = radixValue (2 ^ bits) head := by
  obtain ⟨front, back, rfl, kept, ends⟩ := exists_kept (2 ^ bits) head
  rcases ends with rfl | large
  · rw [List.append_nil, kept]
  · have below := radixValue_lt (Nat.one_lt_two_pow nonzero) fun digit member =>
      small digit (List.mem_append_right front member)
    rw [radixValue_append, ← pow_mul] at halfway
    rw [← pow_mul] at below
    rw [keptValue_append (Nat.two_pow_pos bits) back (kept ▸ large), kept, radixValue_append,
      eq_zero_of_halfway large below halfway, add_zero]

/-- The digits after a halfway point are collected as zeros. -/
theorem ofRadixDigits_of_halfway (few : bits ≤ 52) (nonzero : bits ≠ 0)
    (small : ∀ digit ∈ head ++ tail, digit < 2 ^ bits)
    (halfway : HalfwayAboveEven (radixValue (2 ^ bits) head)) :
    ofRadixDigits (2 ^ bits) (head ++ tail) =
      ofNat (radixValue (2 ^ bits) head * 2 ^ (bits * tail.length)) := by
  have kept := keptValue_of_halfway nonzero
    (fun digit member => small digit (List.mem_append_left tail member)) halfway
  rw [ofRadixDigits_eq few small,
    keptValue_append (Nat.two_pow_pos bits) tail (kept ▸ halfway.large), kept, pow_mul]

/-- If they are no zeros, the result is not the nearest, unless all is out of range. -/
theorem isNearest_of_halfway_iff (few : bits ≤ 52) (nonzero : bits ≠ 0)
    (small : ∀ digit ∈ head ++ tail, digit < 2 ^ bits)
    (halfway : HalfwayAboveEven (radixValue (2 ^ bits) head))
    (rest : radixValue (2 ^ bits) tail ≠ 0) :
    (ofRadixDigits (2 ^ bits) (head ++ tail)).IsNearest false
        (radixValue (2 ^ bits) (head ++ tail) * one) ↔
      overflow ≤ radixValue (2 ^ bits) (head ++ tail) * one := by
  have below := radixValue_lt (Nat.one_lt_two_pow nonzero) fun digit member =>
    small digit (List.mem_append_right head member)
  rw [ofRadixDigits_of_halfway few nonzero small halfway, radixValue_append, ← pow_mul]
  rw [← pow_mul] at below
  obtain ⟨mantissa, excess, even, low, high, point⟩ := halfway
  obtain ⟨scale, overfull⟩ := overfull_halfway even low high excess
  rw [point, overfull.ofNat_mul_pow]
  generalize radixValue (2 ^ bits) tail = after at rest below ⊢
  generalize bits * tail.length = shift at below ⊢
  have positive := one_cast_pos
  have unit : (2 : ℚ) ^ (scale + shift) = 2 * (2 ^ excess * 2 ^ shift) * one := by
    rw [pow_add, overfull.unit, pow_succ]
    ring
  have more : (0 : ℚ) < after * one :=
    mul_pos (Nat.cast_pos.mpr (Nat.pos_of_ne_zero rest)) positive
  have less : (after : ℚ) * one ≤ 2 ^ excess * 2 ^ shift * one := by
    refine mul_le_mul_of_nonneg_right ?_ positive.le
    calc (after : ℚ) ≤ 2 ^ shift := by exact_mod_cast below.le
      _ ≤ 2 ^ excess * 2 ^ shift :=
        le_mul_of_one_le_left (unit_pos shift).le (one_le_pow₀ one_le_two)
  refine isNearest_above_halfway_iff even low high ?_ ?_
  · rw [magnitude, unit]
    push_cast
    linarith
  · rw [magnitude, unit]
    push_cast
    linarith

/-- Anything else is rounded to the nearest number. -/
theorem isNearest_of_not_halfway {digits : List Nat} (few : bits ≤ 52) (nonzero : bits ≠ 0)
    (small : ∀ digit ∈ digits, digit < 2 ^ bits)
    (clear : ∀ head tail, digits = head ++ tail → HalfwayAboveEven (radixValue (2 ^ bits) head) →
      radixValue (2 ^ bits) tail = 0) :
    (ofRadixDigits (2 ^ bits) digits).IsNearest false (radixValue (2 ^ bits) digits * one) := by
  obtain ⟨head, tail, rfl, kept, ends⟩ := exists_kept (2 ^ bits) digits
  have here := clear head tail rfl
  rw [ofRadixDigits_eq few small]
  rcases ends with rfl | large
  · rw [List.append_nil, kept]
    exact isNearest_ofNat _
  rw [keptValue_append (Nat.two_pow_pos bits) tail (kept ▸ large), kept, radixValue_append]
  have below := radixValue_lt (Nat.one_lt_two_pow nonzero) fun digit member =>
    small digit (List.mem_append_right head member)
  rcases Nat.eq_zero_or_pos (radixValue (2 ^ bits) tail) with zeros | rest
  · rw [zeros, add_zero]
    exact isNearest_ofNat _
  rw [← pow_mul] at below ⊢
  obtain ⟨mantissa, scale, excess, overfull⟩ := exists_overfull large
  rw [overfull.ofNat_mul_pow]
  rcases overfull.rounded_append rest below with rounded | halfway
  · exact rounded.isNearest_carried false
  · exact absurd (here halfway) rest.ne'

/-- Collected digits become the number nearest to what they denote, or infinity out of range, unless
a digit that is no zero follows a halfway point. -/
theorem isNearest_ofRadixDigits_iff {digits : List Nat} (few : bits ≤ 52) (nonzero : bits ≠ 0)
    (small : ∀ digit ∈ digits, digit < 2 ^ bits) :
    (ofRadixDigits (2 ^ bits) digits).IsNearest false (radixValue (2 ^ bits) digits * one) ↔
      overflow ≤ radixValue (2 ^ bits) digits * one ∨
        ∀ head tail, digits = head ++ tail → HalfwayAboveEven (radixValue (2 ^ bits) head) →
          radixValue (2 ^ bits) tail = 0 := by
  by_cases clear : ∀ head tail, digits = head ++ tail →
      HalfwayAboveEven (radixValue (2 ^ bits) head) → radixValue (2 ^ bits) tail = 0
  · exact iff_of_true (isNearest_of_not_halfway few nonzero small clear) (Or.inr clear)
  · rw [or_iff_left clear]
    push Not at clear
    obtain ⟨head, tail, rfl, halfway, rest⟩ := clear
    exact isNearest_of_halfway_iff few nonzero small halfway rest

end

end EcmaCore
