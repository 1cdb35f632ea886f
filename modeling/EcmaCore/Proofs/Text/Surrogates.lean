/-
This file says at which places of a unit sequence a decoder finds a lone surrogate. Pieces are
made from the left, and a pair takes two units at once; but no unit is the second half of one
pair and the first half of the next, so whether a surrogate has its partner can be told
from the two units beside it.

A text in which lone surrogates are replaced and one in which they are spelled as escapes are
therefore the sequence itself, changed at just these places.
-/

import EcmaCore.Proofs.Text.Pieces

namespace EcmaCore

open CodeUnit

/-! ### Partners -/

/-- A high surrogate stands at the position. -/
def HighAt (units : Units) (position : Nat) : Prop := ∃ unit ∈ units[position]?, IsHigh unit

/-- A low surrogate stands at the position. -/
def LowAt (units : Units) (position : Nat) : Prop := ∃ unit ∈ units[position]?, IsLow unit

instance (units : Units) (position : Nat) : Decidable (HighAt units position) :=
  inferInstanceAs (Decidable (∃ unit ∈ units[position]?, IsHigh unit))

instance (units : Units) (position : Nat) : Decidable (LowAt units position) :=
  inferInstanceAs (Decidable (∃ unit ∈ units[position]?, IsLow unit))

/-- The unit at the position is a surrogate without its partner: a high one with no low one behind
it, or a low one with no high one before it. -/
def Unpaired (units : Units) (position : Nat) : Prop :=
  HighAt units position ∧ ¬ LowAt units (position + 1) ∨
    LowAt units position ∧ (position = 0 ∨ ¬ HighAt units (position - 1))

instance (units : Units) (position : Nat) : Decidable (Unpaired units position) :=
  inferInstanceAs (Decidable (_ ∨ _))

section

variable {first second : CodeUnit} {rest : Units} {position : Nat}

theorem not_isLow_of_isHigh (high : IsHigh first) : ¬ IsLow first := by
  unfold IsHigh at high
  unfold IsLow
  omega

@[simp]
theorem highAt_zero : HighAt (first :: rest) 0 ↔ IsHigh first := by simp [HighAt]

@[simp]
theorem lowAt_zero : LowAt (first :: rest) 0 ↔ IsLow first := by simp [LowAt]

@[simp]
theorem highAt_succ : HighAt (first :: rest) (position + 1) ↔ HighAt rest position := by
  simp [HighAt]

@[simp]
theorem lowAt_succ : LowAt (first :: rest) (position + 1) ↔ LowAt rest position := by
  simp [LowAt]

/-- In front of the first unit nothing can be its partner. -/
theorem unpaired_zero :
    Unpaired (first :: rest) 0 ↔ IsHigh first ∧ ¬ LowAt rest 0 ∨ IsLow first := by
  simp [Unpaired]

/-- Only the first of the units that follow can have its partner in front of them. -/
theorem unpaired_add_two :
    Unpaired (first :: rest) (position + 2) ↔ Unpaired rest (position + 1) := by
  simp [Unpaired]

/-- Units that do not go on with a pair have their partners among themselves. -/
theorem unpaired_succ (apart : ¬ (IsHigh first ∧ LowAt rest 0)) :
    Unpaired (first :: rest) (position + 1) ↔ Unpaired rest position := by
  cases position with
  | zero =>
    have alone : LowAt rest 0 → ¬ HighAt (first :: rest) 0 := fun low high =>
      apart ⟨highAt_zero.mp high, low⟩
    simp only [Unpaired, highAt_succ, lowAt_succ, Nat.zero_add, true_or, and_true, Nat.one_ne_zero,
      false_or]
    exact or_congr_right (and_iff_left_of_imp alone)
  | succ position => exact unpaired_add_two

/-- A surrogate that does not open a pair has no partner, if it stands first. -/
theorem unpaired_zero_of_apart (apart : ¬ (IsHigh first ∧ LowAt rest 0)) :
    Unpaired (first :: rest) 0 ↔ IsHigh first ∨ IsLow first := by
  rw [unpaired_zero]
  exact or_congr_left (and_iff_left_of_imp fun high low => apart ⟨high, low⟩)

theorem not_unpaired_high (high : IsHigh first) (low : IsLow second) :
    ¬ Unpaired (first :: second :: rest) 0 := by
  simp [unpaired_zero, low, not_isLow_of_isHigh high]

theorem not_unpaired_low (high : IsHigh first) (low : IsLow second) :
    ¬ Unpaired (first :: second :: rest) 1 := by
  have noHigh : ¬ IsHigh second := fun highToo => not_isLow_of_isHigh highToo low
  simp [Unpaired, high, noHigh]

/-- The second half of a pair is no high surrogate, so it opens no pair with what follows. -/
theorem unpaired_behind_pair (low : IsLow second) :
    Unpaired (first :: second :: rest) (position + 2) ↔ Unpaired rest position :=
  unpaired_add_two.trans (unpaired_succ fun pair => not_isLow_of_isHigh pair.1 low)

end

/-! ### Pieces by position -/

/-- The units of a piece when a lone surrogate is written in some way. -/
def Piece.spelled (lone : CodeUnit → Units) : Piece → Units
  | .scalar char => unitsOfChar char
  | .lone unit => lone unit

theorem Piece.spelled_ofUnit (lone : CodeUnit → Units) (unit : CodeUnit) :
    (Piece.ofUnit unit).spelled lone = if IsHigh unit ∨ IsLow unit then lone unit else [unit] := by
  unfold Piece.ofUnit
  split
  · rfl
  · rename_i alone
    exact unitsOfChar_ofNat alone

/-- Whatever is written for lone surrogates is written at the positions without a partner, and all
else stays in its place. -/
theorem flatMap_spelled (lone : CodeUnit → Units) (units : Units) :
    (pieces units).flatMap (Piece.spelled lone) =
      (units.mapIdx fun position unit =>
        if Unpaired units position then lone unit else [unit]).flatten := by
  induction units using pieces.induct with
  | case1 => rfl
  | case2 unit =>
    have apart : ¬ (IsHigh unit ∧ LowAt [] 0) := by simp [LowAt]
    simp only [pieces, List.flatMap_singleton, List.mapIdx_cons, List.mapIdx_nil,
      List.flatten_cons, List.flatten_nil, List.append_nil, Piece.spelled_ofUnit,
      unpaired_zero_of_apart apart]
  | case3 first second rest paired inductionHypothesis =>
    obtain ⟨high, low⟩ := paired
    rw [pieces, if_pos ⟨high, low⟩, List.flatMap_cons, inductionHypothesis, Piece.spelled,
      unitsOfChar_joined high low, List.mapIdx_cons, List.mapIdx_cons, List.flatten_cons,
      List.flatten_cons, if_neg (not_unpaired_high high low), if_neg (not_unpaired_low high low)]
    simp only [Nat.add_assoc, Nat.reduceAdd, unpaired_behind_pair low]
    rfl
  | case4 first second rest unpaired inductionHypothesis =>
    have apart : ¬ (IsHigh first ∧ LowAt (second :: rest) 0) := by rwa [lowAt_zero]
    rw [pieces, if_neg unpaired, List.flatMap_cons, Piece.spelled_ofUnit, List.mapIdx_cons,
      List.flatten_cons, inductionHypothesis]
    simp only [unpaired_zero_of_apart apart, unpaired_succ apart]

/-! ### Replacement -/

theorem flatten_mapIdx_singleton (write : Nat → CodeUnit → CodeUnit) (units : Units) :
    (units.mapIdx fun position unit => [write position unit]).flatten = units.mapIdx write := by
  induction units generalizing write with
  | nil => rfl
  | cons first rest inductionHypothesis =>
    rw [List.mapIdx_cons, List.flatten_cons, inductionHypothesis, List.mapIdx_cons,
      List.singleton_append]

/-- A repaired text keeps every unit in its place, but for those without a partner. -/
theorem unitsOf_lossy_eq_mapIdx (units : Units) :
    unitsOf (lossy units) = units.mapIdx fun position unit =>
      if Unpaired units position then 0xFFFD else unit := by
  have replaced : unitsOf (lossy units) =
      (pieces units).flatMap (Piece.spelled fun _ => [0xFFFD]) := by
    rw [unitsOf, lossy, String.toList_ofList, lossyChars, List.flatMap_map]
    refine congrArg (List.flatMap · (pieces units)) (funext fun piece => ?_)
    cases piece <;> rfl
  rw [replaced, flatMap_spelled, ← flatten_mapIdx_singleton]
  simp only [apply_ite (fun unit : CodeUnit => [unit])]

/-- Of two high surrogates and two low ones, the two in the middle are a pair. -/
example : unitsOf (lossy [0xD800, 0xD801, 0xDC00, 0xDC01]) =
    [0xFFFD, 0xD801, 0xDC00, 0xFFFD] := by decide

/-- Only a surrogate can be without its partner. -/
theorem Unpaired.isSurrogate {units : Units} {position : Nat} (unpaired : Unpaired units position) :
    ∃ unit ∈ units[position]?, IsHigh unit ∨ IsLow unit := by
  rcases unpaired with ⟨⟨unit, here, high⟩, -⟩ | ⟨⟨unit, here, low⟩, -⟩
  · exact ⟨unit, here, Or.inl high⟩
  · exact ⟨unit, here, Or.inr low⟩

theorem getElem?_unitsOf_lossy (units : Units) (position : Nat) :
    (unitsOf (lossy units))[position]? =
      if Unpaired units position then some 0xFFFD else units[position]? := by
  rw [unitsOf_lossy_eq_mapIdx, List.getElem?_mapIdx]
  split
  · rename_i unpaired
    obtain ⟨unit, here, -⟩ := unpaired.isSurrogate
    rw [here, Option.map_some]
  · exact Option.map_id'

/-- A sequence is left as it is exactly if it has no surrogate without its partner. -/
theorem unitsOf_lossy_eq_self_iff (units : Units) :
    unitsOf (lossy units) = units ↔ ∀ position, ¬ Unpaired units position := by
  constructor
  · intro same position unpaired
    obtain ⟨unit, here, surrogate⟩ := unpaired.isSurrogate
    have replaced := getElem?_unitsOf_lossy units position
    rw [same, if_pos unpaired, here] at replaced
    -- The replacement character is no surrogate.
    rw [Option.some.inj replaced] at surrogate
    exact absurd surrogate (by decide)
  · intro paired
    refine List.ext_getElem? fun position => ?_
    rw [getElem?_unitsOf_lossy, if_neg (paired position)]

/-- A sequence is well formed exactly if every surrogate has its partner beside it. -/
theorem wellFormed_iff_forall_not_unpaired (units : Units) :
    WellFormed units ↔ ∀ position, ¬ Unpaired units position := by
  rw [← unitsOf_lossy_eq_self_iff]
  refine ⟨unitsOf_lossy, fun same => ?_⟩
  rw [← same]
  exact wellFormed_unitsOf _

/-! ### Escapes -/

/-- A number of four hexadecimal digits is written with these. -/
theorem fourHex_eq_toDigits {value : Nat} (large : 0x1000 ≤ value) (small : value < 0x10000) :
    fourHex value = Nat.toDigits 16 value := by
  have base : 1 < 16 := by decide
  have digit (place : Nat) : Nat.toDigits 16 (place % 16) = [hexDigit place] :=
    Nat.toDigits_of_lt_base (Nat.mod_lt place (by decide))
  have step {place : Nat} (positive : 0 < place / 16) :
      Nat.toDigits 16 place = Nat.toDigits 16 (place / 16) ++ [hexDigit place] := by
    rw [← digit place, Nat.toDigits_append_toDigits base positive (Nat.mod_lt place (by decide)),
      Nat.div_add_mod]
  have first : value / 16 / 16 / 16 = value / 0x1000 % 16 := by omega
  rw [step (by omega), step (by omega), step (by omega), first, digit, Nat.div_div_eq_div_mul]
  rfl

/-- A displayed text keeps every unit in its place, but for those without a partner. -/
theorem unitsOf_displayed_eq_flatten (units : Units) :
    unitsOf (displayed units) = (units.mapIdx fun position unit =>
      if Unpaired units position then
        unitsOf (String.ofList ('\\' :: 'u' :: Nat.toDigits 16 unit.toNat))
      else [unit]).flatten := by
  have escaped : unitsOf (displayed units) = (pieces units).flatMap (Piece.spelled fun unit =>
      unitsOf (String.ofList ('\\' :: 'u' :: fourHex unit.toNat))) := by
    rw [unitsOf, displayed, String.toList_ofList, displayChars, List.flatMap_assoc]
    refine congrArg (List.flatMap · (pieces units)) (funext fun piece => ?_)
    cases piece with
    | scalar char => exact List.flatMap_singleton _ _
    | lone unit => rw [Piece.spelled, unitsOf, String.toList_ofList]
  rw [escaped, flatMap_spelled]
  refine congrArg List.flatten (List.mapIdx_eq_mapIdx_iff.mpr fun position bound => ?_)
  split
  · rename_i unpaired
    obtain ⟨unit, here, surrogate⟩ := unpaired.isSurrogate
    have same : units[position] = unit :=
      Option.some.inj ((List.getElem?_eq_getElem bound).symm.trans here)
    have range : 0x1000 ≤ unit.toNat ∧ unit.toNat < 0x10000 := by
      rw [IsHigh, IsLow] at surrogate
      omega
    rw [same, fourHex_eq_toDigits range.1 range.2]
  · rfl

/-- An escape is told from the replacement character. -/
theorem displayed_eq_lossy_iff (units : Units) : displayed units = lossy units ↔ WellFormed units := by
  rw [displayed, lossy, String.ofList_inj, displayChars, lossyChars, WellFormed]
  induction pieces units with
  | nil => simp
  | cons piece others inductionHypothesis =>
    cases piece with
    | scalar char =>
      rw [List.flatMap_cons, List.map_cons, List.singleton_append, List.cons_inj_right,
        inductionHypothesis, List.forall_mem_cons]
      exact (and_iff_right trivial).symm
    | lone unit =>
      refine iff_of_false (fun same => ?_) fun scalar => scalar _ List.mem_cons_self
      have first : '\\' = '\uFFFD' := (List.cons.inj same).1
      exact absurd first (by decide)

/-! ### Conversion to text -/

/-- Conversion to text is local. Read as units again, a text with replacements is as long as the
sequence and has its unit at every position, except that U+FFFD stands for each surrogate
without a partner. So it is the sequence itself exactly if there is none of these, and
replacing again changes nothing. A displayed text has in their places a backslash, `u` and the
digits of the unit in base 16, and all else as it stands; the two texts are the same
exactly if nothing was replaced. -/
theorem text_conversions_local (units : Units) :
    (unitsOf (lossy units)).length = units.length ∧
      (∀ position, (unitsOf (lossy units))[position]? =
        if Unpaired units position then some 0xFFFD else units[position]?) ∧
      (unitsOf (lossy units) = units ↔ ∀ position, ¬ Unpaired units position) ∧
      unitsOf (lossy (unitsOf (lossy units))) = unitsOf (lossy units) ∧
      unitsOf (displayed units) = (units.mapIdx fun position unit =>
        if Unpaired units position then
          unitsOf (String.ofList ('\\' :: 'u' :: Nat.toDigits 16 unit.toNat))
        else [unit]).flatten ∧
      (displayed units = lossy units ↔ ∀ position, ¬ Unpaired units position) := by
  refine ⟨?_, getElem?_unitsOf_lossy units, unitsOf_lossy_eq_self_iff units, ?_,
    unitsOf_displayed_eq_flatten units, ?_⟩
  · rw [unitsOf_lossy_eq_mapIdx, List.length_mapIdx]
  · rw [lossy_unitsOf]
  · rw [displayed_eq_lossy_iff, wellFormed_iff_forall_not_unpaired]

end EcmaCore
