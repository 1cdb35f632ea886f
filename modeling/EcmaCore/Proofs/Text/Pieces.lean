/-
This file proves that nothing is lost between unit sequences and text where no surrogate
is alone: the pieces of a sequence spell the sequence, a piece that is a scalar value
spells the units it was read from, and the units of a text are read as its characters. So
a key keeps exactly the units it was made of, whether they are well formed and kept as
text or not, and the units of a key make the same key again.
-/

import EcmaCore.Key

namespace EcmaCore

open CodeUnit

/-! ### Characters -/

theorem toNat_charOfNat {code : Nat} (valid : code.isValidChar) :
    (Char.ofNat code).toNat = code := by
  rw [Char.ofNat, dif_pos valid]
  exact UInt32.toNat_ofNatLT

/-- A unit that is no surrogate is the unit of its character. -/
theorem unitsOfChar_ofNat {unit : CodeUnit} (alone : ¬ (IsHigh unit ∨ IsLow unit)) :
    unitsOfChar (Char.ofNat unit.toNat) = [unit] := by
  have small : unit.toNat < 0x10000 := unit.toNat_lt
  have valid : unit.toNat.isValidChar := by
    rw [IsHigh, IsLow] at alone
    unfold Nat.isValidChar
    omega
  rw [unitsOfChar, toNat_charOfNat valid, if_pos small, UInt16.ofNat_toNat]

/-- A pair of surrogates is the units of the character they spell. -/
theorem unitsOfChar_joined {high low : CodeUnit} (isHigh : IsHigh high) (isLow : IsLow low) :
    unitsOfChar (joined high low) = [high, low] := by
  obtain ⟨highFrom, highTo⟩ := isHigh
  obtain ⟨lowFrom, lowTo⟩ := isLow
  have valid : (0x10000 + (high.toNat - 0xD800) * 0x400 + (low.toNat - 0xDC00)).isValidChar := by
    unfold Nat.isValidChar
    omega
  have large : ¬ 0x10000 + (high.toNat - 0xD800) * 0x400 + (low.toNat - 0xDC00) < 0x10000 := by
    omega
  have first : 0xD800 + (0x10000 + (high.toNat - 0xD800) * 0x400 + (low.toNat - 0xDC00) -
      0x10000) / 0x400 = high.toNat := by omega
  have second : 0xDC00 + (0x10000 + (high.toNat - 0xD800) * 0x400 + (low.toNat - 0xDC00) -
      0x10000) % 0x400 = low.toNat := by omega
  rw [unitsOfChar, joined, toNat_charOfNat valid, if_neg large, first, second,
    UInt16.ofNat_toNat, UInt16.ofNat_toNat]

/-! ### Pieces -/

/-- The units that a piece was read from. -/
def Piece.units : Piece → Units
  | .scalar char => unitsOfChar char
  | .lone unit => [unit]

theorem Piece.units_ofUnit (unit : CodeUnit) : (Piece.ofUnit unit).units = [unit] := by
  unfold Piece.ofUnit
  split
  · rfl
  · rename_i alone
    exact unitsOfChar_ofNat alone

/-- The pieces of a sequence spell the sequence. -/
theorem flatMap_pieces (units : Units) : (pieces units).flatMap Piece.units = units := by
  induction units using pieces.induct with
  | case1 => rfl
  | case2 unit => rw [pieces, List.flatMap_singleton, Piece.units_ofUnit]
  | case3 first second rest paired inductionHypothesis =>
    rw [pieces, if_pos paired, List.flatMap_cons, inductionHypothesis, Piece.units,
      unitsOfChar_joined paired.1 paired.2]
    rfl
  | case4 first second rest unpaired inductionHypothesis =>
    rw [pieces, if_neg unpaired, List.flatMap_cons, inductionHypothesis, Piece.units_ofUnit]
    rfl

/-- A sequence without a lone surrogate is the units of its text. -/
theorem unitsOf_lossy {units : Units} (wellFormed : WellFormed units) :
    unitsOf (lossy units) = units := by
  rw [unitsOf, lossy, String.toList_ofList, lossyChars, List.flatMap_map]
  refine Eq.trans ?_ (flatMap_pieces units)
  rw [List.flatMap_def, List.flatMap_def]
  refine congrArg List.flatten (List.map_congr_left fun piece member => ?_)
  cases piece with
  | scalar char => rfl
  | lone unit => exact absurd (wellFormed _ member) id

/-! ### From characters -/

/-- The units of a character are read as that character, whatever follows. -/
theorem pieces_unitsOfChar_append (char : Char) (rest : Units) :
    pieces (unitsOfChar char ++ rest) = .scalar char :: pieces rest := by
  have valid : char.toNat.isValidChar := char.valid
  have limits : char.toNat < 0xD800 ∨ 0xDFFF < char.toNat ∧ char.toNat < 0x110000 := valid
  unfold unitsOfChar
  split
  · rename_i small
    have code : (UInt16.ofNat char.toNat).toNat = char.toNat := UInt16.toNat_ofNat_of_lt' small
    have alone : ¬ (IsHigh (UInt16.ofNat char.toNat) ∨ IsLow (UInt16.ofNat char.toNat)) := by
      rw [IsHigh, IsLow, code]
      omega
    have piece : Piece.ofUnit (UInt16.ofNat char.toNat) = .scalar char := by
      rw [Piece.ofUnit, if_neg alone, code, Char.ofNat_toNat]
    cases rest with
    | nil =>
      show [Piece.ofUnit _] = _
      rw [piece]
      rfl
    | cons second rest =>
      have unpaired : ¬ (IsHigh (UInt16.ofNat char.toNat) ∧ IsLow second) :=
        fun paired => alone (Or.inl paired.1)
      rw [List.cons_append, List.nil_append, pieces, if_neg unpaired, piece]
  · rename_i large
    have high : (UInt16.ofNat (0xD800 + (char.toNat - 0x10000) / 0x400)).toNat =
        0xD800 + (char.toNat - 0x10000) / 0x400 :=
      UInt16.toNat_ofNat_of_lt' (show _ < 0x10000 by omega)
    have low : (UInt16.ofNat (0xDC00 + (char.toNat - 0x10000) % 0x400)).toNat =
        0xDC00 + (char.toNat - 0x10000) % 0x400 :=
      UInt16.toNat_ofNat_of_lt' (show _ < 0x10000 by omega)
    have paired : IsHigh (UInt16.ofNat (0xD800 + (char.toNat - 0x10000) / 0x400)) ∧
        IsLow (UInt16.ofNat (0xDC00 + (char.toNat - 0x10000) % 0x400)) := by
      rw [IsHigh, IsLow, high, low]
      omega
    have code : 0x10000 + (0xD800 + (char.toNat - 0x10000) / 0x400 - 0xD800) * 0x400 +
        (0xDC00 + (char.toNat - 0x10000) % 0x400 - 0xDC00) = char.toNat := by omega
    rw [List.cons_append, List.cons_append, List.nil_append, pieces, if_pos paired, joined, high,
      low, code, Char.ofNat_toNat]

theorem pieces_flatMap (chars : List Char) :
    pieces (chars.flatMap unitsOfChar) = chars.map .scalar := by
  induction chars with
  | nil => rfl
  | cons char chars inductionHypothesis =>
    rw [List.flatMap_cons, pieces_unitsOfChar_append, inductionHypothesis, List.map_cons]

/-- The units of a text are well formed. -/
theorem wellFormed_unitsOf (text : String) : WellFormed (unitsOf text) := by
  intro piece member
  rw [unitsOf, pieces_flatMap] at member
  obtain ⟨char, _, rfl⟩ := List.mem_map.mp member
  exact trivial

theorem lossyChars_flatMap (chars : List Char) :
    lossyChars (chars.flatMap unitsOfChar) = chars := by
  rw [lossyChars, pieces_flatMap, List.map_map]
  exact List.map_id _

theorem lossyChars_unitsOf (text : String) : lossyChars (unitsOf text) = text.toList :=
  lossyChars_flatMap text.toList

/-- A text is the text of its units. -/
theorem lossy_unitsOf (text : String) : lossy (unitsOf text) = text := by
  rw [lossy, lossyChars_unitsOf, String.ofList_toList]

theorem unitsOf_injective : Function.Injective unitsOf :=
  Function.LeftInverse.injective lossy_unitsOf

/-! ### Keys -/

/-- A key has the units that it was made of. -/
theorem Key.units_ofUnits (units : Units) : (Key.ofUnits units).units = units := by
  unfold Key.ofUnits
  split
  · rename_i wellFormed
    exact unitsOf_lossy wellFormed
  · rfl

/-- A key is the key of its units. -/
theorem Key.ofUnits_units (key : Key) : Key.ofUnits key.units = key := by
  cases key with
  | text name =>
    rw [Key.units, Key.ofUnits, dif_pos (wellFormed_unitsOf name), lossy_unitsOf]
  | raw units illFormed => rw [Key.units, Key.ofUnits, dif_neg illFormed]

end EcmaCore
