/-
This file says what the blanks are that scripts have around a number, as units and apart from
the table that trimming uses, and relates the two. All blanks are single units and no
surrogates, so trimming a text is trimming its units, as long as what is left is plain:
then no lone surrogate is anywhere in the text, and its units spell it.

One character is trimmed that scripts do not count as a blank, the next line U+0085.
-/

import EcmaCore.Proofs.Text.Pieces
import EcmaCore.Text.Blank
import Mathlib.Data.List.TakeWhile

namespace EcmaCore

open CodeUnit

/-! ### Blank units -/

namespace CodeUnit

/-- The space separators of Unicode. -/
def IsSpaceSeparator (unit : CodeUnit) : Prop :=
  unit = 0x20 ∨ unit = 0xA0 ∨ unit = 0x1680 ∨ (0x2000 ≤ unit ∧ unit ≤ 0x200A) ∨ unit = 0x202F ∨
    unit = 0x205F ∨ unit = 0x3000

/-- Tab, vertical tab, form feed, the byte order mark and the space separators. -/
def IsWhiteSpace (unit : CodeUnit) : Prop :=
  unit = 0x09 ∨ unit = 0x0B ∨ unit = 0x0C ∨ unit = 0xFEFF ∨ IsSpaceSeparator unit

/-- Line feed, carriage return, line separator and paragraph separator. -/
def IsLineTerminator (unit : CodeUnit) : Prop :=
  unit = 0x0A ∨ unit = 0x0D ∨ unit = 0x2028 ∨ unit = 0x2029

/-- The unit is one that scripts do not count at the ends of a number. -/
def IsScriptBlank (unit : CodeUnit) : Prop := IsWhiteSpace unit ∨ IsLineTerminator unit

/-- The control character that ends a line in some encodings. -/
def nextLine : CodeUnit := 0x85

/-- The unit is one that is trimmed. -/
def IsTextBlank (unit : CodeUnit) : Prop := IsScriptBlank unit ∨ unit = nextLine

instance : DecidablePred IsSpaceSeparator := fun _ => inferInstanceAs (Decidable (_ ∨ _))

instance : DecidablePred IsWhiteSpace := fun _ => inferInstanceAs (Decidable (_ ∨ _))

instance : DecidablePred IsLineTerminator := fun _ => inferInstanceAs (Decidable (_ ∨ _))

instance : DecidablePred IsScriptBlank := fun _ => inferInstanceAs (Decidable (_ ∨ _))

instance : DecidablePred IsTextBlank := fun _ => inferInstanceAs (Decidable (_ ∨ _))

/-- Trimming by the table of characters, said of units. -/
theorem isTextBlank_iff {char : Char} {unit : CodeUnit} (code : char.toNat = unit.toNat) :
    IsTextBlank unit ↔ isBlank char = true := by
  simp only [IsTextBlank, IsScriptBlank, IsWhiteSpace, IsLineTerminator, IsSpaceSeparator, nextLine,
    isBlank, inRanges, blankRanges, List.any_cons, List.any_nil, Bool.or_eq_true, Bool.and_eq_true,
    decide_eq_true_eq, Bool.or_false, code, ← UInt16.toNat_inj, UInt16.le_iff_toNat_le,
    UInt16.reduceToNat]
  omega

theorem IsTextBlank.not_surrogate {unit : CodeUnit} (trimmed : IsTextBlank unit) :
    ¬ (IsHigh unit ∨ IsLow unit) := by
  simp only [IsTextBlank, IsScriptBlank, IsWhiteSpace, IsLineTerminator, IsSpaceSeparator, nextLine,
    ← UInt16.toNat_inj, UInt16.le_iff_toNat_le, UInt16.reduceToNat] at trimmed
  simp only [IsHigh, IsLow]
  omega

end CodeUnit

/-! ### Plain characters -/

/-- The character is a printed one of ASCII other than the space. -/
def IsPlain (char : Char) : Prop := 0x20 < char.toNat ∧ char.toNat < 0x7F

instance : DecidablePred IsPlain := fun _ => inferInstanceAs (Decidable (_ ∧ _))

variable {char : Char} {chars : List Char} {units : Units}

theorem unitsOfChar_of_small (small : char.toNat < 0x10000) :
    ∃ unit, unitsOfChar char = [unit] ∧ char.toNat = unit.toNat :=
  ⟨UInt16.ofNat char.toNat, if_pos small, (UInt16.toNat_ofNat_of_lt' small).symm⟩

theorem IsPlain.not_blank (plain : IsPlain char) : isBlank char = false := by
  obtain ⟨low, high⟩ := plain
  simp only [isBlank, inRanges, blankRanges, List.any_cons, List.any_nil, Bool.or_eq_false_iff,
    Bool.and_eq_false_iff, decide_eq_false_iff_not, and_true]
  omega

/-- Units of plain characters are not trimmed. -/
theorem not_isTextBlank_of_plain (plain : ∀ char ∈ chars, IsPlain char) :
    ∀ unit ∈ chars.flatMap unitsOfChar, ¬ IsTextBlank unit := by
  intro unit member trimmed
  obtain ⟨char, inside, member⟩ := List.mem_flatMap.mp member
  obtain ⟨only, spelled, code⟩ :=
    unitsOfChar_of_small (Nat.lt_trans (plain char inside).2 (by decide))
  rw [spelled, List.mem_singleton] at member
  subst member
  exact absurd ((isTextBlank_iff code).mp trimmed) (by rw [(plain char inside).not_blank]; decide)

/-- Units that are trimmed spell blanks. -/
theorem exists_blanks (trimmed : ∀ unit ∈ units, IsTextBlank unit) :
    ∃ chars : List Char,
      units = chars.flatMap unitsOfChar ∧ ∀ char ∈ chars, isBlank char = true := by
  induction units with
  | nil => exact ⟨[], rfl, nofun⟩
  | cons unit units inductionHypothesis =>
    obtain ⟨here, others⟩ := List.forall_mem_cons.mp trimmed
    obtain ⟨chars, rfl, blank⟩ := inductionHypothesis others
    have alone := here.not_surrogate
    have valid : unit.toNat.isValidChar := by
      have small : unit.toNat < 0x10000 := unit.toNat_lt
      rw [IsHigh, IsLow] at alone
      unfold Nat.isValidChar
      omega
    refine ⟨Char.ofNat unit.toNat :: chars, ?_, List.forall_mem_cons.mpr ⟨?_, blank⟩⟩
    · rw [List.flatMap_cons, unitsOfChar_ofNat alone]
      rfl
    · exact (isTextBlank_iff (toNat_charOfNat valid)).mp here

theorem small_of_isBlank (blank : isBlank char = true) : char.toNat < 0xFF00 := by
  simp only [isBlank, inRanges, blankRanges, List.any_cons, List.any_nil, Bool.or_eq_true,
    Bool.and_eq_true, decide_eq_true_eq, Bool.or_false] at blank
  omega

/-- Blanks are spelled by units that are trimmed. -/
theorem isTextBlank_of_blanks (blank : ∀ char ∈ chars, isBlank char = true) :
    ∀ unit ∈ chars.flatMap unitsOfChar, IsTextBlank unit := by
  intro unit member
  obtain ⟨char, inside, member⟩ := List.mem_flatMap.mp member
  have here := blank char inside
  obtain ⟨only, spelled, code⟩ :=
    unitsOfChar_of_small (Nat.lt_trans (small_of_isBlank here) (by decide))
  rw [spelled, List.mem_singleton] at member
  subst member
  exact (isTextBlank_iff code).mpr here

/-! ### Trimming -/

/-- Blanks at the ends of a plain text are trimmed, and nothing else is. -/
theorem trimBlanks_eq {before middle after : List Char}
    (first : ∀ char ∈ before, isBlank char = true) (plain : ∀ char ∈ middle, IsPlain char)
    (last : ∀ char ∈ after, isBlank char = true) :
    trimBlanks (before ++ (middle ++ after)) = middle := by
  have dark : ∀ char ∈ middle, ¬ isBlank char = true := fun char member => by
    rw [(plain char member).not_blank]
    decide
  have front : (middle ++ after).dropWhile isBlank = middle ∨
      (middle ++ after).dropWhile isBlank = middle ++ after := by
    cases middle with
    | nil =>
      left
      rw [List.nil_append, List.dropWhile_eq_nil_iff]
      exact last
    | cons char middle =>
      right
      rw [List.cons_append, List.dropWhile_cons_of_neg (dark char List.mem_cons_self)]
  have back : middle.reverse.dropWhile isBlank = middle.reverse := by
    rw [List.dropWhile_eq_self_iff]
    intro some
    exact dark _ (List.mem_reverse.mp (List.getElem_mem some))
  rw [trimBlanks, List.dropWhile_append_of_pos first]
  rcases front with same | same
  · rw [same, back, List.reverse_reverse]
  · rw [same, List.reverse_append, List.dropWhile_append_of_pos fun char member =>
      last char (List.mem_reverse.mp member), back, List.reverse_reverse]

/-- What trimming takes away are blanks. -/
theorem exists_trimBlanks (text : List Char) :
    ∃ before after, text = before ++ (trimBlanks text ++ after) ∧
      (∀ char ∈ before, isBlank char = true) ∧ ∀ char ∈ after, isBlank char = true := by
  refine ⟨text.takeWhile isBlank, ((text.dropWhile isBlank).reverse.takeWhile isBlank).reverse, ?_,
    fun char member => List.mem_takeWhile_imp member,
    fun char member => List.mem_takeWhile_imp (List.mem_reverse.mp member)⟩
  rw [trimBlanks, ← List.reverse_append, List.takeWhile_append_dropWhile, List.reverse_reverse,
    List.takeWhile_append_dropWhile]

/-- What is left of units without those at the two ends that count as blank. -/
structure Trimmed (Blank : CodeUnit → Prop) (units middle : Units) : Prop where
  split : ∃ before after, units = before ++ (middle ++ after) ∧
    (∀ unit ∈ before, Blank unit) ∧ ∀ unit ∈ after, Blank unit
  first : ∀ unit ∈ middle.head?, ¬ Blank unit
  last : ∀ unit ∈ middle.getLast?, ¬ Blank unit

/-- A plain text has no blank at its ends. -/
theorem trimmed_of_plain (plain : ∀ char ∈ chars, IsPlain char)
    (split : ∃ before after, units = before ++ (chars.flatMap unitsOfChar ++ after) ∧
      (∀ unit ∈ before, IsTextBlank unit) ∧ ∀ unit ∈ after, IsTextBlank unit) :
    Trimmed IsTextBlank units (chars.flatMap unitsOfChar) where
  split := split
  first unit member := not_isTextBlank_of_plain plain unit (List.mem_of_mem_head? member)
  last unit member := not_isTextBlank_of_plain plain unit (List.mem_of_getLast? member)

/-- A sequence has a lone surrogate only if its text has the replacement character. -/
theorem wellFormed_of_lossyChars (clean : '\uFFFD' ∉ lossyChars units) : WellFormed units := by
  intro piece member
  cases piece with
  | scalar char => exact trivial
  | lone unit => exact absurd (List.mem_map.mpr ⟨_, member, rfl⟩) clean

/-- Trimming the text of units takes away the units that are trimmed. -/
theorem trimBlanks_units {before after : Units} (first : ∀ unit ∈ before, IsTextBlank unit)
    (plain : ∀ char ∈ chars, IsPlain char) (last : ∀ unit ∈ after, IsTextBlank unit) :
    trimBlanks (lossyChars (before ++ (chars.flatMap unitsOfChar ++ after))) = chars := by
  obtain ⟨front, rfl, frontBlank⟩ := exists_blanks first
  obtain ⟨back, rfl, backBlank⟩ := exists_blanks last
  rw [← List.flatMap_append, ← List.flatMap_append, lossyChars_flatMap]
  exact trimBlanks_eq frontBlank plain backBlank

/-- Trimming the text of units leaves a plain text just if trimming the units leaves its units. -/
theorem trimmed_iff (plain : ∀ char ∈ chars, IsPlain char) :
    Trimmed IsTextBlank units (unitsOf (String.ofList chars)) ↔
      trimBlanks (lossyChars units) = chars := by
  rw [unitsOf, String.toList_ofList]
  constructor
  · rintro ⟨⟨before, after, rfl, first, last⟩, -, -⟩
    exact trimBlanks_units first plain last
  · intro left
    obtain ⟨before, after, split, first, last⟩ := exists_trimBlanks (lossyChars units)
    rw [left] at split
    have clean : '\uFFFD' ∉ lossyChars units := by
      rw [split, List.mem_append, List.mem_append]
      rintro (blank | inside | blank)
      · exact absurd (first _ blank) (by decide)
      · exact absurd (plain _ inside) (by decide)
      · exact absurd (last _ blank) (by decide)
    have spelled := unitsOf_lossy (wellFormed_of_lossyChars clean)
    rw [lossy, unitsOf, String.toList_ofList, split, List.flatMap_append,
      List.flatMap_append] at spelled
    exact trimmed_of_plain plain
      ⟨_, _, spelled.symm, isTextBlank_of_blanks first, isTextBlank_of_blanks last⟩

/-- Around a plain text, the blanks of scripts are what is trimmed except for a next line. -/
theorem trimmed_script_iff (plain : ∀ char ∈ chars, IsPlain char) :
    Trimmed IsScriptBlank units (unitsOf (String.ofList chars)) ↔
      Trimmed IsTextBlank units (unitsOf (String.ofList chars)) ∧ nextLine ∉ units := by
  rw [unitsOf, String.toList_ofList]
  constructor
  · rintro ⟨⟨before, after, rfl, first, last⟩, -, -⟩
    refine ⟨trimmed_of_plain plain ⟨before, after, rfl, fun unit member =>
      Or.inl (first unit member), fun unit member => Or.inl (last unit member)⟩, fun member => ?_⟩
    rw [List.mem_append, List.mem_append] at member
    rcases member with blank | inside | blank
    · exact absurd (first _ blank) (by decide)
    · exact not_isTextBlank_of_plain plain _ inside (Or.inr rfl)
    · exact absurd (last _ blank) (by decide)
  · rintro ⟨⟨⟨before, after, rfl, first, last⟩, front, back⟩, clean⟩
    refine ⟨⟨before, after, rfl, fun unit member => ?_, fun unit member => ?_⟩,
      fun unit member blank => front unit member (Or.inl blank),
      fun unit member blank => back unit member (Or.inl blank)⟩
    · refine (first unit member).resolve_right ?_
      rintro rfl
      exact clean (List.mem_append_left _ member)
    · refine (last unit member).resolve_right ?_
      rintro rfl
      exact clean (List.mem_append_right _ (List.mem_append_right _ member))

end EcmaCore
