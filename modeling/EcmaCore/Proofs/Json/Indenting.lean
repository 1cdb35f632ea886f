/-
This file proves that the text of a tree over lines spells the tree, too. It has blanks in
the places where the compact text has none, at the starts of lines and after colons, and
the grammar passes over them. Since no surrogate of a tidy tree is alone, the text is as
good as a string of characters: it is not changed when it is made one.
-/

import EcmaCore.Proofs.Json.Acceptance
import EcmaCore.Proofs.Json.Writing
import EcmaCore.Proofs.Text.Pieces

namespace EcmaCore

open CodeUnit

/-! ### Well-formed sequences -/

section

variable {units others : Units}

/-- The well-formed sequences are the units of texts. -/
theorem wellFormed_iff : WellFormed units ↔ ∃ text, unitsOf text = units := by
  refine ⟨fun wellFormed => ⟨lossy units, unitsOf_lossy wellFormed⟩, ?_⟩
  rintro ⟨text, rfl⟩
  exact wellFormed_unitsOf text

theorem wellFormed_nil : WellFormed [] := by decide

theorem WellFormed.append (first : WellFormed units) (second : WellFormed others) :
    WellFormed (units ++ others) := by
  obtain ⟨text, rfl⟩ := wellFormed_iff.mp first
  obtain ⟨other, rfl⟩ := wellFormed_iff.mp second
  refine wellFormed_iff.mpr ⟨text ++ other, ?_⟩
  rw [unitsOf, String.toList_append, List.flatMap_append]
  rfl

theorem wellFormed_unitsOfChar (char : Char) : WellFormed (unitsOfChar char) :=
  wellFormed_iff.mpr ⟨String.ofList [char], by
    rw [unitsOf, String.toList_ofList, List.flatMap_singleton]⟩

theorem WellFormed.cons {unit : CodeUnit} (small : unit.toNat < 0xD800)
    (rest : WellFormed units) : WellFormed (unit :: units) := by
  have alone : ¬ (IsHigh unit ∨ IsLow unit) := by
    rw [IsHigh, IsLow]
    omega
  have first := wellFormed_unitsOfChar (Char.ofNat unit.toNat)
  rw [unitsOfChar_ofNat alone] at first
  exact first.append rest

theorem wellFormed_flatMap {α : Type} {members : List α} {spell : α → Units}
    (wellFormed : ∀ member ∈ members, WellFormed (spell member)) :
    WellFormed (members.flatMap spell) := by
  induction members with
  | nil => exact wellFormed_nil
  | cons member members inductionHypothesis =>
    obtain ⟨first, rest⟩ := List.forall_mem_cons.mp wellFormed
    rw [List.flatMap_cons]
    exact first.append (inductionHypothesis rest)

end

namespace Json

open Grammar

/-- A unit from the surrogates on is never escaped. -/
theorem escapedUnit_of_large {unit : CodeUnit} (large : 0xD800 ≤ unit.toNat) :
    escapedUnit unit = [unit] := by
  have different (code : CodeUnit) (small : code.toNat < 0xD800) : unit ≠ code := by
    rintro rfl
    omega
  unfold escapedUnit
  rw [if_neg (different _ (by decide)), if_neg (different _ (by decide)),
    if_neg (different _ (by decide)), if_neg (different _ (by decide)),
    if_neg (different _ (by decide)), if_neg (different _ (by decide)),
    if_neg (different _ (by decide)), if_neg (by omega)]

/-- What stands for a unit is well formed, if the unit is. -/
theorem wellFormed_escapedUnit {unit : CodeUnit} (small : unit.toNat < 0xD800) :
    WellFormed (escapedUnit unit) := by
  unfold escapedUnit
  split_ifs <;> first | exact wellFormed_unitsOf _ | exact .cons small wellFormed_nil

/-- A character is escaped as one unit, or its two surrogates stay together. -/
theorem wellFormed_quotedUnits {units : Units} (wellFormed : WellFormed units) :
    WellFormed (quotedUnits units) := by
  obtain ⟨text, rfl⟩ := wellFormed_iff.mp wellFormed
  have inner : WellFormed ((unitsOf text).flatMap escapedUnit) := by
    rw [unitsOf, List.flatMap_assoc]
    refine wellFormed_flatMap fun char _ => ?_
    by_cases small : char.toNat < 0xD800
    · have code : (UInt16.ofNat char.toNat).toNat = char.toNat :=
        UInt16.toNat_ofNat_of_lt' (show _ < 0x10000 by omega)
      rw [unitsOfChar, if_pos (by omega), List.flatMap_singleton]
      exact wellFormed_escapedUnit (code.trans_lt small)
    · have large : ∀ unit ∈ unitsOfChar char, 0xD800 ≤ unit.toNat := by
        have valid : char.toNat.isValidChar := char.valid
        have limits : char.toNat < 0xD800 ∨ 0xDFFF < char.toNat ∧ char.toNat < 0x110000 := valid
        intro unit member
        rw [unitsOfChar] at member
        split at member
        · rw [List.mem_singleton.mp member, UInt16.toNat_ofNat_of_lt' (show _ < 0x10000 by omega)]
          omega
        · rcases List.mem_pair.mp member with rfl | rfl <;>
            rw [UInt16.toNat_ofNat_of_lt' (show _ < 0x10000 by omega)] <;> omega
      have same : (unitsOfChar char).flatMap escapedUnit = unitsOfChar char := by
        rw [List.flatMap_congr fun unit member => escapedUnit_of_large (large unit member)]
        exact List.flatMap_singleton' _
      rw [same]
      exact wellFormed_unitsOfChar char
  exact .cons (by decide) (inner.append (.cons (by decide) wellFormed_nil))

theorem wellFormed_newLine (level : Nat) : WellFormed (newLine level) := by
  refine .cons (by decide) ?_
  induction 2 * level with
  | zero => exact wellFormed_nil
  | succ count inductionHypothesis => exact .cons (by decide) inductionHypothesis

/-! ### Blanks -/

/-- The start of a line is blank. -/
theorem blanks_newLine (level : Nat) (rest : Units) : Blanks (newLine level ++ rest) rest := by
  refine .more (.inr (.inl rfl)) ?_
  induction 2 * level with
  | zero => exact .none rest
  | succ count inductionHypothesis => exact .more (.inr (.inr (.inr rfl))) inductionHypothesis

/-- A key at the start of a line, a colon and a blank. -/
theorem memberKey_newLine (level : Nat) (key start : Units) :
    MemberKey key (newLine level ++ (quotedUnits key ++ 0x3A :: 0x20 :: start)) start := by
  rw [quotedUnits_append]
  exact .parts (blanks_newLine level _) (stringBody_quotedUnits key _) (.none _)
    (.more (.inr (.inr (.inr rfl))) (.none start))

/-! ### Values -/

mutual

/-- The text of a tree over lines spells the tree, once each negative zero is made positive. -/
theorem Tree.Tidy.value_indented {tree : Tree} (tidy : tree.Tidy) (level : Nat) (rest : Units) :
    Grammar.Value tree.settled (tree.indented level ++ rest) rest := by
  cases tree with
  | array elements =>
    cases elements with
    | nil => exact .emptyArray (.none _)
    | cons first others =>
      rw [Tree.Tidy, ElementsTidy] at tidy
      rw [Tree.indented]
      simp only [List.cons_append, List.append_assoc]
      exact .array (elements_indented level
        (fun after => tidy.1.value_indented (level + 1) after) tidy.2 rest)
  | object members =>
    cases members with
    | nil => exact .emptyObject (.none _)
    | cons member others =>
      rw [Tree.Tidy, MembersTidy] at tidy
      rw [Tree.indented]
      simp only [List.cons_append, List.append_assoc, List.nil_append]
      exact .object (members_indented level member.1
        (fun after => tidy.2.2.1.value_indented (level + 1) after) tidy.2.2.2 rest)
  | _ =>
    rw [Tree.indented.eq_def]
    exact tidy.value_compact rest

/-- An element on a line of its own, and the lines after it. -/
theorem elements_indented (level : Nat) {first : Tree} {text : Units}
    (spelled : ∀ after, Grammar.Value first (text ++ after) after) {others : List Tree}
    (tidy : ElementsTidy others) (rest : Units) :
    Elements Grammar.Value (first :: elementsSettled others)
      (newLine (level + 1) ++ (text ++ (indentedElements level others ++ rest))) rest := by
  cases others with
  | nil =>
    rw [indentedElements, List.append_assoc]
    exact .last (blanks_newLine _ _) (spelled _) (blanks_newLine level _)
  | cons next others =>
    rw [ElementsTidy] at tidy
    rw [indentedElements]
    simp only [List.cons_append, List.append_assoc]
    exact .more (blanks_newLine _ _) (spelled _) (.none _)
      (elements_indented level (fun after => tidy.1.value_indented (level + 1) after) tidy.2 rest)

/-- A member on a line of its own, and the lines after it. -/
theorem members_indented (level : Nat) (key : Units) {first : Tree} {text : Units}
    (spelled : ∀ after, Grammar.Value first (text ++ after) after)
    {others : List (Units × Tree)} (tidy : MembersTidy others) (rest : Units) :
    Members Grammar.Value ((key, first) :: membersSettled others)
      (newLine (level + 1) ++ (quotedUnits key ++ 0x3A :: 0x20 ::
        (text ++ (indentedMembers level others ++ rest)))) rest := by
  cases others with
  | nil =>
    rw [indentedMembers, List.append_assoc]
    exact .last (memberKey_newLine _ key _) (spelled _) (blanks_newLine level _)
  | cons next others =>
    rw [MembersTidy] at tidy
    rw [indentedMembers]
    simp only [List.cons_append, List.append_assoc, List.nil_append]
    exact .more (memberKey_newLine _ key _) (spelled _) (.none _)
      (members_indented level next.1 (fun after => tidy.2.1.value_indented (level + 1) after)
        tidy.2.2 rest)

end

mutual

/-- No surrogate is alone in the text of a tidy tree. -/
theorem Tree.Tidy.wellFormed_indented {tree : Tree} (tidy : tree.Tidy) (level : Nat) :
    WellFormed (tree.indented level) := by
  cases tree with
  | null => exact wellFormed_unitsOf "null"
  | boolean flag => exact wellFormed_unitsOf _
  | number value => exact wellFormed_unitsOf _
  | string units =>
    rw [Tree.Tidy] at tidy
    exact wellFormed_quotedUnits tidy
  | array elements =>
    cases elements with
    | nil => exact wellFormed_unitsOf "[]"
    | cons first others =>
      rw [Tree.Tidy, ElementsTidy] at tidy
      exact ((wellFormed_newLine _).cons (by decide)
        |>.append (tidy.1.wellFormed_indented _)).append (tidy.2.wellFormed_indented level)
  | object members =>
    cases members with
    | nil => exact wellFormed_unitsOf "\x7b\x7d"
    | cons member others =>
      rw [Tree.Tidy, MembersTidy] at tidy
      exact ((((wellFormed_newLine _).cons (by decide)
        |>.append (wellFormed_quotedUnits tidy.2.1)).append (wellFormed_unitsOf ": ")).append
        (tidy.2.2.1.wellFormed_indented _)).append (tidy.2.2.2.wellFormed_indented level)

theorem ElementsTidy.wellFormed_indented {elements : List Tree} (tidy : ElementsTidy elements)
    (level : Nat) : WellFormed (indentedElements level elements) := by
  cases elements with
  | nil => exact (wellFormed_newLine level).append (wellFormed_unitsOf "]")
  | cons first others =>
    rw [ElementsTidy] at tidy
    exact ((wellFormed_newLine _).cons (by decide)
      |>.append (tidy.1.wellFormed_indented _)).append (tidy.2.wellFormed_indented level)

theorem MembersTidy.wellFormed_indented {members : List (Units × Tree)}
    (tidy : MembersTidy members) (level : Nat) : WellFormed (indentedMembers level members) := by
  cases members with
  | nil => exact (wellFormed_newLine level).append (wellFormed_unitsOf "\x7d")
  | cons member others =>
    rw [MembersTidy] at tidy
    exact ((((wellFormed_newLine _).cons (by decide)
      |>.append (wellFormed_quotedUnits tidy.1)).append (wellFormed_unitsOf ": ")).append
      (tidy.2.1.wellFormed_indented _)).append (tidy.2.2.wellFormed_indented level)

end

end Json

end EcmaCore
