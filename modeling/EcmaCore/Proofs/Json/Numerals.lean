/-
This file proves that every number of JSON is a decimal literal of the same numeral. JSON asks
for more than scripts do: digits on both sides of a point, no needless zero before the others
and no plus sign in front. It knows fewer blanks as well. So a text that JSON reads as a
number is converted to that number when it is a string.
-/

import EcmaCore.Proofs.Json.Planting
import EcmaCore.Proofs.Json.Writing
import EcmaCore.Proofs.Number.Conversion

namespace EcmaCore

open CodeUnit

namespace Json

namespace Grammar

variable {text rest : Units}

/-! ### Parts of a number -/

theorem Digits.exists_literal {digits : List Nat} (spelled : Digits digits text rest) :
    ∃ chars, Literal.Digits 10 digits chars ∧ text = chars.flatMap unitsOfChar ++ rest := by
  induction spelled with
  | none text => exact ⟨[], .nil, rfl⟩
  | @more digit _ _ _ small _ inductionHypothesis =>
    obtain ⟨chars, spelled, rfl⟩ := inductionHypothesis
    have unit : ∀ place < 10, unitsOfChar (Nat.digitChar place) =
        [UInt16.ofNat (0x30 + place)] := by decide
    refine ⟨digit.digitChar :: chars, .cons ⟨small, Or.inl rfl⟩ spelled, ?_⟩
    rw [List.flatMap_cons, unit digit small]
    rfl

theorem Whole.exists_literal {digits : List Nat} (spelled : Whole digits text rest) :
    digits ≠ [] ∧
      ∃ chars, Literal.Digits 10 digits chars ∧ text = chars.flatMap unitsOfChar ++ rest := by
  cases spelled with
  | zero rest =>
    exact ⟨List.cons_ne_nil _ _, ['0'], .cons ⟨by decide, Or.inl rfl⟩ .nil, rfl⟩
  | digits _ spelled => exact ⟨List.cons_ne_nil _ _, spelled.exists_literal⟩

theorem Fraction.exists_literal {digits : List Nat} (spelled : Fraction digits text rest) :
    ∃ chars, Literal.Fraction digits chars ∧ text = chars.flatMap unitsOfChar ++ rest := by
  cases spelled with
  | absent text => exact ⟨[], .absent, rfl⟩
  | present spelled =>
    obtain ⟨chars, digits, rfl⟩ := spelled.exists_literal
    exact ⟨'.' :: chars, .present digits, rfl⟩

theorem ExponentSign.exists_literal {negative : Bool} (signed : ExponentSign negative text rest) :
    ∃ sign, Literal.Sign negative sign ∧ text = sign.flatMap unitsOfChar ++ rest := by
  cases signed with
  | absent text => exact ⟨[], .absent, rfl⟩
  | plus text => exact ⟨['+'], .plus, rfl⟩
  | minus text => exact ⟨['-'], .minus, rfl⟩

theorem Exponent.exists_literal {negative : Bool} {digits : List Nat}
    (spelled : Exponent negative digits text rest) :
    ∃ chars, Literal.Exponent negative digits chars ∧
      text = chars.flatMap unitsOfChar ++ rest := by
  cases spelled with
  | absent text => exact ⟨[], .absent, rfl⟩
  | present named signed spelled =>
    obtain ⟨sign, before, rfl⟩ := signed.exists_literal
    obtain ⟨chars, digits, rfl⟩ := spelled.exists_literal
    have present {letter : Char} (named : letter = 'e' ∨ letter = 'E') :=
      Literal.Exponent.present named before digits (List.cons_ne_nil _ _)
    rw [← List.append_assoc, ← List.flatMap_append]
    rcases named with rfl | rfl
    · exact ⟨'E' :: (sign ++ chars), present (Or.inr rfl), rfl⟩
    · exact ⟨'e' :: (sign ++ chars), present (Or.inl rfl), rfl⟩

/-! ### Numbers -/

/-- With its sign before it, a number without one is a decimal literal. -/
theorem Unsigned.exists_literal {negative : Bool} {numeral : Numeral} {sign : List Char}
    (signed : Literal.Sign negative sign) (spelled : Unsigned negative numeral text rest) :
    ∃ chars, Literal.IsDecimal numeral (sign ++ chars) ∧
      text = chars.flatMap unitsOfChar ++ rest := by
  obtain ⟨first, second, third⟩ := spelled
  obtain ⟨nonempty, whole, before, rfl⟩ := first.exists_literal
  obtain ⟨fraction, after, rfl⟩ := second.exists_literal
  obtain ⟨exponent, scaled, rfl⟩ := third.exists_literal
  refine ⟨whole ++ (fraction ++ exponent), .parts signed before after scaled (Or.inl nonempty), ?_⟩
  rw [List.flatMap_append, List.flatMap_append, List.append_assoc, List.append_assoc]

/-- A number of JSON is a decimal literal. -/
theorem Number.exists_literal {numeral : Numeral} (spelled : Number numeral text rest) :
    ∃ chars, Literal.IsDecimal numeral chars ∧ text = chars.flatMap unitsOfChar ++ rest := by
  cases spelled with
  | positive spelled => exact spelled.exists_literal .absent
  | negative spelled =>
    obtain ⟨chars, decimal, rfl⟩ := spelled.exists_literal .minus
    exact ⟨'-' :: chars, decimal, rfl⟩


/-! ### Whole texts -/

/-- A blank of JSON is a blank of scripts. -/
theorem Blanks.exists_trimmed (blanks : Blanks text rest) :
    ∃ units : Units, (∀ unit ∈ units, IsTextBlank unit) ∧ text = units ++ rest := by
  induction blanks with
  | none text => exact ⟨[], nofun, rfl⟩
  | @more unit _ _ blank _ inductionHypothesis =>
    obtain ⟨units, others, rfl⟩ := inductionHypothesis
    refine ⟨unit :: units, List.forall_mem_cons.mpr ⟨?_, others⟩, rfl⟩
    rcases blank with rfl | rfl | rfl | rfl <;> decide

/-- Scripts read a number of JSON as JSON does. -/
theorem Document.ofText_eq {number : EcmaCore.Number} (spelled : Document (.number number) text) :
    EcmaCore.Number.ofText (lossyChars text) = number := by
  obtain ⟨before, value, closed⟩ := spelled
  cases value with
  | number spelled denotes =>
    obtain ⟨front, first, rfl⟩ := before.exists_trimmed
    obtain ⟨chars, decimal, rfl⟩ := spelled.exists_literal
    obtain ⟨back, last, rfl⟩ := closed.exists_trimmed
    rw [List.append_nil, denotes.eq_toNumber]
    refine EcmaCore.Number.ofText_of_isDecimal ?_
    rwa [trimBlanks_units first decimal.isPlain last]

end Grammar

end Json

/-- A numeral of JSON is written as a decimal literal. -/
theorem Numeral.Regular.isDecimal {numeral : Numeral} (regular : numeral.Regular) :
    Literal.IsDecimal numeral numeral.written := by
  obtain ⟨chars, decimal, same⟩ := (Json.number_written regular []).exists_literal
  rw [List.append_nil, List.append_nil] at same
  have written := congrArg lossyChars same
  rw [lossyChars_flatMap, lossyChars_flatMap] at written
  rwa [written]

end EcmaCore
