/-
This file holds the grammar of the literals that a string may spell when it is converted to
a number, apart from any reader. Each relation is between what is spelled and the whole of
its spelling, so a literal is its parts put one after another.

The reader accepts just these literals, and reads the parts that are spelled. Nothing has
to be tried twice: a digit, a point, a sign and the letter of an exponent are told from
one another by one character, and no decimal literal has the letter that names a base.
-/

import EcmaCore.Number.Literal
import EcmaCore.Proofs.Number.Spelling
import Mathlib.Data.List.Forall2

namespace EcmaCore

namespace Literal

/-! ### The grammar -/

/-- The character is the digit of that value in a base, in either case if it is a letter. -/
def DigitOf (base value : Nat) (char : Char) : Prop :=
  value < base ∧ (char = value.digitChar ∨ char = value.digitChar.toUpper)

/-- The characters are digits in a base, each with its value. -/
abbrev Digits (base : Nat) (values : List Nat) (text : List Char) : Prop :=
  List.Forall₂ (DigitOf base) values text

/-- A sign, if there is one, and whether it is a minus. -/
inductive Sign : Bool → List Char → Prop
  | absent : Sign false []
  | plus : Sign false ['+']
  | minus : Sign true ['-']

/-- A point with any number of digits after it, or nothing. -/
inductive Fraction : List Nat → List Char → Prop
  | absent : Fraction [] []
  | present {digits : List Nat} {text : List Char} (spelled : Digits 10 digits text) :
      Fraction digits ('.' :: text)

/-- The letter `e` in either case, a sign and at least one digit, or nothing. -/
inductive Exponent : Bool → List Nat → List Char → Prop
  | absent : Exponent false [] []
  | present {letter : Char} {negative : Bool} {digits : List Nat} {sign text : List Char}
      (named : letter = 'e' ∨ letter = 'E') (signed : Sign negative sign)
      (spelled : Digits 10 digits text) (nonempty : digits ≠ []) :
      Exponent negative digits (letter :: (sign ++ text))

/-- A decimal literal: a sign, digits with a fraction or a fraction alone, and an exponent. -/
inductive IsDecimal : Numeral → List Char → Prop
  | parts {negative exponentNegative : Bool} {whole fraction exponent : List Nat}
      {sign first second third : List Char} (signed : Sign negative sign)
      (before : Digits 10 whole first) (after : Fraction fraction second)
      (scaled : Exponent exponentNegative exponent third) (nonempty : whole ≠ [] ∨ fraction ≠ []) :
      IsDecimal ⟨negative, whole, fraction, exponentNegative, exponent⟩
        (sign ++ (first ++ (second ++ third)))

/-- The letter that names a base after a zero. -/
inductive NamesBase : Nat → Char → Prop
  | hexadecimal : NamesBase 16 'x'
  | hexadecimalUpper : NamesBase 16 'X'
  | octal : NamesBase 8 'o'
  | octalUpper : NamesBase 8 'O'
  | binary : NamesBase 2 'b'
  | binaryUpper : NamesBase 2 'B'

/-- A text that a string may spell between its blanks: nothing, infinity with any sign, digits in a
named base without a sign, or a decimal literal. -/
inductive IsNumeric : List Char → Prop
  | empty : IsNumeric []
  | infinity {negative : Bool} {sign : List Char} (signed : Sign negative sign) :
      IsNumeric (sign ++ "Infinity".toList)
  | radix {base : Nat} {letter : Char} {values : List Nat} {text : List Char}
      (named : NamesBase base letter) (spelled : Digits base values text) (nonempty : values ≠ []) :
      IsNumeric ('0' :: letter :: text)
  | decimal {numeral : Numeral} {text : List Char} (spelled : IsDecimal numeral text) :
      IsNumeric text

/-! ### Digits -/

theorem toNat_digitChar {value : Nat} (small : value < 16) :
    value.digitChar.toNat = if value < 10 then 0x30 + value else 0x57 + value := by
  have all : ∀ value < 16,
      value.digitChar.toNat = if value < 10 then 0x30 + value else 0x57 + value := by decide
  exact all value small

theorem toNat_toUpper_digitChar {value : Nat} (small : value < 16) :
    value.digitChar.toUpper.toNat = if value < 10 then 0x30 + value else 0x37 + value := by
  have all : ∀ value < 16,
      value.digitChar.toUpper.toNat = if value < 10 then 0x30 + value else 0x37 + value := by
    decide
  exact all value small

/-- A digit is read as its value. -/
theorem digitValue?_eq_some {base value : Nat} {char : Char} (small : base ≤ 16) :
    digitValue? base char = some value ↔ DigitOf base value char := by
  have code : DigitOf base value char ↔ value < base ∧
      (char.toNat = (if value < 10 then 0x30 + value else 0x57 + value) ∨
        char.toNat = if value < 10 then 0x30 + value else 0x37 + value) := by
    refine and_congr_right fun below => ?_
    rw [← toNat_digitChar (below.trans_le small), ← toNat_toUpper_digitChar (below.trans_le small),
      Char.toNat_inj, Char.toNat_inj]
  rw [code, digitValue?]
  simp only [digitOfCode?]
  grind

theorem Digits.mapM_eq {base : Nat} {values : List Nat} {text : List Char} (small : base ≤ 16)
    (spelled : Digits base values text) : text.mapM (digitValue? base) = some values := by
  induction spelled with
  | nil => rfl
  | cons digit _ inductionHypothesis =>
    rw [List.mapM_cons, (digitValue?_eq_some small).mpr digit, inductionHypothesis]
    rfl

theorem digits_of_mapM {base : Nat} {values : List Nat} {text : List Char} (small : base ≤ 16)
    (read : text.mapM (digitValue? base) = some values) : Digits base values text := by
  induction text generalizing values with
  | nil =>
    cases read
    exact .nil
  | cons char text inductionHypothesis =>
    rw [List.mapM_cons] at read
    obtain ⟨value, first, read⟩ := Option.bind_eq_some_iff.mp read
    obtain ⟨others, rest, last⟩ := Option.bind_eq_some_iff.mp read
    cases last
    exact .cons ((digitValue?_eq_some small).mp first) (inductionHypothesis rest)

/-! ### Parts of a decimal literal -/

/-- The text does not start with a decimal digit. -/
def NoDigit (text : List Char) : Prop := ∀ char ∈ text.head?, digitValue? 10 char = none

theorem spanDigits_of_noDigit {text : List Char} (other : NoDigit text) :
    spanDigits text = ([], text) := by
  cases text with
  | nil => rfl
  | cons char text => rw [spanDigits, other char rfl]

/-- Digits that nothing prolongs are all the digits that the text starts with. -/
theorem Digits.spanDigits_eq {digits : List Nat} {text rest : List Char}
    (spelled : Digits 10 digits text) (other : NoDigit rest) :
    spanDigits (text ++ rest) = (digits, rest) := by
  induction spelled with
  | nil => exact spanDigits_of_noDigit other
  | cons digit _ inductionHypothesis =>
    rw [List.cons_append, spanDigits, (digitValue?_eq_some (by decide)).mpr digit,
      inductionHypothesis]

theorem exists_digits_of_spanDigits {digits : List Nat} {text rest : List Char}
    (read : spanDigits text = (digits, rest)) :
    ∃ chars, Digits 10 digits chars ∧ text = chars ++ rest := by
  induction text generalizing digits with
  | nil =>
    cases read
    exact ⟨[], .nil, rfl⟩
  | cons char text inductionHypothesis =>
    rw [spanDigits] at read
    split at read
    · rename_i value first
      cases read
      obtain ⟨chars, spelled, split⟩ := inductionHypothesis rfl
      exact ⟨char :: chars, .cons ((digitValue?_eq_some (by decide)).mp first) spelled,
        congrArg (char :: ·) split⟩
    · cases read
      exact ⟨[], .nil, rfl⟩

/-- A sign is read as far as no other one could be meant. -/
theorem Sign.spanSign_eq {negative : Bool} {sign rest : List Char} (signed : Sign negative sign)
    (unsigned : ∀ char ∈ rest.head?, char ≠ '-' ∧ char ≠ '+') :
    spanSign (sign ++ rest) = (negative, rest) := by
  cases signed with
  | plus => rfl
  | minus => rfl
  | absent =>
    rw [List.nil_append, spanSign.eq_def]
    split
    · exact absurd rfl (unsigned _ rfl).1
    · exact absurd rfl (unsigned _ rfl).2
    · rfl

theorem exists_sign_of_spanSign {negative : Bool} {text rest : List Char}
    (read : spanSign text = (negative, rest)) :
    ∃ sign, Sign negative sign ∧ text = sign ++ rest := by
  rw [spanSign.eq_def] at read
  split at read <;> cases read
  · exact ⟨_, .minus, rfl⟩
  · exact ⟨_, .plus, rfl⟩
  · exact ⟨_, .absent, rfl⟩

theorem Fraction.spanFraction_eq {digits : List Nat} {text rest : List Char}
    (spelled : Fraction digits text) (other : NoDigit rest)
    (noPoint : ∀ char ∈ rest.head?, char ≠ '.') : spanFraction (text ++ rest) = (digits, rest) := by
  cases spelled with
  | absent =>
    rw [List.nil_append, spanFraction.eq_def]
    split
    · exact absurd rfl (noPoint _ rfl)
    · rfl
  | present spelled => exact spelled.spanDigits_eq other

theorem exists_fraction_of_spanFraction {digits : List Nat} {text rest : List Char}
    (read : spanFraction text = (digits, rest)) :
    ∃ chars, Fraction digits chars ∧ text = chars ++ rest := by
  rw [spanFraction.eq_def] at read
  split at read
  · obtain ⟨chars, spelled, split⟩ := exists_digits_of_spanDigits read
    exact ⟨'.' :: chars, .present spelled, congrArg ('.' :: ·) split⟩
  · cases read
    exact ⟨[], .absent, rfl⟩

/-- A digit is neither a sign nor a point. -/
theorem DigitOf.ne {value : Nat} {char : Char} (digit : DigitOf 10 value char) :
    char ≠ '-' ∧ char ≠ '+' ∧ char ≠ '.' := by
  have read := (digitValue?_eq_some (by decide)).mpr digit
  refine ⟨?_, ?_, ?_⟩ <;>
  · rintro rfl
    cases read

theorem Digits.head_ne {values : List Nat} {text : List Char} (spelled : Digits 10 values text) :
    ∀ char ∈ text.head?, char ≠ '-' ∧ char ≠ '+' := by
  cases spelled with
  | nil => exact nofun
  | cons digit _ =>
    intro char member
    cases member
    exact ⟨digit.ne.1, digit.ne.2.1⟩

theorem exponent?_eq_some {negative : Bool} {digits : List Nat} {text : List Char} :
    exponent? text = some (negative, digits) ↔ Exponent negative digits text := by
  constructor
  · intro read
    cases text with
    | nil =>
      cases read
      exact .absent
    | cons letter rest =>
      rw [exponent?] at read
      split at read
      · rename_i named
        rcases first : spanSign rest with ⟨below, unsigned⟩
        rw [first] at read
        dsimp only at read
        split at read
        · rename_i value values second
          cases read
          obtain ⟨sign, signed, rfl⟩ := exists_sign_of_spanSign first
          obtain ⟨chars, spelled, rfl⟩ := exists_digits_of_spanDigits second
          rw [List.append_nil]
          exact .present named signed spelled (List.cons_ne_nil _ _)
        · cases read
      · cases read
  · intro spelled
    cases spelled with
    | absent => rfl
    | @present letter _ _ sign chars named signed spelled nonempty =>
      have span : spanDigits (chars ++ []) = (digits, []) := spelled.spanDigits_eq nofun
      rw [List.append_nil] at span
      rw [exponent?, if_pos named, signed.spanSign_eq spelled.head_ne]
      dsimp only
      rw [span]
      cases digits with
      | nil => exact absurd rfl nonempty
      | cons value values => rfl

/-! ### Decimal literals -/

theorem Exponent.head_eq {negative : Bool} {digits : List Nat} {text : List Char}
    (spelled : Exponent negative digits text) : ∀ char ∈ text.head?, char = 'e' ∨ char = 'E' := by
  cases spelled with
  | absent => exact nofun
  | present named _ _ _ =>
    intro char member
    cases member
    exact named

theorem Exponent.noDigit {negative : Bool} {digits : List Nat} {text : List Char}
    (spelled : Exponent negative digits text) : NoDigit text := by
  intro char member
  rcases spelled.head_eq char member with rfl | rfl <;> rfl

/-- A point or the letter of an exponent ends the digits before it. -/
theorem Fraction.noDigit_append {digits : List Nat} {text rest : List Char}
    (spelled : Fraction digits text) (other : NoDigit rest) : NoDigit (text ++ rest) := by
  cases spelled with
  | absent => exact other
  | present _ =>
    intro char member
    cases member
    rfl

/-- What follows the sign of a decimal literal starts with a digit or a point. -/
theorem head_ne_of_nonempty {whole fraction : List Nat} {first second third : List Char}
    (before : Digits 10 whole first) (after : Fraction fraction second)
    (nonempty : whole ≠ [] ∨ fraction ≠ []) :
    ∀ char ∈ (first ++ (second ++ third)).head?, char ≠ '-' ∧ char ≠ '+' := by
  intro char member
  cases before with
  | cons digit _ =>
    cases member
    exact ⟨digit.ne.1, digit.ne.2.1⟩
  | nil =>
    cases after with
    | absent => simp at nonempty
    | present _ =>
      cases member
      decide

/-- The reader of decimal literals agrees with their grammar. -/
theorem numeral?_eq_some {numeral : Numeral} {text : List Char} :
    numeral? text = some numeral ↔ IsDecimal numeral text := by
  constructor
  · intro read
    rcases first : spanSign text with ⟨negative, unsigned⟩
    rcases second : spanDigits unsigned with ⟨whole, afterWhole⟩
    rcases third : spanFraction afterWhole with ⟨fraction, afterFraction⟩
    rw [numeral?, first] at read
    dsimp only at read
    rw [second] at read
    dsimp only at read
    rw [third] at read
    dsimp only at read
    split at read
    · cases read
    · rename_i nonempty
      obtain ⟨⟨exponentNegative, exponent⟩, scaled, rfl⟩ := Option.map_eq_some_iff.mp read
      obtain ⟨sign, signed, rfl⟩ := exists_sign_of_spanSign first
      obtain ⟨digits, before, rfl⟩ := exists_digits_of_spanDigits second
      obtain ⟨point, after, rfl⟩ := exists_fraction_of_spanFraction third
      refine .parts signed before after (exponent?_eq_some.mp scaled) ?_
      simpa [imp_iff_not_or] using nonempty
  · rintro ⟨signed, before, after, scaled, nonempty⟩
    rw [numeral?, signed.spanSign_eq (head_ne_of_nonempty before after nonempty)]
    dsimp only
    rw [before.spanDigits_eq (after.noDigit_append scaled.noDigit)]
    dsimp only
    rw [after.spanFraction_eq scaled.noDigit fun char member => by
      rcases scaled.head_eq char member with rfl | rfl <;> decide]
    dsimp only
    rw [exponent?_eq_some.mpr scaled, if_neg (by simpa [imp_iff_not_or] using nonempty)]
    rfl

end Literal

end EcmaCore
