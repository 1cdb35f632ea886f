/-
This file follows a text through its conversion to a number. Blanks at its ends are trimmed,
and what is left is empty, a word for infinity, a literal in base 16, 8 or 2, or a decimal
literal. These exclude one another: no other literal has the first letter of infinity, and no
decimal literal has a letter that names a base. So each is read as what it is, and what is
none of them is NaN.
-/

import EcmaCore.Proofs.Number.Literals
import EcmaCore.Proofs.Number.Radix
import EcmaCore.Proofs.Text.Blanks

namespace EcmaCore

theorem Number.IsNearest.ne_nan {negative : Bool} {value : ℚ} {number : Number}
    (nearest : number.IsNearest negative value) : number ≠ .nan := by
  cases nearest <;> exact nofun

namespace Literal

/-! ### Characters of literals -/

theorem NamesBase.small {base : Nat} {letter : Char} (named : NamesBase base letter) :
    base ≤ 16 := by
  cases named <;> decide

/-- A digit in any of the bases is plain, and not the first letter of infinity. -/
theorem DigitOf.isPlain {base value : Nat} {char : Char} (small : base ≤ 16)
    (digit : DigitOf base value char) : IsPlain char ∧ char ≠ 'I' := by
  have read := (digitValue?_eq_some small).mpr digit
  rw [digitValue?, digitOfCode?] at read
  rw [IsPlain, ← Char.toNat_inj.ne]
  simp only [Char.reduceToNat]
  grind

theorem Digits.forall_mem {base : Nat} {values : List Nat} {text : List Char} {holds : Char → Prop}
    (spelled : Digits base values text)
    (each : ∀ {value char}, DigitOf base value char → holds char) : ∀ char ∈ text, holds char := by
  induction spelled with
  | nil => exact nofun
  | cons digit _ inductionHypothesis =>
    exact List.forall_mem_cons.mpr ⟨each digit, inductionHypothesis⟩

/-- The character may stand in a decimal literal. -/
def IsDecimalChar (char : Char) : Prop :=
  (digitValue? 10 char).isSome = true ∨ char ∈ ['.', 'e', 'E', '+', '-']

instance (char : Char) : Decidable (IsDecimalChar char) :=
  inferInstanceAs (Decidable (_ ∨ _))

theorem Digits.isDecimalChar {digits : List Nat} {text : List Char}
    (spelled : Digits 10 digits text) : ∀ char ∈ text, IsDecimalChar char :=
  spelled.forall_mem fun digit => Or.inl <| by
    rw [(digitValue?_eq_some (by decide)).mpr digit]
    rfl

theorem Sign.isDecimalChar {negative : Bool} {sign : List Char} (signed : Sign negative sign) :
    ∀ char ∈ sign, IsDecimalChar char := by
  cases signed with
  | absent => exact nofun
  | plus | minus => exact List.forall_mem_singleton.mpr (by decide)

theorem Fraction.isDecimalChar {digits : List Nat} {text : List Char}
    (spelled : Fraction digits text) : ∀ char ∈ text, IsDecimalChar char := by
  cases spelled with
  | absent => exact nofun
  | present spelled => exact List.forall_mem_cons.mpr ⟨by decide, spelled.isDecimalChar⟩

theorem Exponent.isDecimalChar {negative : Bool} {digits : List Nat} {text : List Char}
    (spelled : Exponent negative digits text) : ∀ char ∈ text, IsDecimalChar char := by
  cases spelled with
  | absent => exact nofun
  | present named signed spelled _ =>
    refine List.forall_mem_cons.mpr ⟨?_, fun char member => ?_⟩
    · rcases named with rfl | rfl <;> decide
    · rcases List.mem_append.mp member with member | member
      · exact signed.isDecimalChar char member
      · exact spelled.isDecimalChar char member

theorem IsDecimal.isDecimalChar {numeral : Numeral} {text : List Char}
    (spelled : IsDecimal numeral text) : ∀ char ∈ text, IsDecimalChar char := by
  obtain ⟨signed, before, after, scaled, -⟩ := spelled
  intro char member
  simp only [List.mem_append] at member
  rcases member with member | member | member | member
  · exact signed.isDecimalChar char member
  · exact before.isDecimalChar char member
  · exact after.isDecimalChar char member
  · exact scaled.isDecimalChar char member

theorem IsDecimalChar.isPlain {char : Char} (decimal : IsDecimalChar char) : IsPlain char := by
  rcases decimal with digit | member
  · obtain ⟨value, read⟩ := Option.isSome_iff_exists.mp digit
    exact (((digitValue?_eq_some (by decide)).mp read).isPlain (by decide)).1
  · simp only [List.mem_cons, List.not_mem_nil, or_false] at member
    rcases member with rfl | rfl | rfl | rfl | rfl <;> decide

theorem IsDecimal.isPlain {numeral : Numeral} {text : List Char}
    (spelled : IsDecimal numeral text) : ∀ char ∈ text, IsPlain char :=
  fun char member => (spelled.isDecimalChar char member).isPlain

/-- A literal has no blank and no character beyond ASCII. -/
theorem IsNumeric.isPlain {text : List Char} (numeric : IsNumeric text) :
    ∀ char ∈ text, IsPlain char := by
  cases numeric with
  | empty => exact nofun
  | infinity signed =>
    have word : "Infinity".toList.all (fun char => decide (IsPlain char)) = true := by decide
    intro char member
    rcases List.mem_append.mp member with member | member
    · exact (signed.isDecimalChar char member).isPlain
    · exact of_decide_eq_true (List.all_eq_true.mp word char member)
  | radix named spelled nonempty =>
    refine List.forall_mem_cons.mpr ⟨by decide, List.forall_mem_cons.mpr ⟨?_, ?_⟩⟩
    · cases named <;> decide
    · exact spelled.forall_mem fun digit => (digit.isPlain named.small).1
  | decimal spelled => exact spelled.isPlain

/-! ### Whole literals -/

theorem radix?_eq_some {text rest : List Char} {base : Nat} :
    radix? text = some (base, rest) ↔
      ∃ letter, NamesBase base letter ∧ text = '0' :: letter :: rest := by
  constructor
  · intro read
    rw [radix?.eq_def] at read
    split at read <;> cases read
    · exact ⟨_, .hexadecimal, rfl⟩
    · exact ⟨_, .hexadecimalUpper, rfl⟩
    · exact ⟨_, .octal, rfl⟩
    · exact ⟨_, .octalUpper, rfl⟩
    · exact ⟨_, .binary, rfl⟩
    · exact ⟨_, .binaryUpper, rfl⟩
  · rintro ⟨letter, named, rfl⟩
    cases named <;> rfl

/-- A text without the first letter of infinity is read as a literal with a base or without. -/
theorem literal?_of_noWord {text : List Char} (nonempty : text ≠ []) (noWord : 'I' ∉ text) :
    literal? text = (radix? text).elim ((numeral? text).map Numeral.toNumber)
      fun (base, digits) => radixLiteral? base digits := by
  have other (word : List Char) (first : 'I' ∈ word) : text ≠ word := fun same =>
    noWord (same ▸ first)
  have word : ¬ (text = "Infinity".toList ∨ text = "+Infinity".toList) :=
    not_or.mpr ⟨other _ (by decide), other _ (by decide)⟩
  rw [literal?, if_neg (by simpa using nonempty), if_neg word, if_neg (other _ (by decide))]
  cases radix? text <;> rfl

theorem NamesBase.not_isDecimalChar {base : Nat} {letter : Char} (named : NamesBase base letter) :
    ¬ IsDecimalChar letter := by
  cases named <;> decide

theorem IsDecimal.ne_nil {numeral : Numeral} {text : List Char} (spelled : IsDecimal numeral text) :
    text ≠ [] := by
  rintro rfl
  have read := numeral?_eq_some.mpr spelled
  cases read

/-- A decimal literal is read as the number that it denotes. -/
theorem IsDecimal.literal?_eq {numeral : Numeral} {text : List Char}
    (spelled : IsDecimal numeral text) : literal? text = some numeral.toNumber := by
  have noBase : radix? text = none := by
    refine Option.eq_none_iff_forall_ne_some.mpr fun ⟨base, rest⟩ read => ?_
    obtain ⟨letter, named, rfl⟩ := radix?_eq_some.mp read
    exact named.not_isDecimalChar (spelled.isDecimalChar letter (by simp))
  have noWord : 'I' ∉ text := fun member => absurd (spelled.isDecimalChar 'I' member) (by decide)
  rw [literal?_of_noWord spelled.ne_nil noWord, noBase, numeral?_eq_some.mpr spelled]
  rfl

/-- Digits in a named base are collected. -/
theorem NamesBase.literal?_eq {base : Nat} {letter : Char} {values : List Nat} {text : List Char}
    (named : NamesBase base letter) (spelled : Digits base values text) (nonempty : values ≠ []) :
    literal? ('0' :: letter :: text) = some (.ofRadixDigits base values) := by
  have other : ∀ char ∈ text, char ≠ 'I' :=
    spelled.forall_mem fun digit => (digit.isPlain named.small).2
  have noWord : 'I' ∉ '0' :: letter :: text := by
    rintro (_ | ⟨_, _ | ⟨_, member⟩⟩)
    · exact named.not_isDecimalChar (by cases named)
    · exact other 'I' member rfl
  have digits : text ≠ [] := by
    rintro rfl
    cases spelled
    exact nonempty rfl
  rw [literal?_of_noWord (List.cons_ne_nil _ _) noWord, radix?_eq_some.mpr ⟨letter, named, rfl⟩,
    Option.elim_some]
  dsimp only
  rw [radixLiteral?, if_neg (by simpa using digits), spelled.mapM_eq named.small]
  rfl

theorem Sign.literal?_infinity {negative : Bool} {sign : List Char}
    (signed : Sign negative sign) :
    literal? (sign ++ "Infinity".toList) = some (.infinity negative) := by
  cases signed <;> rfl

theorem NamesBase.exists_bits {base : Nat} {letter : Char} (named : NamesBase base letter) :
    ∃ bits, base = 2 ^ bits ∧ bits ≤ 52 ∧ bits ≠ 0 := by
  cases named with
  | hexadecimal | hexadecimalUpper => exact ⟨4, rfl, by decide, by decide⟩
  | octal | octalUpper => exact ⟨3, rfl, by decide, by decide⟩
  | binary | binaryUpper => exact ⟨1, rfl, by decide, by decide⟩

theorem Digits.lt {base : Nat} {values : List Nat} {text : List Char}
    (spelled : Digits base values text) : ∀ value ∈ values, value < base :=
  ((List.forall₂_and_left _ _).mp spelled).1

/-- A literal is read as a number. -/
theorem IsNumeric.exists_literal? {text : List Char} (numeric : IsNumeric text) :
    ∃ number, literal? text = some number ∧ number ≠ .nan := by
  cases numeric with
  | empty => exact ⟨.zero, rfl, nofun⟩
  | infinity signed => exact ⟨_, signed.literal?_infinity, nofun⟩
  | @radix base letter values chars named spelled nonempty =>
    refine ⟨_, named.literal?_eq spelled nonempty, ?_⟩
    obtain ⟨bits, rfl, few, -⟩ := named.exists_bits
    rw [Number.ofRadixDigits_eq few spelled.lt]
    exact (Number.isNearest_ofNat _).ne_nan
  | @decimal numeral _ spelled => exact ⟨_, spelled.literal?_eq, numeral.denotes_toNumber.ne_nan⟩

/-- Only literals are read as numbers. -/
theorem isNumeric_of_literal? {text : List Char} {number : Number}
    (read : literal? text = some number) : IsNumeric text := by
  rw [literal?] at read
  split at read
  · rename_i nothing
    rw [List.isEmpty_iff.mp nothing]
    exact .empty
  split at read
  · rename_i word
    rcases word with rfl | rfl
    · exact .infinity .absent
    · exact .infinity .plus
  split at read
  · rename_i word
    rw [word]
    exact .infinity .minus
  split at read
  · rename_i base digits prefixed
    obtain ⟨letter, named, rfl⟩ := radix?_eq_some.mp prefixed
    rw [radixLiteral?] at read
    split at read
    · cases read
    · rename_i nonempty
      obtain ⟨values, spelled, -⟩ := Option.map_eq_some_iff.mp read
      have spelled := digits_of_mapM named.small spelled
      refine .radix named spelled ?_
      rintro rfl
      cases spelled
      exact nonempty rfl
  · obtain ⟨numeral, spelled, -⟩ := Option.map_eq_some_iff.mp read
    exact .decimal (numeral?_eq_some.mp spelled)

end Literal

/-! ### Texts with blanks -/

namespace Number

open Literal

/-- A text becomes a number just if a literal stands between its blanks. -/
theorem ofText_ne_nan_iff (text : List Char) :
    ofText text ≠ .nan ↔ IsNumeric (trimBlanks text) := by
  rw [ofText]
  constructor
  · intro some
    cases read : literal? (trimBlanks text) with
    | none => exact absurd (by rw [read]; rfl) some
    | some number => exact isNumeric_of_literal? read
  · intro numeric
    obtain ⟨number, read, some⟩ := numeric.exists_literal?
    rw [read]
    exact some

theorem trimBlanks_of_plain {text : List Char} (plain : ∀ char ∈ text, IsPlain char) :
    trimBlanks text = text := by
  have trimmed : trimBlanks ([] ++ (text ++ [])) = text := trimBlanks_eq nofun plain nofun
  rwa [List.nil_append, List.append_nil] at trimmed

/-- A decimal literal between blanks becomes the number that it denotes. -/
theorem ofText_of_isDecimal {numeral : Numeral} {text : List Char}
    (spelled : IsDecimal numeral (trimBlanks text)) : ofText text = numeral.toNumber := by
  rw [ofText, spelled.literal?_eq]
  rfl

end Number

end EcmaCore
