/-
This file proves that the readers of blanks, numbers and strings agree with the
grammar, in both directions. What a reader returns is spelled by what it took. What
is spelled is returned, if the text goes on in a way that cannot prolong the token: a
run of blanks ends before the first unit that is no blank, a number before the first
unit that is no part of any number, and a string at its closing quote.

No reader of a token ever complains about depth.
-/

import EcmaCore.Proofs.Json.Grammar
import Mathlib.Tactic.Common

namespace EcmaCore.Json

open Grammar

/-! ### Blanks -/

theorem isBlank_iff (unit : CodeUnit) : IsBlank unit ↔ isJsonBlank unit = true := by
  simp only [IsBlank, isJsonBlank, Bool.or_eq_true, beq_iff_eq, or_assoc]

/-- What is left after the blanks are skipped. -/
theorem blanks_skipBlanks (text : Units) : Blanks text (skipBlanks text) := by
  induction text with
  | nil => exact Blanks.none []
  | cons unit text inductionHypothesis =>
    rw [skipBlanks, List.dropWhile_cons]
    split
    · rename_i blank
      exact Blanks.more ((isBlank_iff unit).mpr blank) inductionHypothesis
    · exact Blanks.none _

theorem Grammar.Blanks.trans {text middle rest : Units} (first : Blanks text middle)
    (second : Blanks middle rest) : Blanks text rest := by
  induction first with
  | none _ => exact second
  | more blank _ inductionHypothesis => exact Blanks.more blank (inductionHypothesis second)

theorem Grammar.Blanks.skipBlanks_eq {text rest : Units} (blanks : Blanks text rest) :
    skipBlanks text = skipBlanks rest := by
  induction blanks with
  | none _ => rfl
  | more blank _ inductionHypothesis =>
    rw [← inductionHypothesis, skipBlanks, List.dropWhile_cons,
      if_pos ((isBlank_iff _).mp blank)]
    rfl

theorem skipBlanks_cons {unit : CodeUnit} (dark : isJsonBlank unit = false) (text : Units) :
    skipBlanks (unit :: text) = unit :: text := by
  rw [skipBlanks, List.dropWhile_cons, if_neg (by rw [dark]; exact Bool.false_ne_true)]

/-- Blanks before a unit that is none are skipped up to that unit. -/
theorem Grammar.Blanks.skipBlanks_cons {text rest : Units} {unit : CodeUnit}
    (blanks : Blanks text (unit :: rest)) (dark : isJsonBlank unit = false) :
    skipBlanks text = unit :: rest := by
  rw [blanks.skipBlanks_eq, Json.skipBlanks_cons dark]

theorem Grammar.Blanks.skipBlanks_nil {text : Units} (blanks : Blanks text []) :
    skipBlanks text = [] := by
  rw [blanks.skipBlanks_eq]
  rfl

/-! ### Digits -/

theorem toNat_ofNat {code : Nat} (small : code < 0x10000) : (UInt16.ofNat code).toNat = code :=
  UInt16.toNat_ofNat_of_lt' small

theorem eq_ofNat_iff (unit : CodeUnit) {code : Nat} (small : code < 0x10000) :
    unit = UInt16.ofNat code ↔ unit.toNat = code := by
  rw [← UInt16.toNat_inj, toNat_ofNat small]

/-- The decimal digits are the ten units from the zero on. -/
theorem digitOfCode?_ten {unit : CodeUnit} {digit : Nat} :
    digitOfCode? 10 unit.toNat = some digit ↔
      digit < 10 ∧ unit = UInt16.ofNat (0x30 + digit) := by
  have decimal : digitOfCode? 10 unit.toNat = some digit ↔
      digit < 10 ∧ unit.toNat = 0x30 + digit := by
    simp only [digitOfCode?]
    grind
  rw [decimal]
  refine and_congr_right fun small => ?_
  rw [eq_ofNat_iff unit (by omega)]

theorem digitOfCode?_digit {digit : Nat} (small : digit < 10) :
    digitOfCode? 10 (UInt16.ofNat (0x30 + digit)).toNat = some digit :=
  digitOfCode?_ten.mpr ⟨small, rfl⟩

/-- The hexadecimal digits have the ten decimal ones and six letters in two cases. -/
theorem digitOfCode?_sixteen {unit : CodeUnit} {value : Nat} :
    digitOfCode? 16 unit.toNat = some value ↔ HexDigit value unit := by
  constructor
  · intro read
    have cases : (value < 10 ∧ unit.toNat = 0x30 + value) ∨
        (∃ letter < 6, value = 10 + letter ∧ unit.toNat = 0x61 + letter) ∨
        (∃ letter < 6, value = 10 + letter ∧ unit.toNat = 0x41 + letter) := by
      simp only [digitOfCode?] at read
      split_ifs at read <;> simp only [Option.some.injEq] at read
      · exact Or.inl (by omega)
      · exact Or.inr (Or.inl ⟨value - 10, by omega, by omega, by omega⟩)
      · exact Or.inr (Or.inr ⟨value - 10, by omega, by omega, by omega⟩)
      · omega
    rcases cases with ⟨small, code⟩ | ⟨letter, small, rfl, code⟩ | ⟨letter, small, rfl, code⟩
    · rw [(eq_ofNat_iff unit (by omega)).mpr code]
      exact HexDigit.decimal small
    · rw [(eq_ofNat_iff unit (by omega)).mpr code]
      exact HexDigit.lower small
    · rw [(eq_ofNat_iff unit (by omega)).mpr code]
      exact HexDigit.upper small
  · intro digit
    cases digit with
    | decimal small =>
      rw [toNat_ofNat (by omega)]
      simp only [digitOfCode?]
      grind
    | lower small =>
      rw [toNat_ofNat (by omega)]
      simp only [digitOfCode?]
      grind
    | upper small =>
      rw [toNat_ofNat (by omega)]
      simp only [digitOfCode?]
      grind

/-! ### Results that depend on one another -/

variable {α β : Type}

/-- A reading that goes on after another ends well exactly when both do. -/
theorem bind_eq_ok {reading : Except Stop α} {continuation : α → Except Stop β} {result : β} :
    reading >>= continuation = .ok result ↔
      ∃ value, reading = .ok value ∧ continuation value = .ok result := by
  cases reading <;> simp [bind, Except.bind]

/-- A reading that goes on after another stops where the first of the two does. -/
theorem bind_eq_error {reading : Except Stop α} {continuation : α → Except Stop β} {stop : Stop} :
    reading >>= continuation = .error stop ↔
      reading = .error stop ∨
        ∃ value, reading = .ok value ∧ continuation value = .error stop := by
  cases reading <;> simp [bind, Except.bind]

theorem map_eq_ok {reading : Except Stop α} {change : α → β} {result : β} :
    reading.map change = .ok result ↔ ∃ value, reading = .ok value ∧ change value = result := by
  cases reading <;> simp [Except.map]

theorem map_eq_error {reading : Except Stop α} {change : α → β} {stop : Stop} :
    reading.map change = .error stop ↔ reading = .error stop := by
  cases reading <;> simp [Except.map]

/-! ### Numbers -/

/-- The text does not start with a decimal digit. -/
def NoDigit (text : Units) : Prop :=
  ∀ unit ∈ text.head?, digitOfCode? 10 unit.toNat = none

theorem noDigit_cons {unit : CodeUnit} (other : digitOfCode? 10 unit.toNat = none)
    (text : Units) : NoDigit (unit :: text) := by
  intro first member
  cases member
  exact other

theorem digits_spanUnitDigits (text : Units) :
    Digits (spanUnitDigits text).1 text (spanUnitDigits text).2 := by
  induction text with
  | nil => exact Digits.none []
  | cons unit text inductionHypothesis =>
    unfold spanUnitDigits
    split
    · rename_i digit read
      obtain ⟨small, rfl⟩ := digitOfCode?_ten.mp read
      exact Digits.more small inductionHypothesis
    · exact Digits.none _

theorem spanUnitDigits_of_noDigit {text : Units} (other : NoDigit text) :
    spanUnitDigits text = ([], text) := by
  cases text with
  | nil => rfl
  | cons unit text => rw [spanUnitDigits, other unit rfl]

/-- Digits that nothing prolongs are all the digits that the text starts with. -/
theorem Grammar.Digits.spanUnitDigits_eq {digits : List Nat} {text rest : Units}
    (spelled : Digits digits text rest) (other : NoDigit rest) :
    spanUnitDigits text = (digits, rest) := by
  induction spelled with
  | none text => exact spanUnitDigits_of_noDigit other
  | more small _ inductionHypothesis =>
    rw [spanUnitDigits, digitOfCode?_digit small, inductionHypothesis other]

theorem someDigits_ok {text rest : Units} {digits : List Nat}
    (read : someDigits text = .ok (digits, rest)) :
    ∃ digit others, digits = digit :: others ∧ Digits (digit :: others) text rest := by
  have spelled := digits_spanUnitDigits text
  rw [someDigits] at read
  split at read
  · cases read
  · rename_i digits' left nonempty span
    cases read
    rw [span] at spelled
    cases digits with
    | nil => exact absurd rfl nonempty
    | cons digit others => exact ⟨digit, others, rfl, spelled⟩

theorem Grammar.Digits.someDigits_eq {digit : Nat} {others : List Nat} {text rest : Units}
    (spelled : Digits (digit :: others) text rest) (other : NoDigit rest) :
    someDigits text = .ok (digit :: others, rest) := by
  rw [someDigits, spelled.spanUnitDigits_eq other]

/-- A text that goes on in a way that no number can: not with a digit, a point or the letter `e`. -/
def EndsNumber (text : Units) : Prop :=
  ∀ unit ∈ text.head?,
    digitOfCode? 10 unit.toNat = none ∧ unit ≠ 0x2E ∧ unit ≠ 0x45 ∧ unit ≠ 0x65

theorem EndsNumber.noDigit {text : Units} (ends : EndsNumber text) : NoDigit text :=
  fun unit member => (ends unit member).1

theorem wholePart_ok {text rest : Units} {whole : List Nat}
    (read : wholePart text = .ok (whole, rest)) : Whole whole text rest := by
  have spelled := digits_spanUnitDigits text
  rw [wholePart] at read
  split at read
  · cases read
  · rename_i left span
    cases read
    rw [span] at spelled
    cases spelled with
    | more _ others =>
      cases others
      exact Whole.zero rest
  · cases read
  · rename_i digits left nonempty notZero notLeading span
    cases read
    rw [span] at spelled
    cases whole with
    | nil => exact absurd rfl nonempty
    | cons first others =>
      refine Whole.digits ?_ spelled
      rintro rfl
      cases others with
      | nil => exact notZero rfl
      | cons second others => exact notLeading second others rfl

theorem Grammar.Whole.wholePart_eq {whole : List Nat} {text rest : Units}
    (spelled : Whole whole text rest) (other : NoDigit rest) :
    wholePart text = .ok (whole, rest) := by
  cases spelled with
  | zero rest =>
    have zero : Digits [0] (0x30 :: rest) rest := Digits.more (by decide) (Digits.none rest)
    rw [wholePart, zero.spanUnitDigits_eq other]
    rfl
  | digits nonzero spelled =>
    rw [wholePart, spelled.spanUnitDigits_eq other]
    split
    · simp_all
    · simp_all
    · simp_all
    · simp_all

theorem fractionPart_ok {text rest : Units} {fraction : List Nat}
    (read : fractionPart text = .ok (fraction, rest)) : Fraction fraction text rest := by
  rw [fractionPart.eq_def] at read
  split at read
  · obtain ⟨digit, others, rfl, spelled⟩ := someDigits_ok read
    exact Fraction.present spelled
  · cases read
    exact Fraction.absent _

theorem Grammar.Fraction.fractionPart_eq {fraction : List Nat} {text rest : Units}
    (spelled : Fraction fraction text rest) (other : NoDigit rest)
    (noPoint : ∀ unit ∈ rest.head?, unit ≠ 0x2E) :
    fractionPart text = .ok (fraction, rest) := by
  cases spelled with
  | absent text =>
    rw [fractionPart.eq_def]
    split
    · exact absurd rfl (noPoint _ rfl)
    · rfl
  | present spelled => exact spelled.someDigits_eq other

theorem exponentSign_exponentSign (text : Units) :
    ExponentSign (exponentSign text).1 text (exponentSign text).2 := by
  rw [exponentSign.eq_def]
  split
  · exact ExponentSign.minus _
  · exact ExponentSign.plus _
  · exact ExponentSign.absent _

theorem exponentPart_ok {text rest : Units} {negative : Bool} {exponent : List Nat}
    (read : exponentPart text = .ok ((negative, exponent), rest)) :
    Exponent negative exponent text rest := by
  cases text with
  | nil =>
    cases read
    exact Exponent.absent []
  | cons letter text =>
    rw [exponentPart] at read
    split at read
    · rename_i named
      obtain ⟨⟨digits, left⟩, someRead, equal⟩ := bind_eq_ok.mp read
      cases equal
      obtain ⟨digit, others, rfl, spelled⟩ := someDigits_ok someRead
      exact Exponent.present named (exponentSign_exponentSign text) spelled
    · cases read
      exact Exponent.absent _

/-- A sign is read as far as a digit follows it. -/
theorem Grammar.ExponentSign.exponentSign_eq {negative : Bool} {text unsigned rest : Units}
    {digit : Nat} {others : List Nat} (signed : ExponentSign negative text unsigned)
    (spelled : Digits (digit :: others) unsigned rest) :
    exponentSign text = (negative, unsigned) := by
  cases signed with
  | plus text => rfl
  | minus text => rfl
  | absent text =>
    cases spelled with
    | more small _ =>
      have code := toNat_ofNat (show 0x30 + digit < 0x10000 by omega)
      rw [exponentSign.eq_def]
      split
      · rename_i equal
        rw [(List.cons.inj equal).1] at code
        exact absurd code (by simp; omega)
      · rename_i equal
        rw [(List.cons.inj equal).1] at code
        exact absurd code (by simp; omega)
      · rfl

theorem Grammar.Exponent.exponentPart_eq {negative : Bool} {exponent : List Nat}
    {text rest : Units} (spelled : Exponent negative exponent text rest) (ends : EndsNumber rest) :
    exponentPart text = .ok ((negative, exponent), rest) := by
  cases spelled with
  | absent text =>
    cases text with
    | nil => rfl
    | cons letter text =>
      obtain ⟨_, _, upper, lower⟩ := ends letter rfl
      rw [exponentPart, if_neg (not_or.mpr ⟨upper, lower⟩)]
  | present named signed spelled =>
    rw [exponentPart, if_pos named, signed.exponentSign_eq spelled]
    exact bind_eq_ok.mpr ⟨_, spelled.someDigits_eq ends.noDigit, rfl⟩

/-- What starts with an exponent or ends a number does not start with a digit or a point. -/
theorem Grammar.Exponent.starts {negative : Bool} {exponent : List Nat} {text rest : Units}
    (spelled : Exponent negative exponent text rest) (ends : EndsNumber rest) :
    NoDigit text ∧ ∀ unit ∈ text.head?, unit ≠ 0x2E := by
  cases spelled with
  | absent text => exact ⟨ends.noDigit, fun unit member => (ends unit member).2.1⟩
  | present named signed spelled =>
    rcases named with rfl | rfl
    · exact ⟨noDigit_cons (by decide) _, fun unit member => by cases member; decide⟩
    · exact ⟨noDigit_cons (by decide) _, fun unit member => by cases member; decide⟩

theorem Grammar.Fraction.starts {fraction : List Nat} {text rest : Units}
    (spelled : Fraction fraction text rest) (other : NoDigit rest) : NoDigit text := by
  cases spelled with
  | absent text => exact other
  | present spelled => exact noDigit_cons (by decide) _

theorem unsignedNumber_ok {negative : Bool} {text rest : Units} {numeral : Numeral}
    (read : unsignedNumber negative text = .ok (numeral, rest)) :
    Unsigned negative numeral text rest := by
  obtain ⟨⟨whole, afterWhole⟩, wholeRead, read⟩ := bind_eq_ok.mp read
  obtain ⟨⟨fraction, afterFraction⟩, fractionRead, read⟩ := bind_eq_ok.mp read
  obtain ⟨⟨⟨exponentNegative, exponent⟩, left⟩, exponentRead, read⟩ := bind_eq_ok.mp read
  cases read
  exact Unsigned.parts (wholePart_ok wholeRead) (fractionPart_ok fractionRead)
    (exponentPart_ok exponentRead)

theorem Grammar.Unsigned.unsignedNumber_eq {negative : Bool} {numeral : Numeral}
    {text rest : Units} (spelled : Unsigned negative numeral text rest) (ends : EndsNumber rest) :
    unsignedNumber negative text = .ok (numeral, rest) := by
  obtain ⟨first, second, third⟩ := spelled
  obtain ⟨noDigit, noPoint⟩ := third.starts ends
  exact bind_eq_ok.mpr ⟨_, first.wholePart_eq (second.starts noDigit), bind_eq_ok.mpr
    ⟨_, second.fractionPart_eq noDigit noPoint, bind_eq_ok.mpr
      ⟨_, third.exponentPart_eq ends, rfl⟩⟩⟩

/-- A number without its sign starts with a digit. -/
theorem Grammar.Unsigned.starts {negative : Bool} {numeral : Numeral} {text rest : Units}
    (spelled : Unsigned negative numeral text rest) :
    ∃ unit others, text = unit :: others ∧ (digitOfCode? 10 unit.toNat).isSome = true := by
  obtain ⟨first, _, _⟩ := spelled
  cases first with
  | zero _ => exact ⟨0x30, _, rfl, by decide⟩
  | digits _ spelled =>
    cases spelled with
    | more small _ => exact ⟨_, _, rfl, by rw [digitOfCode?_digit small]; rfl⟩

/-- What a number reader returns is spelled by what it took. -/
theorem number_ok {text rest : Units} {numeral : Numeral}
    (read : number text = .ok (numeral, rest)) : Grammar.Number numeral text rest := by
  rw [number.eq_def] at read
  split at read
  · exact Grammar.Number.negative (unsignedNumber_ok read)
  · exact Grammar.Number.positive (unsignedNumber_ok read)

/-- A number that nothing prolongs is read as a whole. -/
theorem Grammar.Number.number_eq {numeral : Numeral} {text rest : Units}
    (spelled : Grammar.Number numeral text rest) (ends : EndsNumber rest) :
    number text = .ok (numeral, rest) := by
  cases spelled with
  | negative spelled => exact spelled.unsignedNumber_eq ends
  | positive spelled =>
    obtain ⟨unit, others, rfl, digit⟩ := spelled.starts
    rw [number.eq_def]
    split
    · rename_i equal
      rw [(List.cons.inj equal).1] at digit
      exact absurd digit (by decide)
    · exact spelled.unsignedNumber_eq ends

/-- A number starts with a minus or a digit. -/
theorem Grammar.Number.starts {numeral : Numeral} {text rest : Units}
    (spelled : Grammar.Number numeral text rest) :
    ∃ unit others, text = unit :: others ∧
      (unit = 0x2D ∨ (digitOfCode? 10 unit.toNat).isSome = true) := by
  cases spelled with
  | negative spelled => exact ⟨_, _, rfl, Or.inl rfl⟩
  | positive spelled =>
    obtain ⟨unit, others, rfl, digit⟩ := spelled.starts
    exact ⟨unit, others, rfl, Or.inr digit⟩

/-! ### Strings -/

theorem shortEscape?_eq_some {letter unit : CodeUnit} :
    shortEscape? letter = some unit ↔ Escape unit letter := by
  constructor
  · intro known
    rw [shortEscape?] at known
    split_ifs at known with own b f n r t
    · cases known
      rcases own with rfl | rfl | rfl
      · exact Escape.quote
      · exact Escape.backslash
      · exact Escape.slash
    all_goals
      cases known
      subst_vars
      constructor
  · intro known
    cases known <;> rfl

/-- Four hexadecimal digits are read as the unit that they spell. -/
theorem hexDigits_four {first second third fourth : CodeUnit} {a b c d : Nat} {text : Units}
    (high : HexDigit a first) (upper : HexDigit b second) (lower : HexDigit c third)
    (low : HexDigit d fourth) :
    hexDigits 4 0 (first :: second :: third :: fourth :: text) =
      .ok (UInt16.ofNat (a * 0x1000 + b * 0x100 + c * 0x10 + d)) := by
  simp only [hexDigits, digitOfCode?_sixteen.mpr high, digitOfCode?_sixteen.mpr upper,
    digitOfCode?_sixteen.mpr lower, digitOfCode?_sixteen.mpr low]
  exact congrArg (fun code => Except.ok (UInt16.ofNat code)) (by omega)

theorem hexDigits_succ_ok {count before : Nat} {text : Units} {unit : CodeUnit}
    (read : hexDigits (count + 1) before text = .ok unit) :
    ∃ digit first rest, text = first :: rest ∧ HexDigit digit first ∧
      hexDigits count (before * 16 + digit) rest = .ok unit := by
  cases text with
  | nil => cases read
  | cons first rest =>
    rw [hexDigits] at read
    split at read
    · rename_i digit known
      exact ⟨digit, first, rest, rfl, digitOfCode?_sixteen.mp known, read⟩
    · cases read

theorem hexDigits_four_ok {text : Units} {decoded : CodeUnit}
    (read : hexDigits 4 0 text = .ok decoded) :
    ∃ first second third fourth others,
      text = first :: second :: third :: fourth :: others ∧
      ∃ a b c d, HexDigit a first ∧ HexDigit b second ∧ HexDigit c third ∧ HexDigit d fourth ∧
        decoded = UInt16.ofNat (a * 0x1000 + b * 0x100 + c * 0x10 + d) := by
  obtain ⟨a, first, _, rfl, high, read⟩ := hexDigits_succ_ok read
  obtain ⟨b, second, _, rfl, upper, read⟩ := hexDigits_succ_ok read
  obtain ⟨c, third, _, rfl, lower, read⟩ := hexDigits_succ_ok read
  obtain ⟨d, fourth, others, rfl, low, read⟩ := hexDigits_succ_ok read
  cases read
  refine ⟨first, second, third, fourth, others, rfl, a, b, c, d, high, upper, lower, low, ?_⟩
  exact congrArg UInt16.ofNat (by omega)

/-- What a string reader returns is spelled by what it took. -/
theorem stringBody_ok {text units rest : Units} (read : stringBody text = .ok (units, rest)) :
    StringBody units text rest := by
  fun_induction stringBody text generalizing units rest with
  | case1 => cases read
  | case2 => cases read; exact StringBody.close _
  | case3 => cases read
  | case4 decoded first second third fourth others _ hex inductionHypothesis =>
    rw [hex] at read
    obtain ⟨⟨units', left⟩, inner, equal⟩ := map_eq_ok.mp read
    cases equal
    obtain ⟨_, _, _, _, _, equal, a, b, c, d, high, upper, lower, low, rfl⟩ :=
      hexDigits_four_ok hex
    cases equal
    exact StringBody.unicode high upper lower low (inductionHypothesis inner)
  | case5 _ _ tooShort =>
    split at read
    · exact (tooShort _ _ _ _ _ rfl).elim
    · cases read
    · cases read
  | case6 after _ hex _ => rw [hex] at read; cases read
  | case7 letter after _ decoded known _ inductionHypothesis =>
    obtain ⟨⟨units', left⟩, inner, equal⟩ := map_eq_ok.mp read
    cases equal
    exact StringBody.escape (shortEscape?_eq_some.mp known) (inductionHypothesis inner)
  | case8 => cases read
  | case9 => cases read
  | case10 unit text noQuote noBackslash printable inductionHypothesis =>
    obtain ⟨⟨units', left⟩, inner, equal⟩ := map_eq_ok.mp read
    cases equal
    exact StringBody.raw (Nat.le_of_not_lt printable) noQuote noBackslash
      (inductionHypothesis inner)

/-- A letter that stands for a unit after a backslash is not the one before four digits. -/
theorem Grammar.Escape.letter_ne {unit letter : CodeUnit} (known : Escape unit letter) :
    letter ≠ 0x75 := by
  cases known <;> decide

/-- A spelled string is read as the units that it spells. -/
theorem Grammar.StringBody.stringBody_eq {units text rest : Units}
    (spelled : StringBody units text rest) : stringBody text = .ok (units, rest) := by
  induction spelled with
  | close rest => rw [stringBody.eq_def]; rfl
  | raw printable noQuote noBackslash _ inductionHypothesis =>
    rw [stringBody.eq_def]
    simp only [if_neg noQuote, if_neg noBackslash, if_neg (Nat.not_lt.mpr printable),
      inductionHypothesis, Except.map]
  | escape known _ inductionHypothesis =>
    rw [stringBody.eq_def]
    simp only [if_neg known.letter_ne, shortEscape?_eq_some.mpr known, inductionHypothesis,
      Except.map]
    rfl
  | unicode high upper lower low _ inductionHypothesis =>
    rw [stringBody.eq_def]
    simp only [hexDigits_four high upper lower low, inductionHypothesis, Except.map]
    rfl

/-! ### Complaints -/

/-- The complaint is not about depth. -/
def Stop.Shallow (stop : Stop) : Prop := stop.objection ≠ .tooDeep

theorem unexpected_shallow {text : Units} {stop : Stop}
    (read : (unexpected text : Except Stop α) = .error stop) : stop.Shallow := by
  cases read
  exact nofun

theorem literal_shallow {tree : Tree} {word text : Units} {stop : Stop}
    (read : literal tree word text = .error stop) : stop.Shallow := by
  induction word generalizing text with
  | nil => cases read
  | cons expected word inductionHypothesis =>
    cases text with
    | nil => exact unexpected_shallow read
    | cons unit text =>
      rw [literal] at read
      split at read
      · exact inductionHypothesis read
      · exact unexpected_shallow read

theorem hexDigits_shallow {count before : Nat} {text : Units} {stop : Stop}
    (read : hexDigits count before text = .error stop) : stop.Shallow := by
  induction count generalizing before text with
  | zero => cases read
  | succ count inductionHypothesis =>
    cases text with
    | nil => cases read; exact nofun
    | cons unit text =>
      rw [hexDigits] at read
      split at read
      · exact inductionHypothesis read
      · cases read; exact nofun

theorem stringBody_shallow {text : Units} {stop : Stop}
    (read : stringBody text = .error stop) : stop.Shallow := by
  fun_induction stringBody text with
  | case1 => cases read; exact nofun
  | case2 => cases read
  | case3 => exact unexpected_shallow read
  | case4 decoded first second third fourth others _ hex inductionHypothesis =>
    rw [hex] at read
    exact inductionHypothesis (map_eq_error.mp read)
  | case5 _ _ tooShort =>
    split at read
    · exact (tooShort _ _ _ _ _ rfl).elim
    · cases read; exact nofun
    · cases read; exact hexDigits_shallow ‹_›
  | case6 after stop' hex _ =>
    rw [hex] at read
    cases read
    exact hexDigits_shallow hex
  | case7 _ _ _ _ _ _ inductionHypothesis => exact inductionHypothesis (map_eq_error.mp read)
  | case8 => cases read; exact nofun
  | case9 => cases read; exact nofun
  | case10 _ _ _ _ _ inductionHypothesis => exact inductionHypothesis (map_eq_error.mp read)

theorem someDigits_shallow {text : Units} {stop : Stop}
    (read : someDigits text = .error stop) : stop.Shallow := by
  rw [someDigits] at read
  split at read
  · exact unexpected_shallow read
  · cases read

theorem wholePart_shallow {text : Units} {stop : Stop}
    (read : wholePart text = .error stop) : stop.Shallow := by
  rw [wholePart] at read
  split at read
  · exact unexpected_shallow read
  · cases read
  · cases read; exact nofun
  · cases read

theorem unsignedNumber_shallow {negative : Bool} {text : Units} {stop : Stop}
    (read : unsignedNumber negative text = .error stop) : stop.Shallow := by
  rcases bind_eq_error.mp read with early | ⟨⟨whole, afterWhole⟩, _, read⟩
  · exact wholePart_shallow early
  rcases bind_eq_error.mp read with early | ⟨⟨fraction, afterFraction⟩, _, read⟩
  · rw [fractionPart.eq_def] at early
    split at early
    · exact someDigits_shallow early
    · cases early
  rcases bind_eq_error.mp read with early | ⟨⟨⟨exponentNegative, exponent⟩, left⟩, _, read⟩
  · rw [exponentPart.eq_def] at early
    split at early
    · cases early
    · split at early
      · rcases bind_eq_error.mp early with early | ⟨_, _, late⟩
        · exact someDigits_shallow early
        · cases late
      · cases early
  · cases read

theorem number_shallow {text : Units} {stop : Stop} (read : number text = .error stop) :
    stop.Shallow := by
  rw [number.eq_def] at read
  split at read
  · exact unsignedNumber_shallow read
  · exact unsignedNumber_shallow read

end EcmaCore.Json
