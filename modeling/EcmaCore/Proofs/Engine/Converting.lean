/-
This file says what becomes of a number that is converted to a string and back, and of a
string that is converted to a number. Nothing is called for either, and no world has a part
in it.

The text of a number is a decimal literal that denotes the number, so it is read back as it was
written, and so is every text that JSON reads as a number. A string has a number if a literal
stands between its blanks; a next line counts among these, and scripts do not count it. Digits
in base 16, 8 or 2 are collected from the left and rounded at each, so whatever follows a point
that is halfway between two numbers is lost when the lower one is even.
-/

import EcmaCore.Engine.Call
import EcmaCore.Proofs.Json.Numbers
import EcmaCore.Proofs.Json.Numerals
import EcmaCore.Proofs.Json.Parsing
import EcmaCore.Proofs.Run.Outcome

namespace EcmaCore

open CodeUnit Literal Number

/-! ### Texts of numbers -/

namespace Number

/-- The text of a number is read back as the number, but for a negative zero. -/
theorem ofText_text (number : Number) : ofText number.text.toList = number.settled := by
  cases number with
  | nan => decide +kernel
  | infinity negative => cases negative <;> decide +kernel
  | finite negative mantissa scale canonical =>
    rcases Nat.eq_zero_or_pos mantissa with rfl | positive
    · show ofText "0".toList = .zero
      decide +kernel
    · obtain ⟨numeral, regular, laid, denotes⟩ :=
        exists_numeral_laidOut .script negative canonical positive.ne'
      have decimal := regular.isDecimal
      have some : (Number.finite negative mantissa scale canonical).isZero = false :=
        beq_eq_false_iff_ne.mpr positive.ne'
      rw [← trimBlanks_of_plain decimal.isPlain] at decimal
      rw [text_of_nonzero negative canonical positive.ne', laid, String.toList_ofList,
        ofText_of_isDecimal decimal, settled, some, ← denotes.eq_toNumber]
      rfl

theorem settled_eq_iff (number other : Number) :
    other.settled = number.settled ↔
      other = number ∨ (other.isZero = true ∧ number.isZero = true) := by
  have zero : Number.zero.isZero = true := rfl
  unfold settled
  grind

/-- Both zeros have one text. -/
theorem text_settled (number : Number) : number.settled.text = number.text := by
  unfold settled
  split
  · rename_i zero
    cases number with
    | nan => cases zero
    | infinity negative => cases zero
    | finite negative mantissa scale canonical =>
      obtain rfl : mantissa = 0 := beq_iff_eq.mp zero
      rfl
  · rfl

/-- Only the two zeros share their text. -/
theorem text_eq_iff (number other : Number) :
    other.text = number.text ↔ other = number ∨ (other.isZero = true ∧ number.isZero = true) := by
  rw [← settled_eq_iff]
  constructor
  · intro same
    rw [← ofText_text, same, ofText_text]
  · intro same
    rw [← text_settled, same, text_settled]

end Number

/-! ### Conversions -/

section

variable (call : Caller) (realm : RealmId) (world : World)

theorem outcome_toUnits_number (number : Number) :
    (toUnits call realm (.number number)).outcome world = .done (unitsOf number.text) world := rfl

theorem outcome_toNumber_string (units : Units) :
    (toNumber call realm (.string units)).outcome world =
      .done (.ofText (lossyChars units)) world := rfl

end

/-- A number that is converted to a string and back is the same number, NaN included, and only a
negative zero becomes the positive one. So two numbers become the same string if they are the same
number or both are zeros, and not otherwise. -/
theorem toNumber_toUnits_number (number : Number) :
    ∃ units,
      (∀ call realm world,
        (toUnits call realm (.number number)).outcome world = .done units world) ∧
      (∀ call realm world,
        (toNumber call realm (.string units)).outcome world = .done number.settled world) ∧
      ∀ call realm world other,
        (toUnits call realm (.number other)).outcome world = .done units world ↔
          other = number ∨ (other.isZero = true ∧ number.isZero = true) := by
  refine ⟨unitsOf number.text, fun call realm world => rfl, fun call realm world => ?_,
    fun call realm world other => ?_⟩
  · rw [outcome_toNumber_string, lossyChars_unitsOf, Number.ofText_text]
  · rw [outcome_toUnits_number, Outcome.done.injEq, unitsOf_injective.eq_iff,
      Number.text_eq_iff]
    exact and_iff_left rfl

/-! ### Numbers of JSON -/

section

variable {call : Caller} {realm : RealmId} {world after : World} {number : Number}

/-- Only a number is planted as one. -/
theorem Json.eq_number_of_plant {tree : Json.Tree}
    (planted : (Json.plant call realm tree).outcome world = .done (.number number) after) :
    tree = .number number := by
  cases tree with
  | null | boolean flag | string units => cases planted
  | number value =>
    cases planted
    rfl
  | array elements | object members =>
    rw [Json.plant] at planted
    obtain ⟨_, _, -, planted⟩ := Run.exists_of_outcome_bind planted
    obtain ⟨_, _, -, planted⟩ := Run.exists_of_outcome_bind planted
    cases planted

/-- A text that JSON reads as a number, whatever blanks stand around it, is converted to the same
number when it is a string, also in another world. The sign of a zero is kept. -/
theorem toNumber_of_readValue {text : Units}
    (read : (Json.readValue call realm text).outcome world = .done (.number number) after)
    (other : Caller) (home : RealmId) (start : World) :
    (toNumber other home (.string text)).outcome start = .done number start := by
  cases parsed : Json.parse text with
  | error fault =>
    rw [Json.readValue_of_error parsed] at read
    cases read
  | ok tree =>
    rw [Json.readValue, parsed] at read
    have spelled := (Json.parse_ok_iff.mp parsed).1
    rw [Json.eq_number_of_plant read] at spelled
    rw [outcome_toNumber_string, spelled.ofText_eq]

end

/-- A negative zero between blanks. -/
theorem toNumber_of_readValue_zero :
    (Json.readValue (callWithin 0) 0 (unitsOf "\t-0\n")).outcome (.fresh 1) =
        .done (.number (.finite true 0 0 (by decide))) (.fresh 1) ∧
      (toNumber (callWithin 0) 0 (.string (unitsOf "\t-0\n"))).outcome (.fresh 1) =
        .done (.finite true 0 0 (by decide)) (.fresh 1) := by
  have zero : Numeral.toNumber ⟨true, [0], [], false, []⟩ = .finite true 0 0 (by decide) := by
    decide +kernel
  have spelled : Json.Grammar.Document (.number (.finite true 0 0 (by decide)))
      (unitsOf "\t-0\n") :=
    .parts (.more (Or.inl rfl) (.none _))
      (.number (.negative (.parts (.zero _) (.absent _) (.absent _)))
        (zero ▸ Numeral.denotes_toNumber _))
      (.more (Or.inr (Or.inl rfl)) (.none _))
  have read : (Json.readValue (callWithin 0) 0 (unitsOf "\t-0\n")).outcome (.fresh 1) =
      .done (.number (.finite true 0 0 (by decide))) (.fresh 1) := by
    rw [Json.readValue, Json.parse_ok_iff.mpr ⟨spelled, Nat.zero_le 512⟩]
    rfl
  exact ⟨read, toNumber_of_readValue read _ _ _⟩

/-! ### Strings that have a number -/

/-- A literal stands between blanks. -/
def SpellsNumber (Blank : CodeUnit → Prop) (units : Units) : Prop :=
  ∃ literal : String, Trimmed Blank units (unitsOf literal) ∧ IsNumeric literal.toList

theorem spellsNumber_textBlank_iff (units : Units) :
    SpellsNumber IsTextBlank units ↔ IsNumeric (trimBlanks (lossyChars units)) := by
  constructor
  · rintro ⟨literal, trimmed, numeric⟩
    rw [← String.ofList_toList (s := literal)] at trimmed
    rwa [(trimmed_iff numeric.isPlain).mp trimmed]
  · intro numeric
    exact ⟨String.ofList _, (trimmed_iff numeric.isPlain).mpr rfl,
      by rwa [String.toList_ofList]⟩

theorem spellsNumber_scriptBlank_iff (units : Units) :
    SpellsNumber IsScriptBlank units ↔ SpellsNumber IsTextBlank units ∧ nextLine ∉ units := by
  unfold SpellsNumber
  rw [← exists_and_right]
  refine exists_congr fun literal => ?_
  rw [and_right_comm]
  refine and_congr_left fun numeric => ?_
  rw [← String.ofList_toList (s := literal)]
  exact trimmed_script_iff numeric.isPlain

/-- A string is converted to a number if a literal stands between its blanks, and to NaN
otherwise. Blanks alone become zero. A next line is a blank here, so scripts take for numbers just
those of the strings that have none. -/
theorem toNumber_string (units : Units) :
    ∃ number,
      (∀ call realm world,
        (toNumber call realm (.string units)).outcome world = .done number world) ∧
      (number ≠ .nan ↔ SpellsNumber IsTextBlank units) ∧
      (number ≠ .nan ∧ nextLine ∉ units ↔ SpellsNumber IsScriptBlank units) ∧
      (Trimmed IsTextBlank units [] → number = .zero) := by
  have accepted : ofText (lossyChars units) ≠ .nan ↔ SpellsNumber IsTextBlank units := by
    rw [spellsNumber_textBlank_iff, ofText_ne_nan_iff]
  refine ⟨.ofText (lossyChars units), fun call realm world => rfl, accepted, ?_, fun nothing => ?_⟩
  · rw [spellsNumber_scriptBlank_iff, accepted]
  · have plain : ∀ char ∈ ([] : List Char), IsPlain char := nofun
    rw [ofText, (trimmed_iff plain).mp nothing]
    rfl

/-- A digit between a next line and a space. -/
theorem toNumber_string_seven :
    ∃ number,
      (toNumber (callWithin 0) 0 (.string [nextLine, 0x37, 0x20])).outcome (.fresh 1) =
        .done number (.fresh 1) ∧ number ≠ .nan := by
  have trimmed : Trimmed IsTextBlank [nextLine, 0x37, 0x20] (unitsOf "7") :=
    ⟨⟨[nextLine], [0x20], rfl, List.forall_mem_singleton.mpr (by decide),
      List.forall_mem_singleton.mpr (by decide)⟩, by rintro _ ⟨⟩; decide, by rintro _ ⟨⟩; decide⟩
  have decimal : IsNumeric "7".toList := .decimal (numeral?_eq_some.mp rfl)
  obtain ⟨number, done, accepted, -⟩ := toNumber_string [nextLine, 0x37, 0x20]
  exact ⟨number, done _ _ _, accepted.mpr ⟨"7", trimmed, decimal⟩⟩

/-- A next line alone is converted to zero, though scripts do not count it as a blank. -/
theorem toNumber_string_nextLine :
    (toNumber (callWithin 0) 0 (.string [nextLine])).outcome (.fresh 1) =
        .done .zero (.fresh 1) ∧
      Number.zero ≠ .nan ∧ ¬ SpellsNumber IsScriptBlank [nextLine] :=
  ⟨rfl, nofun, fun spelled =>
    ((spellsNumber_scriptBlank_iff _).mp spelled).2 List.mem_cons_self⟩

/-! ### Literals in a named base -/

section

variable {base : Nat} {letter : Char} {values : List Nat} {text : List Char}

/-- The digits of a literal with a base are collected. -/
theorem ofText_radixLiteral (named : NamesBase base letter) (spelled : Digits base values text)
    (nonempty : values ≠ []) :
    Number.ofText ('0' :: letter :: text) = .ofRadixDigits base values := by
  have plain := (IsNumeric.radix named spelled nonempty).isPlain
  rw [Number.ofText, Number.trimBlanks_of_plain plain, named.literal?_eq spelled nonempty]
  rfl

/-- A literal in base 16, 8 or 2, with any number of digits, is converted to the number nearest to
what its digits denote, or to infinity out of range, unless a digit other than zero follows digits
whose value is halfway between two neighbours with the lower one even. Then the digits behind the
halfway point count as zeros. -/
theorem toNumber_radixLiteral (named : NamesBase base letter) (spelled : Digits base values text)
    (nonempty : values ≠ []) :
    ∃ number,
      (∀ call realm world,
        (toNumber call realm (.string (unitsOf (String.ofList ('0' :: letter :: text))))).outcome
            world = .done number world) ∧
      (number.IsNearest false (radixValue base values * one) ↔
        overflow ≤ radixValue base values * one ∨
          ∀ head tail, values = head ++ tail → HalfwayAboveEven (radixValue base head) →
            radixValue base tail = 0) ∧
      ∀ head tail, values = head ++ tail → HalfwayAboveEven (radixValue base head) →
        number.IsNearest false ((radixValue base head * base ^ tail.length : Nat) * one) := by
  obtain ⟨bits, rfl, few, nonzero⟩ := named.exists_bits
  refine ⟨.ofRadixDigits (2 ^ bits) values, fun call realm world => ?_,
    isNearest_ofRadixDigits_iff few nonzero spelled.lt, fun head tail split halfway => ?_⟩
  · rw [outcome_toNumber_string, lossyChars_unitsOf, String.toList_ofList,
      ofText_radixLiteral named spelled nonempty]
  · have small := spelled.lt
    rw [split] at small ⊢
    rw [ofRadixDigits_of_halfway few nonzero small halfway, pow_mul]
    exact Number.isNearest_ofNat _

end

/-- A point halfway with no digit behind it is rounded to the even neighbour. -/
theorem toNumber_radixLiteral_halfway :
    ∃ number,
      (toNumber (callWithin 0) 0 (.string (unitsOf "0x20000000000001"))).outcome (.fresh 1) =
        .done number (.fresh 1) ∧ number.IsNearest false ((2 ^ 53 + 1 : Nat) * one) := by
  have spelled : Digits 16 [2, 0, 0, 0, 0, 0, 0, 0, 0, 0, 0, 0, 0, 1] "20000000000001".toList :=
    digits_of_mapM (by decide) (by decide)
  have value : radixValue 16 [2, 0, 0, 0, 0, 0, 0, 0, 0, 0, 0, 0, 0, 1] = 2 ^ 53 + 1 := by decide
  obtain ⟨number, done, -, halfway⟩ :=
    toNumber_radixLiteral .hexadecimal spelled (List.cons_ne_nil _ _)
  have nearest := halfway _ [] (List.append_nil _).symm
    ⟨2 ^ 52, 0, by decide, by decide, by decide, by rw [value]; decide⟩
  rw [value, List.length_nil, Nat.pow_zero, Nat.mul_one] at nearest
  exact ⟨number, done _ _ _, nearest⟩

/-- Another digit behind a point halfway is lost in base 16, and not in base ten. -/
theorem toNumber_radixLiteral_lost :
    Digits 16 [2, 0, 0, 0, 0, 0, 0, 0, 0, 0, 0, 0, 0, 1, 1] "200000000000011".toList ∧
      radixValue 16 [2, 0, 0, 0, 0, 0, 0, 0, 0, 0, 0, 0, 0, 1, 1] = 144115188075855889 ∧
      (toNumber (callWithin 0) 0 (.string (unitsOf "0x200000000000011"))).outcome (.fresh 1) =
        .done (.ofNat 144115188075855872) (.fresh 1) ∧
      ¬ (Number.ofNat 144115188075855872).IsNearest false ((144115188075855889 : Nat) * one) ∧
      (toNumber (callWithin 0) 0 (.string (unitsOf "144115188075855889"))).outcome (.fresh 1) =
        .done (.ofNat 144115188075855904) (.fresh 1) := by
  have collected : Number.ofText "0x200000000000011".toList = .ofNat 144115188075855872 := by
    decide +kernel
  have decimal : Number.ofText "144115188075855889".toList = .ofNat 144115188075855904 := by
    decide +kernel
  refine ⟨digits_of_mapM (by decide) (by decide), by decide, ?_, fun nearest => ?_, ?_⟩
  · rw [outcome_toNumber_string, lossyChars_unitsOf, collected]
  · exact absurd (nearest.unique (isNearest_ofNat _)) (by decide +kernel)
  · rw [outcome_toNumber_string, lossyChars_unitsOf, decimal]

end EcmaCore
