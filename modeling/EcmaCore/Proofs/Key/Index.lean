/-
This file proves that a key is an array index exactly when it is the decimal text of
a number up to the largest index, so an index has one key and a key at most one
index. Both ways follow the digits: reading a text digit by digit builds up the number
whose own digits are the text, as long as the first digit is no zero.
-/

import EcmaCore.Key

namespace EcmaCore

/-! ### Digits -/

theorem digitValue?_digitChar {digit : Nat} (small : digit < 10) :
    digitValue? 10 digit.digitChar = some digit := by
  rw [digitValue?, digitOfCode?, Nat.toNat_digitChar_of_lt_ten small]
  grind

theorem eq_digitChar_of_digitValue? {char : Char} {digit : Nat}
    (read : digitValue? 10 char = some digit) : digit < 10 ∧ char = digit.digitChar := by
  have range : digit < 10 ∧ char.toNat = 48 + digit := by
    rw [digitValue?, digitOfCode?] at read
    grind
  refine ⟨range.1, Char.toNat_inj.mp ?_⟩
  rw [Nat.toNat_digitChar_of_lt_ten range.1, range.2]

/-- Reading every character of a text as a digit gives the digits that the text spells. -/
theorem mapM_digitValue?_eq_some {text : List Char} {digits : List Nat} :
    text.mapM (digitValue? 10) = some digits ↔
      (∀ digit ∈ digits, digit < 10) ∧ text = digits.map Nat.digitChar := by
  induction text generalizing digits with
  | nil => cases digits <;> simp
  | cons char text inductionHypothesis =>
    rw [List.mapM_cons]
    constructor
    · intro read
      obtain ⟨digit, first, read⟩ := Option.bind_eq_some_iff.mp read
      obtain ⟨others, rest, last⟩ := Option.bind_eq_some_iff.mp read
      obtain ⟨small, spelled⟩ := eq_digitChar_of_digitValue? first
      obtain ⟨allSmall, others⟩ := inductionHypothesis.mp rest
      cases last
      refine ⟨?_, by rw [spelled, others, List.map_cons]⟩
      intro other member
      rcases List.mem_cons.mp member with rfl | member
      · exact small
      · exact allSmall other member
    · rintro ⟨small, spelled⟩
      cases digits with
      | nil => cases spelled
      | cons digit digits =>
        obtain ⟨rfl, rfl⟩ := List.cons.inj spelled
        rw [digitValue?_digitChar (small digit List.mem_cons_self), inductionHypothesis.mpr
          ⟨fun other member => small other (List.mem_cons_of_mem digit member), rfl⟩]
        rfl

/-- More digits after a number that is not zero are more digits of its text. -/
theorem toDigits_foldl {value : Nat} (positive : 0 < value) (digits : List Nat)
    (small : ∀ digit ∈ digits, digit < 10) :
    Nat.toDigits 10 (digits.foldl (fun value digit => value * 10 + digit) value) =
      Nat.toDigits 10 value ++ digits.map Nat.digitChar := by
  induction digits generalizing value with
  | nil => rw [List.foldl_nil, List.map_nil, List.append_nil]
  | cons digit digits inductionHypothesis =>
    have digitSmall : digit < 10 := small digit List.mem_cons_self
    rw [List.foldl_cons, inductionHypothesis (by omega)
        fun other member => small other (List.mem_cons_of_mem digit member),
      Nat.mul_comm value 10, ← Nat.toDigits_append_toDigits (by decide) positive digitSmall,
      Nat.toDigits_of_lt_base digitSmall, List.map_cons, List.append_assoc, List.singleton_append]

/-- A text of digits is the text of its number, if it has no needless zero in front. -/
theorem toDigits_ofDigits {digit : Nat} {digits : List Nat}
    (small : ∀ other ∈ digit :: digits, other < 10) (shortest : digit = 0 → digits = []) :
    Nat.toDigits 10 (ofDigits (digit :: digits)) = (digit :: digits).map Nat.digitChar := by
  have digitSmall : digit < 10 := small digit List.mem_cons_self
  have first : ofDigits (digit :: digits) =
      digits.foldl (fun value digit => value * 10 + digit) digit := by
    rw [ofDigits, List.foldl_cons, Nat.zero_mul, Nat.zero_add]
  rw [first]
  rcases Nat.eq_zero_or_pos digit with zero | positive
  · rw [shortest zero, List.foldl_nil, Nat.toDigits_of_lt_base digitSmall]
    rfl
  · rw [toDigits_foldl positive digits fun other member =>
        small other (List.mem_cons_of_mem digit member),
      Nat.toDigits_of_lt_base digitSmall, List.map_cons, List.singleton_append]

/-- The text of a number is digits without a needless zero in front. -/
theorem exists_digits (value : Nat) :
    ∃ digit digits, Nat.toDigits 10 value = (digit :: digits).map Nat.digitChar ∧
      (∀ other ∈ digit :: digits, other < 10) ∧ (digit = 0 → digits = []) ∧
      ofDigits (digit :: digits) = value := by
  induction value using Nat.base_induction 10 (by decide) with
  | single value small =>
    refine ⟨value, [], Nat.toDigits_of_lt_base small, ?_, fun _ => rfl, ?_⟩
    · intro other member
      rw [List.mem_singleton.mp member]
      exact small
    · rw [ofDigits, List.foldl_cons, List.foldl_nil, Nat.zero_mul, Nat.zero_add]
  | digit value last lastSmall positive inductionHypothesis =>
    obtain ⟨digit, digits, spelled, small, shortest, read⟩ := inductionHypothesis
    refine ⟨digit, digits ++ [last], ?_, ?_, ?_, ?_⟩
    · rw [← Nat.toDigits_append_toDigits (by decide) positive lastSmall, spelled,
        Nat.toDigits_of_lt_base lastSmall, ← List.cons_append, List.map_append]
      rfl
    · intro other member
      rw [← List.cons_append] at member
      rcases List.mem_append.mp member with member | member
      · exact small other member
      · rw [List.mem_singleton.mp member]
        exact lastSmall
    · intro zero
      rw [shortest zero, zero] at read
      exact absurd read (Nat.ne_of_lt positive)
    · rw [← List.cons_append, ofDigits, List.foldl_append, ← ofDigits, read, List.foldl_cons,
        List.foldl_nil, Nat.mul_comm]

/-- A number is known by its digits. -/
theorem toDigits_injective : Function.Injective (Nat.toDigits 10) := by
  intro first second equal
  rw [← Nat.ofDigitChars_ten_toDigits (n := first), equal, Nat.ofDigitChars_ten_toDigits]

/-! ### Indices -/

theorem indexOfText?_cons {char : Char} {text : List Char}
    (shortest : char = '0' → text = []) :
    indexOfText? (char :: text) = (do
      let index := ofDigits (← (char :: text).mapM (digitValue? 10))
      if index ≤ maxArrayIndex then some index else none) := by
  unfold indexOfText?
  split
  · contradiction
  · rename_i spelled
    cases spelled
    cases shortest rfl
  · rfl

theorem indexOfText?_eq_some {text : List Char} {index : Nat} :
    indexOfText? text = some index ↔ text = Nat.toDigits 10 index ∧ index ≤ maxArrayIndex := by
  constructor
  · intro found
    cases text with
    | nil => cases found
    | cons char text =>
      have shortest : char = '0' → text = [] := by
        rintro rfl
        cases text with
        | nil => rfl
        | cons next text => cases found
      rw [indexOfText?_cons shortest] at found
      obtain ⟨digits, read, bounded⟩ := Option.bind_eq_some_iff.mp found
      obtain ⟨small, spelled⟩ := mapM_digitValue?_eq_some.mp read
      cases digits with
      | nil => cases spelled
      | cons digit digits =>
        obtain ⟨rfl, rfl⟩ := List.cons.inj spelled
        dsimp only at bounded
        split at bounded
        · rename_i bound
          cases bounded
          refine ⟨(toDigits_ofDigits small ?_).symm, bound⟩
          rintro rfl
          exact List.map_eq_nil_iff.mp (shortest rfl)
        · cases bounded
  · rintro ⟨rfl, bound⟩
    obtain ⟨digit, digits, spelled, small, shortest, read⟩ := exists_digits index
    have noZero : digit.digitChar = '0' → digits.map Nat.digitChar = [] := by
      intro zero
      have value := digitValue?_digitChar (small digit List.mem_cons_self)
      rw [zero] at value
      rw [shortest (Option.some.inj value).symm, List.map_nil]
    rw [spelled, List.map_cons, indexOfText?_cons noZero, ← List.map_cons,
      mapM_digitValue?_eq_some.mpr ⟨small, rfl⟩]
    simp only [Option.bind_eq_bind, Option.bind_some, read]
    rw [if_pos bound]

namespace Key

/-- A key is an array index exactly when it is the key that arrays keep that element under. -/
theorem arrayIndex?_eq_some {key : Key} {index : Nat} :
    key.arrayIndex? = some index ↔ key = ofIndex index ∧ index ≤ maxArrayIndex := by
  cases key with
  | text name =>
    rw [arrayIndex?, indexOfText?_eq_some, ofIndex, Key.text.injEq]
    refine and_congr_left fun _ => ⟨fun spelled => ?_, fun spelled => ?_⟩
    · rw [← spelled, String.ofList_toList]
    · rw [spelled, String.toList_ofList]
  | raw units illFormed =>
    constructor
    · intro found
      cases found
    · rintro ⟨equal, _⟩
      cases equal

theorem arrayIndex?_ofIndex {index : Nat} (bound : index ≤ maxArrayIndex) :
    (ofIndex index).arrayIndex? = some index :=
  arrayIndex?_eq_some.mpr ⟨rfl, bound⟩

theorem arrayIndex?_length : Key.length.arrayIndex? = none := by decide

/-- Numbers are not mixed up by their keys, large ones included. -/
theorem ofIndex_injective : Function.Injective ofIndex := by
  intro first second equal
  rw [ofIndex, ofIndex, Key.text.injEq, String.ofList_inj] at equal
  exact toDigits_injective equal

theorem ofIndex_ne_length (index : Nat) : ofIndex index ≠ .length := by
  intro equal
  rw [ofIndex, Key.length, Key.text.injEq] at equal
  have letter : 'l' ∈ Nat.toDigits 10 index := by
    rw [← String.toList_ofList (l := Nat.toDigits 10 index), equal]
    decide
  exact absurd (Nat.isDigit_of_mem_toDigits (by decide) (by decide) letter) (by decide)

end Key

end EcmaCore
