/-
This file says which keys numbers have. A loop over elements makes the key of an index from
its decimal digits, while a script that uses a number as a key has it converted to a
string first, by way of the shortest decimal and a layout. For the integers that a
length can count both come to the same key; and as only the zeros share a text, no other
number has the key of one of these integers, and none but a small integer has the
key of an element.
-/

import EcmaCore.Proofs.Engine.Converting

namespace EcmaCore

namespace Number

variable {index : Nat}

/-- The text of a natural number up to the largest safe integer is its digits. -/
theorem text_ofNat (safe : index ≤ maxSafeInteger) :
    (ofNat index).text = String.ofList (Nat.toDigits 10 index) := by
  have small : index < 2 ^ 53 := Nat.lt_of_le_of_lt safe (by decide)
  have natural : ¬ (index : Int) < 0 := by omega
  rw [text_of_integer? (integer?_ofNat small) safe, integerText, if_neg natural,
    Int.natAbs_natCast]

/-- A number has the text of a natural number only by being it, either zero for nought. -/
theorem text_eq_text_ofNat_iff {number : Number} (small : index < 2 ^ 53) :
    number.text = (ofNat index).text ↔ number.integer? = some (index : Int) := by
  have whole := integer?_ofNat small
  rw [text_eq_iff]
  constructor
  · rintro (rfl | ⟨zero, zeroToo⟩)
    · exact whole
    · rw [integer?_of_isZero zero, ← integer?_of_isZero zeroToo, whole]
  · intro same
    rcases Nat.eq_zero_or_pos index with rfl | positive
    · exact Or.inr ⟨isZero_of_integer?_zero same, isZero_of_integer?_zero whole⟩
    · exact Or.inl (eq_ofNat_of_integer? same positive small)

end Number

open Number

/-! ### Keys -/

theorem outcome_toKey_number (call : Caller) (realm : RealmId) (world : World) (number : Number) :
    (toKey call realm (.number number)).outcome world = .done (.text number.text) world := by
  rw [toKey, Run.outcome_bind_of_done (outcome_toUnits_number call realm world number)]
  exact congrArg (Outcome.done · world) (Key.ofUnits_units (.text number.text))

theorem Key.ofIndex_eq_text {index : Nat} (safe : index ≤ maxSafeInteger) :
    Key.ofIndex index = .text (ofNat index).text := by
  rw [ofIndex, text_ofNat safe]

/-- The keys of numbers are the keys of loops. A natural number up to `2 ^ 53 - 1`, so every index
that a loop over elements can reach, is converted to the key that the loop makes from its digits,
which names the property that is mapped, joined, written as JSON or revived. Conversely, a number
has the key of such an index only if it is the index, and its key is an array index exactly if the
number is an integer from zero to `2 ^ 32 - 2`, a negative zero being zero; so this is never so for
NaN, an infinity, a fraction, a negative number or a larger one. Nothing is called, and the world
stays as it is. -/
theorem toKey_number :
    (∀ index ≤ maxSafeInteger, ∀ call realm world,
      (toKey call realm (.number (.ofNat index))).outcome world =
        .done (.ofIndex index) world) ∧
      ∀ number : Number, ∃ key,
        (∀ call realm world,
          (toKey call realm (.number number)).outcome world = .done key world) ∧
        (∀ index ≤ maxSafeInteger,
          key = .ofIndex index ↔ number.integer? = some (index : Int)) ∧
        ∀ index, key.arrayIndex? = some index ↔
          number.integer? = some (index : Int) ∧ index ≤ maxArrayIndex := by
  have same (number : Number) (index : Nat) (safe : index ≤ maxSafeInteger) :
      Key.text number.text = .ofIndex index ↔ number.integer? = some (index : Int) := by
    rw [Key.ofIndex_eq_text safe, Key.text.injEq,
      text_eq_text_ofNat_iff (Nat.lt_of_le_of_lt safe (by decide))]
  refine ⟨fun index safe call realm world => ?_, fun number => ⟨.text number.text,
    fun call realm world => outcome_toKey_number call realm world number, same number,
    fun index => ?_⟩⟩
  · rw [outcome_toKey_number, Key.ofIndex_eq_text safe]
  · rw [Key.arrayIndex?_eq_some]
    refine and_congr_left fun bound => same number index (bound.trans (by decide))

/-- The largest safe integer has the key of its sixteen digits, which is no array index. -/
theorem toKey_number_of_largest :
    maxSafeInteger ≤ maxSafeInteger ∧
      (toKey (callWithin 0) 0 (.number (.ofNat maxSafeInteger))).outcome (.fresh 1) =
        .done (.text "9007199254740991") (.fresh 1) ∧
      Key.arrayIndex? (.text "9007199254740991") = none := by
  have digits : Key.ofIndex maxSafeInteger = .text "9007199254740991" := by decide
  refine ⟨le_rfl, ?_, by decide⟩
  rw [← digits]
  exact toKey_number.1 maxSafeInteger le_rfl _ _ _

end EcmaCore
