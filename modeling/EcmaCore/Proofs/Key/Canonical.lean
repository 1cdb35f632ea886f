/-
This file says which keys are no array index, and that nothing else is: the empty text,
a text with a needless zero in front, a text with a character that is no digit, a
number that is too large, and a key with a lone surrogate. Digits of any length are
covered, since digits without a needless zero are the digits of their number.

The bound on indices leaves room for one more, so the length that an element at an
index asks for fits into 32 bits wherever an array computes it.
-/

import EcmaCore.Proofs.Object.Arrays

namespace EcmaCore

/-! ### Texts that are no index -/

/-- The text is no array index, and why. -/
inductive NoIndex : List Char → Prop
  | empty : NoIndex []
  | needlessZero (next : Char) (rest : List Char) : NoIndex ('0' :: next :: rest)
  | foreign {text : List Char} {char : Char} (member : char ∈ text)
      (noDigit : char.isDigit = false) : NoIndex text
  | tooLarge (value : Nat) (large : maxArrayIndex < value) : NoIndex (Nat.toDigits 10 value)

/-- Digits are the characters of their values. -/
theorem exists_digits_of_isDigit {text : List Char} (digits : ∀ char ∈ text, char.isDigit = true) :
    ∃ values : List Nat, (∀ value ∈ values, value < 10) ∧ text = values.map Nat.digitChar := by
  induction text with
  | nil => exact ⟨[], nofun, rfl⟩
  | cons char text inductionHypothesis =>
    obtain ⟨values, small, spelled⟩ :=
      inductionHypothesis fun other member => digits other (List.mem_cons_of_mem char member)
    have range := Char.isDigit_iff_toNat.mp (digits char List.mem_cons_self)
    have limits : '0'.toNat = 48 ∧ '9'.toNat = 57 := ⟨rfl, rfl⟩
    have valueSmall : char.toNat - 48 < 10 := by omega
    have first : char = (char.toNat - 48).digitChar := by
      refine Char.toNat_inj.mp ?_
      rw [Nat.toNat_digitChar_of_lt_ten valueSmall]
      omega
    refine ⟨(char.toNat - 48) :: values, List.forall_mem_cons.mpr ⟨valueSmall, small⟩, ?_⟩
    rw [List.map_cons, ← first, ← spelled]

/-- Digits without a needless zero are those of a number, however many they are. -/
theorem exists_toDigits {char : Char} {text : List Char}
    (digits : ∀ other ∈ char :: text, other.isDigit = true) (shortest : char = '0' → text = []) :
    ∃ value, char :: text = Nat.toDigits 10 value := by
  obtain ⟨values, small, spelled⟩ := exists_digits_of_isDigit digits
  cases values with
  | nil => cases spelled
  | cons value values =>
    have first : value = 0 → values = [] := by
      rintro rfl
      obtain ⟨zero, rest⟩ := List.cons.inj spelled
      exact List.map_eq_nil_iff.mp (rest.symm.trans (shortest zero))
    exact ⟨_, spelled.trans (toDigits_ofDigits small first).symm⟩

/-- The digits of a number have no needless zero in front. -/
theorem toDigits_ne_needlessZero (value : Nat) (next : Char) (rest : List Char) :
    Nat.toDigits 10 value ≠ '0' :: next :: rest := by
  intro same
  obtain ⟨digit, digits, spelled, small, shortest, -⟩ := exists_digits value
  rw [spelled] at same
  obtain ⟨zero, others⟩ := List.cons.inj same
  have read := digitValue?_digitChar (small digit List.mem_cons_self)
  rw [zero] at read
  rw [shortest (Option.some.inj read).symm] at others
  cases others

/-- No text is an index and refused. -/
theorem NoIndex.indexOfText? {text : List Char} (noIndex : NoIndex text) :
    indexOfText? text = none := by
  refine Option.eq_none_iff_forall_ne_some.mpr fun index found => ?_
  obtain ⟨spelled, bound⟩ := indexOfText?_eq_some.mp found
  cases noIndex with
  | empty => exact Nat.toDigits_ne_nil spelled.symm
  | needlessZero next rest => exact toDigits_ne_needlessZero index next rest spelled.symm
  | foreign member noDigit =>
    rw [spelled] at member
    rw [Nat.isDigit_of_mem_toDigits (by decide) le_rfl member] at noDigit
    cases noDigit
  | tooLarge value large =>
    rw [toDigits_injective spelled] at large
    exact absurd bound (Nat.not_le_of_lt large)

theorem indexOfText?_eq_none_iff {text : List Char} :
    indexOfText? text = none ↔ NoIndex text := by
  refine ⟨fun refused => ?_, NoIndex.indexOfText?⟩
  by_cases digits : ∀ char ∈ text, char.isDigit = true
  · match text with
    | [] => exact .empty
    | char :: rest =>
      by_cases shortest : char = '0' → rest = []
      · obtain ⟨value, spelled⟩ := exists_toDigits digits shortest
        rw [spelled] at refused ⊢
        refine .tooLarge value (Nat.lt_of_not_le fun bound => ?_)
        rw [indexOfText?_eq_some.mpr ⟨rfl, bound⟩] at refused
        cases refused
      · obtain ⟨rfl, more⟩ := Classical.not_imp.mp shortest
        obtain ⟨next, others, rfl⟩ := List.exists_cons_of_ne_nil more
        exact .needlessZero next others
  · push Not at digits
    obtain ⟨char, member, noDigit⟩ := digits
    exact .foreign member (Bool.eq_false_iff.mpr noDigit)

/-! ### Room for one more -/

/-- The successor of an index is computed in 32 bits without overflow. -/
theorem toNat_succ_of_le_maxArrayIndex {index : Nat} (bound : index ≤ maxArrayIndex) :
    (UInt32.ofNat index + 1).toNat = index + 1 := by
  have limit : maxArrayIndex + 2 = 2 ^ 32 := rfl
  have small : index < 2 ^ 32 := by omega
  have sum : index + 1 < 2 ^ 32 := by omega
  rw [UInt32.toNat_add, UInt32.toNat_ofNat_of_lt' small]
  exact Nat.mod_eq_of_lt sum

/-- The element at which a truncation stops is one of the array's, so its index is no larger. -/
theorem Object.le_maxArrayIndex_of_stuck {object last : Object} {length index : Nat}
    (stopped : object.deleteIndices (object.indicesFrom length) = (last, some index)) :
    index ≤ maxArrayIndex := by
  have deleted := deletions object (object.indicesFrom length)
  rw [stopped] at deleted
  exact (mem_indices.mp (mem_indicesFrom.mp deleted.mem_of_stuck).2).1

/-! ### Canonical indices -/

/-- Array indices are canonical. A key is the index of a number exactly if the number is at most
`2 ^ 32 - 2` and the key is its decimal text, so two keys with one index are the same key. Any
other key is none: one with a lone surrogate, and a text that is empty, has a needless zero in
front, has a character that is no digit, or is a larger number, with however many digits. The
length after an index, to which an array grows for a new element or falls back when an
element is stuck, is computed in 32 bits without overflow. -/
theorem Key.array_index_canonical (key : Key) :
    (∀ index, key.arrayIndex? = some index ↔ index ≤ maxArrayIndex ∧ key = .ofIndex index) ∧
      (∀ other, key.arrayIndex? = other.arrayIndex? ↔
        key = other ∨ key.arrayIndex? = none ∧ other.arrayIndex? = none) ∧
      (key.arrayIndex? = none ↔ ∀ name ∈ key.text?, NoIndex name.toList) ∧
      (∀ index ∈ key.arrayIndex?, (UInt32.ofNat index + 1).toNat = index + 1) ∧
      ∀ (object last : Object) (length index : Nat),
        object.deleteIndices (object.indicesFrom length) = (last, some index) →
          (UInt32.ofNat index + 1).toNat = index + 1 := by
  refine ⟨fun index => ?_, fun other => ⟨fun same => ?_, ?_⟩, ?_, fun index found => ?_,
    fun object last length index stopped => ?_⟩
  · rw [arrayIndex?_eq_some, and_comm]
  · cases found : key.arrayIndex? with
    | none => exact Or.inr ⟨rfl, same.symm.trans found⟩
    | some index =>
      rw [(arrayIndex?_eq_some.mp found).1,
        (arrayIndex?_eq_some.mp (same.symm.trans found)).1]
      exact Or.inl rfl
  · rintro (rfl | ⟨noIndex, noIndexToo⟩)
    · rfl
    · rw [noIndex, noIndexToo]
  · cases key with
    | text name =>
      rw [arrayIndex?, indexOfText?_eq_none_iff]
      simp [text?]
    | raw units illFormed =>
      exact iff_of_true rfl fun name member => absurd member (Option.not_mem_none name)
  · exact toNat_succ_of_le_maxArrayIndex (arrayIndex?_eq_some.mp found).2
  · exact toNat_succ_of_le_maxArrayIndex (Object.le_maxArrayIndex_of_stuck stopped)

/-- The largest index, and an array without its length that stops at an element there. -/
theorem Key.array_index_canonical_of_largest :
    let stuck := ({} : Object).put (.ofIndex maxArrayIndex) (.data .null true true false)
    (Key.ofIndex maxArrayIndex).arrayIndex? = some maxArrayIndex ∧
      (Key.ofIndex (maxArrayIndex + 1)).arrayIndex? = none ∧
      stuck.deleteIndices (stuck.indicesFrom 0) = (stuck, some maxArrayIndex) ∧
      (UInt32.ofNat maxArrayIndex + 1).toNat = maxArrayIndex + 1 := by
  intro stuck
  obtain ⟨canonical, -, -, -, fits⟩ := Key.array_index_canonical (.ofIndex maxArrayIndex)
  have stopped : stuck.deleteIndices (stuck.indicesFrom 0) = (stuck, some maxArrayIndex) := rfl
  exact ⟨(canonical _).mpr ⟨le_rfl, rfl⟩, by decide, stopped, fits _ _ _ _ stopped⟩

end EcmaCore
