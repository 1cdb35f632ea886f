/-
This file proves that asking of a slot what it already says changes nothing. The descriptor
that says all that a slot holds is admitted by the slot, whether it is configurable or not, and
what the slot becomes is the slot. A table in which a key is written with the value it has is
the same table, order included, so the object stays as it is, too.

For the length of an array one thing more is needed. What is asked there is taken as a natural
number and written as that number, so a slot that holds the number in another way, as negative
zero, would not come back. No step of an object ever leaves such a slot: the lengths in arrays
are exact.
-/

import EcmaCore.Proofs.Object.Arrays
import EcmaCore.Proofs.Object.Requests

namespace EcmaCore

/-! ### Slots -/

namespace Property

variable {property : Property}

/-- No half of the slot is present and undefined. -/
def HalvesDefined (property : Property) : Prop :=
  property.getter? ≠ some (some .undefined) ∧ property.setter? ≠ some (some .undefined)

theorem halvesDefined_data (value : Value) (writable enumerable configurable : Bool) :
    (data value writable enumerable configurable).HalvesDefined :=
  ⟨(Option.some_ne_none _).symm, (Option.some_ne_none _).symm⟩

theorem keepsHalf_self (half : Option Value) :
    keepsHalf (some (half.getD .undefined)) half = true :=
  keepsHalf_iff.mpr fun _ given => (Option.some.inj given).symm

/-- A slot admits what it already says. -/
theorem admits_ofProperty (property : Property) :
    property.admits (.ofProperty property) = true := by
  cases property with
  | data value writable enumerable configurable =>
    cases configurable with
    | true => rfl
    | false => cases writable <;> simp [admits, keepsContent, Descriptor.ofProperty,
        Descriptor.data, Descriptor.isAccessor, isAccessor, Value.same, Property.enumerable]
  | accessor getter setter enumerable configurable =>
    cases configurable with
    | true => rfl
    | false =>
      simp [admits, keepsContent, keepsHalf_self, Descriptor.ofProperty, Descriptor.isAccessor,
        isAccessor, Property.enumerable]

/-- An absent half is given as undefined and read as absent. -/
theorem half_getD {half : Option Value} (present : half ≠ some .undefined) :
    Descriptor.half (some (half.getD .undefined)) = half := by
  cases half with
  | none => rfl
  | some value =>
    have defined : value ≠ .undefined := fun same => present (same ▸ rfl)
    rw [Option.getD_some, Descriptor.half, Option.filter_some, if_pos (by simpa using defined)]

/-- A slot that is made to say what it says stays as it is. -/
theorem revised_ofProperty (defined : property.HalvesDefined) :
    property.revised (.ofProperty property) = property := by
  cases property with
  | data value writable enumerable configurable => rfl
  | accessor getter setter enumerable configurable =>
    have getterKept := half_getD fun same => defined.1 (congrArg some same)
    have setterKept := half_getD fun same => defined.2 (congrArg some same)
    simp only [revised, Descriptor.ofProperty, Descriptor.isData, Option.isSome_none,
      Option.isSome_some, Bool.or_self, Bool.false_eq_true, if_false, if_true, Option.getD_some,
      getterKept, setterKept]

end Property

/-! ### Tables -/

/-- Writing the value that a key has changes nothing. -/
theorem assign_of_valueAt {κ α : Type} [DecidableEq κ] {key : κ} {value : α}
    {entries : List (κ × α)} (found : valueAt key entries = some value) :
    assign key value entries = entries := by
  induction entries with
  | nil => cases found
  | cons entry rest inductionHypothesis =>
    obtain ⟨other, old⟩ := entry
    rw [valueAt] at found
    rw [assign]
    split at found
    · rename_i same
      rw [if_pos same, Option.some.inj found]
    · rename_i different
      rw [if_neg different, inductionHypothesis found]

theorem Table.insert_of_get? {κ α : Type} [DecidableEq κ] {table : Table κ α} {key : κ}
    {value : α} (found : table.get? key = some value) : table.insert key value = table := by
  obtain ⟨entries, distinct⟩ := table
  have same : assign key value entries = entries := assign_of_valueAt found
  simp only [insert, same]

/-! ### Objects -/

namespace Object

variable {object : Object} {key : Key} {property : Property}

theorem put_of_own? (slot : object.own? key = some property) :
    object.put key property = object := by
  rw [put, Table.insert_of_get? slot]

/-- An object allows any of its slots to be defined as it is, and stays as it is. -/
theorem redefined?_ofProperty (slot : object.own? key = some property)
    (defined : property.HalvesDefined) :
    object.redefined? key (.ofProperty property) = some object := by
  simp only [redefined?, slot, property.admits_ofProperty, if_true,
    property.revised_ofProperty defined, put_of_own? slot]

/-- An element is below the length, so it does not move the length. -/
theorem elementDefined?_ofProperty {index : Nat} (wellFormed : object.WellFormedArray)
    (spelled : key.arrayIndex? = some index) (slot : object.own? key = some property)
    (defined : property.HalvesDefined) :
    object.elementDefined? index (.ofProperty property) = some object := by
  obtain ⟨length, bound, hasLength, below⟩ := wellFormed.length
  have inside := below key index (Option.isSome_of_eq_some slot) spelled
  obtain ⟨rfl, -⟩ := Key.arrayIndex?_eq_some.mp spelled
  have notAbove : ¬ object.arrayLength ≤ index := by
    rw [hasLength.arrayLength bound]
    exact Nat.not_le_of_lt inside
  rw [elementDefined?, if_neg fun both => notAbove both.1, redefined?_ofProperty slot defined,
    Option.map_some, if_neg notAbove]

/-- Every slot but the length of an array comes back when it is defined as it is. -/
theorem defined?_ofProperty (wellFormed : object.isArray = true → object.WellFormedArray)
    (slot : object.own? key = some property) (defined : property.HalvesDefined) :
    object.defined? key (.ofProperty property) = some object := by
  rw [defined?]
  split
  · rename_i index array spelled
    exact elementDefined?_ofProperty (wellFormed array) spelled slot defined
  · exact redefined?_ofProperty slot defined

end Object

/-! ### Lengths that are exact -/

/-- If the value is a number, it is the number that a length is written as. -/
def Value.Exact (value : Value) : Prop :=
  ∀ number, value = .number number → ∃ length ≤ maxLength, number = .ofNat length

theorem Value.exact_length {length : Nat} (bound : length ≤ maxLength) :
    (Value.number (.ofNat length)).Exact := fun _ same =>
  ⟨length, bound, (Value.number.inj same).symm⟩

/-- What a slot says after a change was asked for, was there before, or is nothing. -/
theorem Property.value?_revised {current : Property} {descriptor : Descriptor} {value : Value}
    (held : (current.revised descriptor).value? = some value) :
    descriptor.value = some value ∨ current.value? = some value ∨ value = .undefined := by
  cases current with
  | data old writable enumerable configurable =>
    rw [revised] at held
    split at held
    · cases held
    · rcases Option.getD_eq_iff.mp (Option.some.inj held) with asked | ⟨-, rfl⟩
      · exact Or.inl asked
      · exact Or.inr (Or.inl rfl)
  | accessor getter setter enumerable configurable =>
    rw [revised] at held
    split at held
    · rcases Option.getD_eq_iff.mp (Option.some.inj held) with asked | ⟨-, rfl⟩
      · exact Or.inl asked
      · exact Or.inr (Or.inr rfl)
    · cases held

theorem Descriptor.value?_toProperty {descriptor : Descriptor} {value : Value}
    (held : descriptor.toProperty.value? = some value) :
    descriptor.value = some value ∨ value = .undefined := by
  rw [toProperty] at held
  split at held
  · cases held
  · rcases Option.getD_eq_iff.mp (Option.some.inj held) with asked | ⟨-, rfl⟩
    · exact Or.inl asked
    · exact Or.inr rfl

namespace Object

variable {object changed : Object} {key : Key} {property : Property} {length : Nat}
  {descriptor : Descriptor}

/-- A number in the slot of the object's length is one that a length is written as. -/
def ExactLength (object : Object) : Prop :=
  ∀ slot value, object.own? .length = some slot → slot.value? = some value → value.Exact

/-- Only the slot of the length matters. -/
theorem ExactLength.congr (exact : object.ExactLength)
    (same : changed.own? .length = object.own? .length) : changed.ExactLength :=
  fun slot value written => exact slot value (same.symm.trans written)

theorem exactLength_of_absent (absent : object.own? .length = none) : object.ExactLength := by
  intro slot value written
  rw [absent] at written
  cases written

theorem exactLength_put_length (exact : ∀ value, property.value? = some value → value.Exact) :
    (object.put .length property).ExactLength := by
  intro slot value written held
  rw [own?_put_self] at written
  exact exact value (Option.some.inj written ▸ held)

/-- A slot that is written with a length holds an exact one. -/
theorem exactLength_put_number (object : Object) (bound : length ≤ maxLength)
    (writable enumerable configurable : Bool) :
    (object.put .length
      (.data (.number (.ofNat length)) writable enumerable configurable)).ExactLength :=
  exactLength_put_length fun _ held => Option.some.inj held ▸ Value.exact_length bound

theorem exactLength_withLength (exact : object.ExactLength) (bound : length ≤ maxLength) :
    (object.withLength length).ExactLength := by
  unfold withLength
  split
  · exact exactLength_put_number object bound _ _ _
  · exact exact

/-- A definition keeps the length exact if it gives the length no value, or that of a length. -/
theorem ExactLength.redefined? (exact : object.ExactLength)
    (asked : key = .length → ∀ value, descriptor.value = some value → value.Exact)
    (allowed : object.redefined? key descriptor = some changed) : changed.ExactLength := by
  by_cases isLength : key = .length
  · subst isLength
    rcases redefined?_eq_some allowed with ⟨-, -, rfl⟩ | ⟨current, slot, -, rfl⟩
    · refine exactLength_put_length fun value held => ?_
      rcases Descriptor.value?_toProperty held with given | rfl
      · exact asked rfl value given
      · exact nofun
    · refine exactLength_put_length fun value held => ?_
      rcases Property.value?_revised held with given | before | rfl
      · exact asked rfl value given
      · exact exact current value slot before
      · exact nofun
  · obtain ⟨property, rfl⟩ := redefined?_eq_put allowed
    exact exact.congr (own?_put_of_ne object (Ne.symm isLength) property)

theorem ExactLength.elementDefined? {index : Nat} (exact : object.ExactLength)
    (small : index ≤ maxArrayIndex)
    (allowed : object.elementDefined? index descriptor = some changed) : changed.ExactLength := by
  rw [Object.elementDefined?] at allowed
  split at allowed
  · cases allowed
  · obtain ⟨filled, defined, rfl⟩ := Option.map_eq_some_iff.mp allowed
    have filledExact : filled.ExactLength :=
      exact.redefined? (fun same => absurd same (Key.ofIndex_ne_length index)) defined
    split
    · exact exactLength_withLength filledExact (Nat.succ_le_succ small)
    · exact filledExact

theorem ExactLength.deleted? (exact : object.ExactLength)
    (allowed : object.deleted? key = some changed) : changed.ExactLength := by
  rcases deleted?_eq_some allowed with ⟨-, rfl⟩ | ⟨-, -, -, rfl⟩
  · exact exact
  · by_cases isLength : key = .length
    · subst isLength
      exact exactLength_of_absent (own?_erased_self object .length)
    · exact exact.congr (own?_erased_of_ne object (Ne.symm isLength))

theorem ExactLength.lengthSteps (exact : object.ExactLength) (small : length ≤ maxLength)
    (steps : LengthSteps object length descriptor changed) : changed.ExactLength := by
  have asked {value : Value} (given : some (Value.number (.ofNat length)) = some value) :
      value.Exact := Option.some.inj given ▸ Value.exact_length small
  induction steps with
  | refused => exact exact
  | written above allowed => exact exact.redefined? (fun _ _ => asked) allowed
  | emptied writable below allowed deleted =>
    exact (exact.redefined? (fun _ _ => asked) allowed).congr deleted.own?_length
  | stuck writable below allowed deleted =>
    have stuckSmall := (mem_indices.mp (mem_indicesFrom.mp deleted.mem_of_stuck).2).1
    have kept := (exact.redefined? (fun _ _ => asked) allowed).congr deleted.own?_length
    exact exactLength_withLength kept (Nat.succ_le_succ stuckSmall)
  | locked before inductionHypothesis =>
    unfold lengthLocked
    cases allowed : Object.redefined? _ .length { writable := some false } with
    | none => exact inductionHypothesis
    | some locked =>
      refine inductionHypothesis.redefined? (fun _ value given => ?_) allowed
      cases given

/-- Every step of an array keeps its length exact, whatever it was asked for. -/
theorem Step.exactLength {asked : Descriptor → Prop} (step : object.Step asked changed)
    (array : object.isArray = true) (exact : object.ExactLength) : changed.ExactLength := by
  cases step with
  | defined request noElement noLength allowed =>
    refine exact.redefined? (fun isLength value given => ?_) allowed
    rw [noLength array isLength] at given
    cases given
  | element request small allowed => exact exact.elementDefined? small allowed
  | length request given bound => exact exact.lengthSteps bound (Object.lengthSteps object _ _)
  | deleted allowed => exact exact.deleted? allowed

/-! ### The length of an array -/

/-- The slot of the length of a well-formed array, if it is exact. -/
theorem WellFormedArray.own?_length (wellFormed : object.WellFormedArray)
    (exact : object.ExactLength) :
    ∃ length ≤ maxLength, ∃ writable,
      object.own? .length = some (.data (.number (.ofNat length)) writable false false) := by
  obtain ⟨-, -, ⟨number, writable, slot, -⟩, -⟩ := wellFormed.length
  obtain ⟨length, bound, rfl⟩ := exact _ _ slot rfl number rfl
  exact ⟨length, bound, writable, slot⟩

/-- The length of an array comes back when it is defined as it is, whether it may be changed or
not. -/
theorem lengthDefined_ofProperty {writable : Bool} (bound : length ≤ maxLength)
    (slot : object.own? .length = some (.data (.number (.ofNat length)) writable false false)) :
    object.lengthDefined length
      (.ofProperty (.data (.number (.ofNat length)) writable false false)) = (object, true) := by
  have reached : object.arrayLength = length :=
    HasLength.arrayLength ⟨_, _, slot, Number.integer?_ofNat_of_le bound⟩ bound
  have same := redefined?_ofProperty slot (Property.halvesDefined_data _ _ _ _)
  simp only [Descriptor.ofProperty, Descriptor.data] at same
  simp only [lengthDefined, reached, Nat.le_refl, if_true, Descriptor.ofProperty, Descriptor.data,
    same]

end Object

end EcmaCore
