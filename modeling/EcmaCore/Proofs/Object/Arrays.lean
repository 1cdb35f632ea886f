/-
This file is about well-formed arrays: the length is an integer that an array can have,
in a slot that is neither enumerable nor configurable, and every array index among the
own keys is below it. Every single step of an object keeps this, with any descriptor.

The step with an argument behind it moves the length down. The new length is written
while elements above it are still there, so for a moment the array is not well formed.
Elements then go from the top, and where one stays, all that are left lie at or below
it, which is why the length is put back just above it.
-/

import EcmaCore.Proofs.Number.Integers
import EcmaCore.Proofs.Object.Listing
import EcmaCore.Proofs.Object.Promises

namespace EcmaCore.Object

variable {object changed : Object} {key : Key} {length : Nat} {descriptor : Descriptor}

/-- The slot of an array's length holds an integer, neither enumerable nor configurable. -/
def HasLength (object : Object) (length : Nat) : Prop :=
  ∃ number writable, object.own? .length = some (.data (.number number) writable false false) ∧
    number.integer? = some (length : Int)

/-- Every own key that is an array index is below a length. -/
def IndicesBelow (object : Object) (length : Nat) : Prop :=
  ∀ key index, (object.own? key).isSome = true → key.arrayIndex? = some index → index < length

/-- An array with a length that arrays can have, and every index among its own keys below it. -/
structure WellFormedArray (object : Object) : Prop where
  isArray : object.isArray = true
  length : ∃ length, length ≤ maxLength ∧ object.HasLength length ∧ object.IndicesBelow length

/-- Only the class and the own properties matter. -/
theorem WellFormedArray.congr (wellFormed : object.WellFormedArray)
    (array : changed.isArray = true) (same : ∀ key, changed.own? key = object.own? key) :
    changed.WellFormedArray := by
  obtain ⟨length, bound, ⟨number, writable, slot, whole⟩, below⟩ := wellFormed.length
  refine ⟨array, length, bound, ⟨number, writable, (same .length).trans slot, whole⟩, ?_⟩
  intro key index present
  rw [same] at present
  exact below key index present

theorem HasLength.arrayLength (hasLength : object.HasLength length) (bound : length ≤ maxLength) :
    object.arrayLength = length := by
  obtain ⟨number, writable, slot, whole⟩ := hasLength
  rw [Object.arrayLength, slot]
  exact Number.clampedUint32_of_integer? whole bound

/-! ### Writing and erasing slots -/

theorem HasLength.put (hasLength : object.HasLength length) (different : key ≠ .length)
    (property : Property) : (object.put key property).HasLength length := by
  obtain ⟨number, writable, slot, whole⟩ := hasLength
  exact ⟨number, writable, by rw [own?_put_of_ne _ different.symm, slot], whole⟩

theorem IndicesBelow.put (below : object.IndicesBelow length)
    (small : ∀ index, key.arrayIndex? = some index → index < length) (property : Property) :
    (object.put key property).IndicesBelow length := by
  intro other index present spelled
  rw [own?_put] at present
  split at present
  · rename_i same
    subst same
    exact small index spelled
  · exact below other index present spelled

theorem IndicesBelow.mono {longer : Nat} (below : object.IndicesBelow length)
    (longerToo : length ≤ longer) : object.IndicesBelow longer :=
  fun key index present spelled => Nat.lt_of_lt_of_le (below key index present spelled) longerToo

/-- Writing the length adds no index. -/
theorem IndicesBelow.put_length (below : object.IndicesBelow length) (property : Property) :
    (object.put .length property).IndicesBelow length :=
  below.put (fun index spelled => by rw [Key.arrayIndex?_length] at spelled; cases spelled) property

theorem HasLength.erased (hasLength : object.HasLength length) (different : key ≠ .length) :
    (object.erased key).HasLength length := by
  obtain ⟨number, writable, slot, whole⟩ := hasLength
  exact ⟨number, writable, by rw [own?_erased_of_ne _ different.symm, slot], whole⟩

theorem own?_of_own?_erased {other : Key}
    (present : ((object.erased key).own? other).isSome = true) :
    (object.own? other).isSome = true := by
  by_cases same : other = key
  · subst same
    rw [own?_erased_self] at present
    cases present
  · rwa [own?_erased_of_ne _ same] at present

theorem hasLength_put_length {number : Number} {writable : Bool}
    (whole : number.integer? = some (length : Int)) :
    (object.put .length (.data (.number number) writable false false)).HasLength length :=
  ⟨number, writable, own?_put_self _ _ _, whole⟩

/-! ### The length slot -/

/-- The slot of a length admits nothing but another value and another writability. -/
theorem redefined?_length {number : Number} {writable : Bool}
    (slot : object.own? .length = some (.data (.number number) writable false false))
    (allowed : object.redefined? .length descriptor = some changed) :
    ∃ later, changed = object.put .length
      (.data (descriptor.value.getD (.number number)) later false false) := by
  rcases redefined?_eq_some allowed with ⟨absent, _⟩ | ⟨current, currentSlot, admitted, rfl⟩
  · rw [slot] at absent
    cases absent
  · rw [slot] at currentSlot
    cases currentSlot
    obtain ⟨notConfigurable, notEnumerable, sameKind, _⟩ := Property.admits_of_fixed rfl admitted
    have noAccessor : descriptor.isAccessor = false := by
      rcases sameKind with generic | same
      · rw [Descriptor.isGeneric, Bool.and_eq_true, Bool.not_eq_true'] at generic
        exact generic.1
      · exact same
    simp only [Property.enumerable] at notEnumerable
    refine ⟨descriptor.writable.getD writable, ?_⟩
    simp only [Property.revised, noAccessor, Property.enumerable, Property.configurable,
      notEnumerable, notConfigurable, Bool.false_eq_true, if_false]

/-- A definition without a value leaves the length as it is. -/
theorem WellFormedArray.redefined?_length (wellFormed : object.WellFormedArray)
    (noValue : descriptor.value = none)
    (allowed : object.redefined? .length descriptor = some changed) : changed.WellFormedArray := by
  obtain ⟨length, bound, ⟨number, writable, slot, whole⟩, below⟩ := wellFormed.length
  obtain ⟨later, rfl⟩ := Object.redefined?_length slot allowed
  rw [noValue]
  exact ⟨wellFormed.isArray, length, bound, hasLength_put_length whole, below.put_length _⟩

theorem WellFormedArray.lengthLocked (wellFormed : object.WellFormedArray) :
    object.lengthLocked.WellFormedArray := by
  unfold Object.lengthLocked
  cases allowed : object.redefined? .length { writable := some false } with
  | none => exact wellFormed
  | some locked => exact wellFormed.redefined?_length rfl allowed

/-- A definition that gives a length leaves that length in the slot, whatever is above it. -/
theorem hasLength_of_redefined? {old : Nat} (hasLength : object.HasLength old)
    (bound : length ≤ maxLength) (given : descriptor.value = some (.number (.ofNat length)))
    (allowed : object.redefined? .length descriptor = some changed) :
    changed.HasLength length ∧ changed.isArray = object.isArray ∧
      ∀ key, key ≠ .length → changed.own? key = object.own? key := by
  obtain ⟨number, writable, slot, whole⟩ := hasLength
  obtain ⟨later, rfl⟩ := Object.redefined?_length slot allowed
  rw [given]
  exact ⟨hasLength_put_length (Number.integer?_ofNat_of_le bound), rfl,
    fun key different => own?_put_of_ne object different _⟩

/-- A definition of any other property leaves the length and the elements as they are. -/
theorem WellFormedArray.put (wellFormed : object.WellFormedArray) (different : key ≠ .length)
    (noElement : key.arrayIndex? = none) (property : Property) :
    (object.put key property).WellFormedArray := by
  obtain ⟨length, bound, hasLength, below⟩ := wellFormed.length
  refine ⟨wellFormed.isArray, length, bound, hasLength.put different property,
    below.put ?_ property⟩
  intro index spelled
  rw [noElement] at spelled
  cases spelled

/-! ### Elements -/

theorem WellFormedArray.elementDefined? (wellFormed : object.WellFormedArray) {index : Nat}
    (small : index ≤ maxArrayIndex)
    (allowed : object.elementDefined? index descriptor = some changed) :
    changed.WellFormedArray := by
  obtain ⟨length, bound, hasLength, below⟩ := wellFormed.length
  have different : Key.ofIndex index ≠ .length := Key.ofIndex_ne_length index
  have spelled : (Key.ofIndex index).arrayIndex? = some index := Key.arrayIndex?_ofIndex small
  rw [Object.elementDefined?] at allowed
  split at allowed
  · cases allowed
  · obtain ⟨filled, defined, rfl⟩ := Option.map_eq_some_iff.mp allowed
    obtain ⟨property, rfl⟩ := redefined?_eq_put defined
    rw [hasLength.arrayLength bound]
    split
    · rename_i above
      obtain ⟨number, writable, slot, _⟩ := hasLength.put different property
      have longer : index + 1 ≤ maxLength := Nat.succ_le_succ small
      rw [withLength_of_own? slot]
      refine ⟨wellFormed.isArray, index + 1, longer,
        hasLength_put_length (Number.integer?_ofNat_of_le longer), ?_⟩
      refine ((below.mono (Nat.le_succ_of_le above)).put ?_ property).put_length _
      intro other otherSpelled
      rw [spelled] at otherSpelled
      cases otherSpelled
      exact Nat.lt_succ_self index
    · rename_i notAbove
      refine ⟨wellFormed.isArray, length, bound, hasLength.put different property,
        below.put ?_ property⟩
      intro other otherSpelled
      rw [spelled] at otherSpelled
      cases otherSpelled
      exact Nat.lt_of_not_le notAbove

/-! ### Deletions -/

theorem own?_of_own?_deleted? (allowed : object.deleted? key = some changed) {other : Key}
    (present : (changed.own? other).isSome = true) : (object.own? other).isSome = true := by
  rcases deleted?_eq_some allowed with ⟨_, rfl⟩ | ⟨_, _, _, rfl⟩
  · exact present
  · exact own?_of_own?_erased present

theorem own?_deleted?_self (allowed : object.deleted? key = some changed) :
    changed.own? key = none := by
  rcases deleted?_eq_some allowed with ⟨absent, rfl⟩ | ⟨_, _, _, rfl⟩
  · exact absent
  · exact own?_erased_self object key

theorem isArray_deleted? (allowed : object.deleted? key = some changed) :
    changed.isArray = object.isArray := by
  rcases deleted?_eq_some allowed with ⟨_, rfl⟩ | ⟨_, _, _, rfl⟩ <;> rfl

theorem WellFormedArray.deleted? (wellFormed : object.WellFormedArray)
    (allowed : object.deleted? key = some changed) : changed.WellFormedArray := by
  rcases deleted?_eq_some allowed with ⟨_, rfl⟩ | ⟨property, propertySlot, configurable, rfl⟩
  · exact wellFormed
  · obtain ⟨length, bound, hasLength, below⟩ := wellFormed.length
    have different : key ≠ .length := by
      rintro rfl
      obtain ⟨number, writable, slot, _⟩ := hasLength
      rw [slot] at propertySlot
      cases propertySlot
      cases configurable
    exact ⟨wellFormed.isArray, length, bound, hasLength.erased different,
      fun other index present => below other index (own?_of_own?_erased present)⟩

/-- What is left after deletions was there before. -/
theorem Deletions.own?_of_own? {indices : List Nat} {last : Object} {stop : Option Nat}
    (deleted : Deletions object indices last stop) {other : Key}
    (present : (last.own? other).isSome = true) : (object.own? other).isSome = true := by
  induction deleted with
  | all object => exact present
  | stuck rest refused => exact present
  | more allowed others inductionHypothesis =>
    exact own?_of_own?_deleted? allowed (inductionHypothesis present)

theorem Deletions.isArray {indices : List Nat} {last : Object} {stop : Option Nat}
    (deleted : Deletions object indices last stop) : last.isArray = object.isArray := by
  induction deleted with
  | all object => rfl
  | stuck rest refused => rfl
  | more allowed others inductionHypothesis =>
    rw [inductionHypothesis, isArray_deleted? allowed]

/-- Of indices in descending order, all that are left lie at or below the one that is stuck. -/
theorem Deletions.le_of_own? {indices : List Nat} {last : Object} {stop : Option Nat}
    (deleted : Deletions object indices last stop) (descending : indices.Pairwise (· > ·))
    {index : Nat} (member : index ∈ indices)
    (present : (last.own? (.ofIndex index)).isSome = true) :
    ∃ stuck, stop = some stuck ∧ index ≤ stuck := by
  induction deleted with
  | all object => cases member
  | stuck rest refused =>
    refine ⟨_, rfl, ?_⟩
    rcases List.mem_cons.mp member with rfl | later
    · exact Nat.le_refl _
    · exact Nat.le_of_lt ((List.pairwise_cons.mp descending).1 index later)
  | more allowed others inductionHypothesis =>
    rcases List.mem_cons.mp member with rfl | later
    · have present := others.own?_of_own? present
      rw [own?_deleted?_self allowed] at present
      cases present
    · exact inductionHypothesis (List.pairwise_cons.mp descending).2 later present

theorem Deletions.mem_of_stuck {indices : List Nat} {last : Object} {stuck : Nat}
    (deleted : Deletions object indices last (some stuck)) : stuck ∈ indices := by
  generalize stopped : some stuck = stop at deleted
  induction deleted with
  | all object => cases stopped
  | stuck rest refused =>
    cases stopped
    exact List.mem_cons_self
  | more allowed others inductionHypothesis =>
    exact List.mem_cons_of_mem _ (inductionHypothesis stopped)

theorem mem_indicesFrom {index : Nat} :
    index ∈ object.indicesFrom length ↔ length ≤ index ∧ index ∈ object.indices := by
  rw [indicesFrom, List.mem_reverse, mem_ascending, List.mem_filter, decide_eq_true_iff, and_comm]

theorem indicesFrom_descending (object : Object) (length : Nat) :
    (object.indicesFrom length).Pairwise (· > ·) :=
  List.pairwise_reverse.mpr (pairwise_ascending (object.nodup_indices.filter _))

/-- After elements from a length on were deleted from the top, what is left is below that length, or
at or below the element that was stuck. -/
theorem Deletions.left {last : Object} {stop : Option Nat}
    (deleted : Deletions object (object.indicesFrom length) last stop) {key : Key} {index : Nat}
    (present : (last.own? key).isSome = true) (spelled : key.arrayIndex? = some index) :
    index < length ∨ ∃ stuck, stop = some stuck ∧ index ≤ stuck := by
  obtain ⟨rfl, bound⟩ := Key.arrayIndex?_eq_some.mp spelled
  rcases Nat.lt_or_ge index length with below | above
  · exact Or.inl below
  · have member : index ∈ object.indicesFrom length :=
      mem_indicesFrom.mpr ⟨above, mem_indices.mpr ⟨bound, deleted.own?_of_own? present⟩⟩
    exact Or.inr (deleted.le_of_own? (object.indicesFrom_descending length) member present)

/-! ### Every step -/

theorem Deletions.hasLength {indices : List Nat} {last : Object} {stop : Option Nat}
    (deleted : Deletions object indices last stop) (hasLength : object.HasLength length) :
    last.HasLength length := by
  obtain ⟨number, writable, slot, whole⟩ := hasLength
  exact ⟨number, writable, deleted.own?_length.trans slot, whole⟩

theorem WellFormedArray.lengthSteps (wellFormed : object.WellFormedArray)
    (small : length ≤ maxLength) (steps : LengthSteps object length descriptor changed) :
    changed.WellFormedArray := by
  obtain ⟨old, _, hasOld, oldBelow⟩ := wellFormed.length
  induction steps with
  | refused => exact wellFormed
  | written above allowed =>
    rename_i oldBound _
    obtain ⟨hasNew, array, others⟩ := hasLength_of_redefined? hasOld small rfl allowed
    rw [hasOld.arrayLength oldBound] at above
    refine ⟨array.trans wellFormed.isArray, length, small, hasNew,
      fun key index present spelled => ?_⟩
    have different : key ≠ .length := by
      rintro rfl
      rw [Key.arrayIndex?_length] at spelled
      cases spelled
    rw [others key different] at present
    exact Nat.lt_of_lt_of_le (oldBelow key index present spelled) above
  | emptied writable below allowed deleted =>
    obtain ⟨hasNew, array, _⟩ := hasLength_of_redefined? hasOld small rfl allowed
    refine ⟨deleted.isArray.trans (array.trans wellFormed.isArray), length, small,
      deleted.hasLength hasNew, fun key index present spelled => ?_⟩
    rcases deleted.left present spelled with below | ⟨stuck, impossible, _⟩
    · exact below
    · cases impossible
  | stuck writable below allowed deleted =>
    rename_i shorter emptied stuck
    obtain ⟨hasNew, array, _⟩ := hasLength_of_redefined? hasOld small rfl allowed
    obtain ⟨above, owned⟩ := mem_indicesFrom.mp deleted.mem_of_stuck
    have stuckSmall : stuck + 1 ≤ maxLength := Nat.succ_le_succ (mem_indices.mp owned).1
    obtain ⟨number, lengthWritable, slot, _⟩ := deleted.hasLength hasNew
    rw [withLength_of_own? slot]
    refine ⟨deleted.isArray.trans (array.trans wellFormed.isArray), stuck + 1, stuckSmall,
      hasLength_put_length (Number.integer?_ofNat_of_le stuckSmall), ?_⟩
    refine IndicesBelow.put_length (fun key index present spelled => ?_) _
    rcases deleted.left present spelled with below | ⟨other, same, atMost⟩
    · exact Nat.lt_succ_of_le (Nat.le_trans (Nat.le_of_lt below) above)
    · cases same
      exact Nat.lt_succ_of_le atMost
  | locked before inductionHypothesis => exact inductionHypothesis.lengthLocked

/-- Every step keeps an array well formed, even one that was asked for a mixture. -/
theorem Step.wellFormedArray {asked : Descriptor → Prop} (step : object.Step asked changed)
    (wellFormed : object.WellFormedArray) : changed.WellFormedArray := by
  cases step with
  | defined request noElement noLength allowed =>
    rename_i key descriptor
    by_cases isLength : key = .length
    · subst isLength
      exact wellFormed.redefined?_length (noLength wellFormed.isArray rfl) allowed
    · obtain ⟨property, rfl⟩ := redefined?_eq_put allowed
      exact wellFormed.put isLength (noElement wellFormed.isArray) property
  | element request small allowed => exact wellFormed.elementDefined? small allowed
  | length request given bound =>
    exact wellFormed.lengthSteps bound (Object.lengthSteps object _ _)
  | deleted allowed => exact wellFormed.deleted? allowed

/-- A new array is well formed, whatever its prototype. -/
theorem wellFormedArray_new (prototype : Option ObjectId) :
    (Object.put { prototype := prototype, kind := .array } .length
      (lengthSlot 0)).WellFormedArray := by
  refine ⟨rfl, 0, Nat.zero_le _,
    hasLength_put_length (Number.integer?_ofNat_of_le (Nat.zero_le _)), ?_⟩
  exact IndicesBelow.put_length (fun key index present => by cases present) _

end EcmaCore.Object
