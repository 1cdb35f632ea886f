/-
This file is about scripts that move the length of an array down. The value that they give
is converted to a number first, and of the integers below the length only those that are
not negative are lengths, so a negative one is an error and nothing happens. With any other
the array is truncated, to where its pinned elements let the deletion come to rest.
-/

import EcmaCore.Proofs.Number.Lengths
import EcmaCore.Proofs.Object.Truncation
import EcmaCore.Proofs.Run.Outcome
import EcmaCore.Proofs.World.Fresh

namespace EcmaCore

variable (call : Caller) (realm : RealmId) {world : World} {id : ObjectId} {value : Value}
  {descriptor : Descriptor}

/-- A primitive value is converted without a call. -/
theorem outcome_toNumber_of_primitive (primitive : value.object? = none) (world : World) :
    (toNumber call realm value).outcome world = .done value.primitiveNumber world := by
  cases value with
  | object id => cases primitive
  | _ => rfl

/-- A definition of a length that is no integer up to `2 ^ 32 - 1` is an error. -/
theorem outcome_define_length_of_not_length (array : (world.object id).isArray = true)
    (given : descriptor.value = some value) (primitive : value.object? = none)
    (outside : ¬ ∃ length ≤ maxLength,
      value.primitiveNumber.integer? = some ((length : Nat) : Int)) :
    (define call realm id .length descriptor).outcome world = .threw .invalidLength world := by
  rw [define, Run.outcome_bind_of_done (Run.outcome_object id world), if_pos array, if_pos rfl,
    defineLength, given]
  show (toNumber call realm value >>= _).outcome world = _
  rw [Run.outcome_bind_of_done (outcome_toNumber_of_primitive call realm primitive world),
    if_neg (Number.equals_toUint32_iff.not.mpr outside), Run.outcome_throw]

/-- A definition of a length does to the array what its rules say. -/
theorem outcome_define_length {length : Nat} (array : (world.object id).isArray = true)
    (given : descriptor.value = some value) (primitive : value.object? = none)
    (bound : length ≤ maxLength) (whole : value.primitiveNumber.integer? = some (length : Int)) :
    (define call realm id .length descriptor).outcome world =
      .done ((world.object id).lengthDefined length descriptor).2
        (world.modifyObject id fun _ =>
          ((world.object id).lengthDefined length descriptor).1) := by
  rw [define, Run.outcome_bind_of_done (Run.outcome_object id world), if_pos array, if_pos rfl,
    defineLength, given]
  show (toNumber call realm value >>= _).outcome world = _
  rw [Run.outcome_bind_of_done (outcome_toNumber_of_primitive call realm primitive world),
    if_pos (Number.equals_toUint32_iff.mpr ⟨length, bound, whole⟩),
    Run.outcome_bind_of_done (Run.outcome_object id world), Number.toUint32_of_integer? whole bound]
  rfl

/-- Moving the writable length of a well-formed array down to an integer. A negative one is an error
that changes nothing. Any other truncates the array to the position at which the deletion of its
elements comes to rest, and is met exactly if that is the length asked for. Nothing but the elements
from that position on is lost, what is left keeps its slots and its order, and the length is then
read-only exactly if that was asked for. No other object changes. -/
theorem define_length_truncates (call : Caller) (realm : RealmId) (world : World) (id : ObjectId)
    (descriptor : Descriptor) (value : Value) (length : Nat) (target : Int)
    (wellFormed : (world.object id).WellFormedArray) (hasLength : (world.object id).HasLength length)
    (writable : (world.object id).lengthWritable = true)
    (given : descriptor.value = some value) (primitive : value.object? = none)
    (whole : value.primitiveNumber.integer? = some target) (less : target < length)
    (asks : descriptor.AsksLength) :
    (target < 0 →
      (define call realm id .length descriptor).outcome world = .threw .invalidLength world) ∧
    ∀ goal : Nat, target = goal → ∃ position after,
      (define call realm id .length descriptor).outcome world =
        .done (decide (position = goal)) after ∧
      (world.object id).Rests goal length position ∧
      (world.object id).Truncated position (.data (.number (.ofNat position))
        (descriptor.writable != some false) false false) (after.object id) ∧
      (after.object id).ownKeys = (world.object id).ownKeys.filter (Key.isBelow position) ∧
      ∀ other, other ≠ id → after.object other = world.object other := by
  have array := wellFormed.isArray
  constructor
  · intro negative
    refine outcome_define_length_of_not_length call realm array given primitive ?_
    rintro ⟨asked, _, same⟩
    rw [whole] at same
    cases same
    exact absurd negative (Int.not_lt.mpr (Int.natCast_nonneg asked))
  · rintro goal rfl
    obtain ⟨old, bound, hasOld, below⟩ := wellFormed.length
    obtain rfl : old = length := by
      obtain ⟨number, _, slot, oldWhole⟩ := hasOld
      obtain ⟨_, _, lengthSlot, lengthWhole⟩ := hasLength
      rw [slot] at lengthSlot
      cases lengthSlot
      exact Int.ofNat.inj (Option.some.inj (oldWhole.symm.trans lengthWhole))
    have lower : goal < old := Int.ofNat_lt.mp less
    obtain ⟨position, changed, rests, truncated, defined⟩ :=
      Object.lengthDefined_of_lt hasLength bound below writable lower asks
    have ends := outcome_define_length call realm array given primitive
      (Nat.le_trans (Nat.le_of_lt lower) bound) whole
    rw [defined] at ends
    have object : (world.modifyObject id fun _ => changed).object id = changed :=
      World.object_modifyObject_self (World.has_of_isArray array) _
    refine ⟨position, _, ends, rests, object.symm ▸ truncated, ?_,
      fun other different => World.object_modifyObject_of_ne different _⟩
    rw [object]
    exact truncated.ownKeys

/-! ### An array with a pinned element -/

/-- An array of length five with a hole and a named property, in which the element at three may not
be deleted. -/
def Object.pinnedArray : Object :=
  putAll { kind := .array }
    [(.length, lengthSlot 5), (.ofIndex 0, .plain .null), (.text "name", .plain .null),
      (.ofIndex 3, .data .null true true false), (.ofIndex 4, .plain .null)]

namespace Object

theorem hasLength_pinnedArray : pinnedArray.HasLength 5 :=
  ⟨.ofNat 5, true, rfl, Number.integer?_ofNat_of_le (by decide)⟩

theorem wellFormedArray_pinnedArray : pinnedArray.WellFormedArray := by
  refine ⟨rfl, 5, by decide, hasLength_pinnedArray, fun key index present spelled => ?_⟩
  obtain ⟨rfl, bound⟩ := Key.arrayIndex?_eq_some.mp spelled
  have small : ∀ other ∈ pinnedArray.indices, other < 5 := by decide
  exact small index (mem_indices.mpr ⟨bound, present⟩)

/-- The deletion comes to rest above the pinned element. -/
theorem rests_pinnedArray : pinnedArray.Rests 2 5 4 := by
  refine .above (by decide) (by decide) ⟨.data .null true true false, rfl, rfl⟩
    fun other less pinned => Nat.le_of_not_lt fun above => ?_
  obtain rfl : other = 4 := by omega
  obtain ⟨property, slot, fixed⟩ := pinned
  cases (show pinnedArray.own? (.ofIndex 4) = some (.plain .null) from rfl).symm.trans slot
  cases fixed

end Object

/-- A length of two, given as a string and together with a request to make it read-only, comes to
rest at four. The request is not met, but the length is read-only. -/
theorem define_length_truncates_to_pinned :
    let world := (World.fresh 1).add 0 .pinnedArray
    let id := (World.fresh 1).nextId 0
    ∃ after, (define (callWithin 0) 0 id .length
        { value := some (.ofText "2"), writable := some false }).outcome world =
        .done false after ∧
      (after.object id).own? .length = some (.data (.number (.ofNat 4)) false false false) ∧
      (after.object id).ownKeys = [.ofIndex 0, .ofIndex 3, .length, .text "name"] := by
  intro world id
  have object : world.object id = .pinnedArray :=
    World.object_add_nextId (World.hasRealm_fresh Nat.zero_lt_one) _
  obtain ⟨_, truncates⟩ := define_length_truncates (callWithin 0) 0 world id
    { value := some (.ofText "2"), writable := some false } (.ofText "2") 5 2
    (object ▸ Object.wellFormedArray_pinnedArray) (object ▸ Object.hasLength_pinnedArray)
    (object ▸ rfl) rfl rfl (by decide +kernel) (by decide) ⟨rfl, rfl, rfl⟩
  obtain ⟨position, after, ends, rests, truncated, listed, _⟩ := truncates 2 rfl
  rw [object] at rests listed
  obtain rfl : position = 4 := rests.unique Object.rests_pinnedArray
  exact ⟨after, ends, truncated.length, listed⟩

/-- A negative integer is below the length and yet no length: the definition does not even end in a
refusal. -/
theorem define_length_refuses_negative :
    let world := (World.fresh 1).add 0 .pinnedArray
    let id := (World.fresh 1).nextId 0
    (world.object id).WellFormedArray ∧ (world.object id).HasLength 5 ∧
      (world.object id).lengthWritable = true ∧
      (Number.ofInt (-1)).integer? = some (-1) ∧
      ¬ ∃ met after, (define (callWithin 0) 0 id .length
          { value := some (.number (.ofInt (-1))) }).outcome world = .done met after := by
  intro world id
  have object : world.object id = .pinnedArray :=
    World.object_add_nextId (World.hasRealm_fresh Nat.zero_lt_one) _
  have wellFormed : (world.object id).WellFormedArray := object ▸ Object.wellFormedArray_pinnedArray
  have whole : (Number.ofInt (-1)).integer? = some (-1) := by decide +kernel
  refine ⟨wellFormed, object ▸ Object.hasLength_pinnedArray, object ▸ rfl, whole, ?_⟩
  rintro ⟨met, after, ends⟩
  rw [outcome_define_length_of_not_length _ _ wellFormed.isArray rfl rfl] at ends
  · cases ends
  · rintro ⟨length, _, same⟩
    cases whole.symm.trans same

end EcmaCore
