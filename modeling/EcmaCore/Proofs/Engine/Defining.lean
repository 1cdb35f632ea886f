/-
This file takes the definition of a property apart. Only a value that is to become the
length of an array is converted, and by that scripts may be called; then the array is looked
at again, and is changed or not. Every other definition looks at one object, and either
changes it or leaves the world as it is, so it always ends in an answer.
-/

import EcmaCore.Proofs.Engine.Making
import EcmaCore.Proofs.Engine.Truncating
import EcmaCore.Proofs.Object.Requests

namespace EcmaCore

variable (call : Caller) (realm : RealmId) {world : World} {id : ObjectId} {key : Key}
  {descriptor : Descriptor}

theorem outcome_changeObject_of_refused {change : Object → Option Object}
    (refused : change (world.object id) = none) :
    (Run.changeObject id change).outcome world = .done false world := by
  rw [Run.changeObject, Run.outcome_bind_of_done (Run.outcome_object id world), refused]
  rfl

/-- Where no value has to become a length, a definition is at most one change of the object. -/
theorem outcome_define_of_not_converts (plain : ¬ (world.object id).Converts key descriptor) :
    (define call realm id key descriptor).outcome world =
      (Run.changeObject id (·.defined? key descriptor)).outcome world := by
  have same {change : Object → Option Object}
      (agree : change (world.object id) = (world.object id).defined? key descriptor) :
      (Run.changeObject id change).outcome world =
        (Run.changeObject id (·.defined? key descriptor)).outcome world := by
    rw [Run.changeObject, Run.changeObject, Run.outcome_bind_of_done (Run.outcome_object id world),
      Run.outcome_bind_of_done (Run.outcome_object id world), agree]
  rw [define, Run.outcome_bind_of_done (Run.outcome_object id world)]
  cases array : (world.object id).isArray with
  | false =>
    refine same ?_
    rw [Object.defined?, array]
  | true =>
    rw [if_pos rfl]
    by_cases length : key = .length
    · subst length
      cases given : descriptor.value with
      | some value => exact absurd ⟨array, rfl, given ▸ rfl⟩ plain
      | none =>
        rw [if_pos rfl, defineLength, given]
        refine same ?_
        rw [Object.defined?, array, Key.arrayIndex?_length]
    · rw [if_neg length]
      cases spelled : key.arrayIndex? with
      | none =>
        refine same ?_
        rw [Object.defined?, array, spelled]
      | some index =>
        refine same ?_
        rw [Object.defined?, array, spelled]

theorem outcome_define_of_refused (plain : ¬ (world.object id).Converts key descriptor)
    (refused : (world.object id).defined? key descriptor = none) :
    (define call realm id key descriptor).outcome world = .done false world :=
  (outcome_define_of_not_converts call realm plain).trans (outcome_changeObject_of_refused refused)

theorem outcome_define_of_defined {changed : Object}
    (plain : ¬ (world.object id).Converts key descriptor)
    (defined : (world.object id).defined? key descriptor = some changed) :
    (define call realm id key descriptor).outcome world =
      .done true (world.modifyObject id fun _ => changed) :=
  (outcome_define_of_not_converts call realm plain).trans (outcome_changeObject defined)

/-- A value that has to become a length is converted first. What it comes to is checked, and only
then the array is looked at again and changed. -/
theorem outcome_define_of_converts {value : Value} (array : (world.object id).isArray = true)
    (given : descriptor.value = some value) :
    (define call realm id .length descriptor).outcome world =
      ((toNumber call realm value).outcome world).andThen fun number after =>
        if (Number.ofNat number.toUint32).equals number then
          .done ((after.object id).lengthDefined number.toUint32 descriptor).2
            (after.modifyObject id fun _ =>
              ((after.object id).lengthDefined number.toUint32 descriptor).1)
        else .threw .invalidLength after := by
  rw [define, Run.outcome_bind_of_done (Run.outcome_object id world), if_pos array, if_pos rfl,
    defineLength, given]
  show (toNumber call realm value >>= _).outcome world = _
  rw [Run.outcome_bind]
  refine congrArg _ (funext fun number => funext fun after => ?_)
  split
  · rw [Run.outcome_bind_of_done (Run.outcome_object id after)]
    rfl
  · rfl

/-- The ends that a definition can come to. Only where a value has to become a length something is
called before, and then the array is the one that the conversion has left. -/
inductive DefineEnds (world : World) (id : ObjectId) (key : Key) (descriptor : Descriptor) :
    Outcome Bool → Prop
  | refused (plain : ¬ (world.object id).Converts key descriptor)
      (closed : (world.object id).defined? key descriptor = none) :
      DefineEnds world id key descriptor (.done false world)
  | changed {changed : Object} (plain : ¬ (world.object id).Converts key descriptor)
      (allowed : (world.object id).defined? key descriptor = some changed) :
      DefineEnds world id key descriptor (.done true (world.modifyObject id fun _ => changed))
  | measured {value : Value} {number : Number} {middle : World}
      (array : (world.object id).isArray = true) (length : key = .length)
      (given : descriptor.value = some value)
      (converted : (toNumber call realm value).outcome world = .done number middle)
      (whole : (Number.ofNat number.toUint32).equals number = true) :
      DefineEnds world id key descriptor
        (.done ((middle.object id).lengthDefined number.toUint32 descriptor).2
          (middle.modifyObject id fun _ =>
            ((middle.object id).lengthDefined number.toUint32 descriptor).1))
  | invalid {value : Value} {number : Number} {middle : World}
      (array : (world.object id).isArray = true) (length : key = .length)
      (given : descriptor.value = some value)
      (converted : (toNumber call realm value).outcome world = .done number middle) :
      DefineEnds world id key descriptor (.threw .invalidLength middle)
  | failed {value : Value} {error : Error} {middle : World}
      (array : (world.object id).isArray = true) (length : key = .length)
      (given : descriptor.value = some value)
      (failed : (toNumber call realm value).outcome world = .threw error middle) :
      DefineEnds world id key descriptor (.threw error middle)
  | cutOff : DefineEnds world id key descriptor .cutOff

theorem defineEnds (world : World) (id : ObjectId) (key : Key) (descriptor : Descriptor) :
    DefineEnds call realm world id key descriptor
      ((define call realm id key descriptor).outcome world) := by
  by_cases converts : (world.object id).Converts key descriptor
  · obtain ⟨array, rfl, given⟩ := converts
    obtain ⟨value, given⟩ := Option.isSome_iff_exists.mp given
    rw [outcome_define_of_converts call realm array given]
    cases outcome : (toNumber call realm value).outcome world with
    | done number middle =>
      rw [Outcome.andThen_done]
      split
      · rename_i whole
        exact .measured array rfl given outcome whole
      · exact .invalid array rfl given outcome
    | threw error middle => exact .failed array rfl given outcome
    | cutOff => exact .cutOff
  · cases defined : (world.object id).defined? key descriptor with
    | none =>
      rw [outcome_define_of_refused call realm converts defined]
      exact .refused converts defined
    | some changed =>
      rw [outcome_define_of_defined call realm converts defined]
      exact .changed converts defined

/-- The definition of a property other than the length of an array and other than an element that a
read-only length keeps out always ends in an answer, and no function is called. It is allowed
exactly if the property is new on an extensible object, or can be configured, or does not forbid
what is asked. Then the slot says what was asked and all else about the object is as it was but for
the length of an array that got a further element; and if not, nothing has changed. -/
theorem define_validates (call : Caller) (realm : RealmId) (world : World) (id : ObjectId)
    (key : Key) (descriptor : Descriptor) (made : world.Has id)
    (noLength : (world.object id).isArray = true → key ≠ .length)
    (free : ¬ (world.object id).Closes key) (unmixed : descriptor.Unmixed) :
    ∃ met after, (define call realm id key descriptor).outcome world = .done met after ∧
      (met = true ↔
        ((world.object id).own? key = none ∧ (world.object id).extensible = true) ∨
          ∃ current, (world.object id).own? key = some current ∧
            (current.configurable = true ∨ ¬ current.Forbids descriptor)) ∧
      (met = true → (world.object id).Defines key descriptor (after.object id)) ∧
      (met = false → after = world) ∧
      (∀ other, other ≠ id → after.object other = world.object other) ∧
      after.log = world.log := by
  have plain : ¬ (world.object id).Converts key descriptor :=
    fun converts => noLength converts.1 converts.2.1
  have allowedIff : ((world.object id).defined? key descriptor).isSome = true ↔ _ :=
    Object.isSome_defined?_iff.trans (and_iff_left free)
  rw [Object.isSome_redefined?_iff unmixed] at allowedIff
  cases defined : (world.object id).defined? key descriptor with
  | none =>
    rw [defined] at allowedIff
    exact ⟨false, world, outcome_define_of_refused call realm plain defined, allowedIff, nofun,
      fun _ => rfl, fun _ _ => rfl, rfl⟩
  | some changed =>
    rw [defined] at allowedIff
    refine ⟨true, _, outcome_define_of_defined call realm plain defined, allowedIff, fun _ => ?_,
      nofun, fun other different => World.object_modifyObject_of_ne different _, rfl⟩
    rw [World.object_modifyObject_self made]
    exact Object.defines_of_defined? unmixed noLength defined

/-- An array without elements gets one, and its length goes up. -/
theorem define_validates_first_element :
    let world := World.fresh 1
    let id := Intrinsic.arrayPrototype.id 0
    ∃ after, (define (callWithin 0) 0 id (.ofIndex 0) { value := some .null }).outcome world =
        .done true after ∧
      (after.object id).own? .length = some (lengthSlot 1) ∧
      (after.object id).ownKeys.filter (· ≠ .ofIndex 0) = (world.object id).ownKeys := by
  intro world id
  have object : world.object id = Intrinsic.arrayPrototype.object 0 :=
    World.object_fresh_intrinsic Nat.zero_lt_one .arrayPrototype
  obtain ⟨met, after, ends, allowed, defines, -, -, -⟩ :=
    define_validates (callWithin 0) 0 world id (.ofIndex 0) { value := some .null }
      (World.has_of_isArray (by rw [object]; rfl)) (fun _ => Key.ofIndex_ne_length 0)
      (by rintro ⟨-, closed, -⟩; rw [object] at closed; cases closed) nofun
  obtain rfl : met = true := allowed.mpr (Or.inl (by rw [object]; exact ⟨rfl, rfl⟩))
  refine ⟨after, ends, ?_, ((defines rfl).joins (by rw [object]; rfl)).1⟩
  have raised := (defines rfl).length (by rw [object]; rfl) (Key.ofIndex_ne_length 0)
    (.number (.ofNat 0)) true false false (by rw [object]; rfl)
  have empty : (Intrinsic.arrayPrototype.object 0).arrayLength = 0 :=
    Object.arrayLength_of_slot (Nat.zero_le maxLength) rfl
  rw [object, Object.raisedLength?_ofIndex rfl (Nat.zero_le maxArrayIndex), empty] at raised
  exact raised

end EcmaCore
