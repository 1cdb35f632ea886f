/-
This file lists what can happen to one object at once when properties are defined or
deleted: a definition by the rules that all objects share, that of an element or of the
length of an array, and a deletion. Whatever the engine does to an object it does in
these steps, so what each of them keeps is kept by all operations. For that it is enough to say
what a slot that is written keeps and what a slot that is erased keeps.

A definition by the shared rules never adds an element to an array and never gives its
length a value. These have rules of their own, in which the length and the elements move
together.
-/

import EcmaCore.Engine.Array
import EcmaCore.Proofs.Object.Slots

namespace EcmaCore.Object

/-- The object after one definition, with a descriptor of some kind, or one deletion. -/
inductive Step (asked : Descriptor → Prop) (object : Object) : Object → Prop
  | defined {key : Key} {descriptor : Descriptor} {changed : Object} (request : asked descriptor)
      (noElement : object.isArray = true → key.arrayIndex? = none)
      (noLength : object.isArray = true → key = .length → descriptor.value = none)
      (allowed : object.redefined? key descriptor = some changed) : Step asked object changed
  | element {index : Nat} {descriptor : Descriptor} {changed : Object}
      (request : asked descriptor) (bound : index ≤ maxArrayIndex)
      (allowed : object.elementDefined? index descriptor = some changed) : Step asked object changed
  | length {length : Nat} {descriptor : Descriptor} (request : asked descriptor)
      (given : descriptor.value.isSome = true) (bound : length ≤ maxLength) :
      Step asked object (object.lengthDefined length descriptor).1
  | deleted {key : Key} {changed : Object} (allowed : object.deleted? key = some changed) :
      Step asked object changed

/-! ### The length of an array -/

/-- Elements are deleted one after another, in the order given: all of them, or all before the first
that may not be deleted. -/
inductive Deletions : Object → List Nat → Object → Option Nat → Prop
  | all (object : Object) : Deletions object [] object none
  | stuck {object : Object} {index : Nat} (rest : List Nat)
      (refused : object.deleted? (.ofIndex index) = none) :
      Deletions object (index :: rest) object (some index)
  | more {object smaller last : Object} {index : Nat} {rest : List Nat} {stop : Option Nat}
      (allowed : object.deleted? (.ofIndex index) = some smaller)
      (others : Deletions smaller rest last stop) : Deletions object (index :: rest) last stop

theorem deletions (object : Object) (indices : List Nat) :
    Deletions object indices (object.deleteIndices indices).1
      (object.deleteIndices indices).2 := by
  induction indices generalizing object with
  | nil => exact .all object
  | cons index rest inductionHypothesis =>
    cases allowed : object.deleted? (.ofIndex index) with
    | none =>
      rw [deleteIndices.eq_def]
      simp only [allowed]
      exact .stuck rest allowed
    | some smaller =>
      rw [deleteIndices.eq_def]
      simp only [allowed]
      exact .more allowed (inductionHypothesis smaller)

/-- The ways in which the definition of a length can go. To move a length down, the new one is
written first, then elements are deleted from the top, and if one is stuck the length is put back
above it. A lock that was asked for comes last. -/
inductive LengthSteps (object : Object) (length : Nat) (descriptor : Descriptor) : Object → Prop
  | refused : LengthSteps object length descriptor object
  | written {changed : Object} (above : object.arrayLength ≤ length)
      (allowed : object.redefined? .length
        { descriptor with value := some (.number (.ofNat length)) } = some changed) :
      LengthSteps object length descriptor changed
  | emptied {shorter emptied : Object} (writable : object.lengthWritable = true)
      (below : length < object.arrayLength)
      (allowed : object.redefined? .length { descriptor with
        value := some (.number (.ofNat length)), writable := some true } = some shorter)
      (deleted : Deletions shorter (shorter.indicesFrom length) emptied none) :
      LengthSteps object length descriptor emptied
  | stuck {shorter emptied : Object} {index : Nat} (writable : object.lengthWritable = true)
      (below : length < object.arrayLength)
      (allowed : object.redefined? .length { descriptor with
        value := some (.number (.ofNat length)), writable := some true } = some shorter)
      (deleted : Deletions shorter (shorter.indicesFrom length) emptied (some index)) :
      LengthSteps object length descriptor (emptied.withLength (index + 1))
  | locked {settled : Object} (before : LengthSteps object length descriptor settled) :
      LengthSteps object length descriptor settled.lengthLocked

theorem LengthSteps.lockedIf {object settled : Object} {length : Nat} {descriptor : Descriptor}
    (before : LengthSteps object length descriptor settled) (locks : Bool) :
    LengthSteps object length descriptor (if locks then settled.lengthLocked else settled) := by
  cases locks with
  | false => exact before
  | true => exact before.locked

/-- How the definition of a length ends, and whether the request was met. -/
inductive LengthEnds (object : Object) (length : Nat) (descriptor : Descriptor) :
    Object → Bool → Prop
  | refused : LengthEnds object length descriptor object false
  | written {changed : Object} (above : object.arrayLength ≤ length)
      (allowed : object.redefined? .length
        { descriptor with value := some (.number (.ofNat length)) } = some changed) :
      LengthEnds object length descriptor changed true
  | emptied {shorter emptied : Object} (writable : object.lengthWritable = true)
      (below : length < object.arrayLength)
      (allowed : object.redefined? .length { descriptor with
        value := some (.number (.ofNat length)), writable := some true } = some shorter)
      (deleted : Deletions shorter (shorter.indicesFrom length) emptied none) :
      LengthEnds object length descriptor
        (if descriptor.writable == some false then emptied.lengthLocked else emptied) true
  | stuck {shorter emptied : Object} {index : Nat} (writable : object.lengthWritable = true)
      (below : length < object.arrayLength)
      (allowed : object.redefined? .length { descriptor with
        value := some (.number (.ofNat length)), writable := some true } = some shorter)
      (deleted : Deletions shorter (shorter.indicesFrom length) emptied (some index)) :
      LengthEnds object length descriptor
        (if descriptor.writable == some false then (emptied.withLength (index + 1)).lengthLocked
          else emptied.withLength (index + 1)) false

theorem lengthEnds (object : Object) (length : Nat) (descriptor : Descriptor) :
    LengthEnds object length descriptor (object.lengthDefined length descriptor).1
      (object.lengthDefined length descriptor).2 := by
  unfold lengthDefined
  dsimp only
  split
  · rename_i above
    split
    · rename_i changed allowed
      exact .written above allowed
    · exact .refused
  · rename_i below
    split
    · exact .refused
    · rename_i fixed
      have writable : object.lengthWritable = true := by simpa using fixed
      split
      · exact .refused
      · rename_i shorter allowed
        have deleted := deletions shorter (shorter.indicesFrom length)
        split
        · rename_i emptied result
          rw [result] at deleted
          exact .emptied writable (Nat.lt_of_not_le below) allowed deleted
        · rename_i stuck index result
          rw [result] at deleted
          exact .stuck writable (Nat.lt_of_not_le below) allowed deleted

theorem lengthSteps (object : Object) (length : Nat) (descriptor : Descriptor) :
    LengthSteps object length descriptor (object.lengthDefined length descriptor).1 := by
  have ends := object.lengthEnds length descriptor
  generalize object.lengthDefined length descriptor = result at ends ⊢
  obtain ⟨changed, met⟩ := result
  cases ends with
  | refused => exact .refused
  | written above allowed => exact .written above allowed
  | emptied writable below allowed deleted =>
    exact (LengthSteps.emptied writable below allowed deleted).lockedIf _
  | stuck writable below allowed deleted =>
    exact (LengthSteps.stuck writable below allowed deleted).lockedIf _

/-! ### What every step keeps -/

/-- What is kept of an object, which slots are good for it, and what may be asked for so that slots
are good. -/
structure StepRule where
  holds : Object → Prop
  good : Property → Prop
  asked : Descriptor → Prop
  own : ∀ {object key property}, holds object → object.own? key = some property → good property
  put : ∀ {object key property}, holds object → good property → holds (object.put key property)
  erased : ∀ {object key}, holds object → holds (object.erased key)
  made : ∀ {descriptor}, asked descriptor → good descriptor.toProperty
  revised : ∀ {current descriptor}, good current → asked descriptor →
    good (current.revised descriptor)
  /-- The length of an array is asked for as a number, whatever value was given. -/
  length : ∀ {descriptor} (length : Nat) (writable : Option Bool), asked descriptor →
    asked { descriptor with value := some (.number (.ofNat length)), writable := writable }
  locked : asked { writable := some false }
  number : ∀ (length : Nat) (writable enumerable configurable : Bool),
    good (.data (.number (.ofNat length)) writable enumerable configurable)

variable {object changed : Object}

namespace StepRule

variable (rule : StepRule) {key : Key} {descriptor : Descriptor}

theorem putAll (holds : rule.holds object) {entries : List (Key × Property)}
    (good : ∀ entry ∈ entries, rule.good entry.2) : rule.holds (object.putAll entries) := by
  unfold Object.putAll
  induction entries generalizing object with
  | nil => exact holds
  | cons entry rest inductionHypothesis =>
    obtain ⟨first, others⟩ := List.forall_mem_cons.mp good
    exact inductionHypothesis (rule.put holds first) others

theorem redefined? (holds : rule.holds object) (asked : rule.asked descriptor)
    (defined : object.redefined? key descriptor = some changed) : rule.holds changed := by
  rcases redefined?_eq_some defined with ⟨_, _, rfl⟩ | ⟨current, slot, _, rfl⟩
  · exact rule.put holds (rule.made asked)
  · exact rule.put holds (rule.revised (rule.own holds slot) asked)

theorem deleted? (holds : rule.holds object) (deleted : object.deleted? key = some changed) :
    rule.holds changed := by
  rcases deleted?_eq_some deleted with ⟨_, rfl⟩ | ⟨_, _, _, rfl⟩
  · exact holds
  · exact rule.erased holds

theorem withLength (holds : rule.holds object) (length : Nat) :
    rule.holds (object.withLength length) := by
  unfold Object.withLength
  split
  · exact rule.put holds (rule.number length _ _ _)
  · exact holds

theorem elementDefined? (holds : rule.holds object) (asked : rule.asked descriptor) {index : Nat}
    (defined : object.elementDefined? index descriptor = some changed) : rule.holds changed := by
  rw [Object.elementDefined?] at defined
  split at defined
  · cases defined
  · obtain ⟨filled, allowed, rfl⟩ := Option.map_eq_some_iff.mp defined
    have filledHolds := rule.redefined? holds asked allowed
    split
    · exact rule.withLength filledHolds _
    · exact filledHolds

theorem deletions (holds : rule.holds object) {indices : List Nat} {stop : Option Nat}
    (deleted : Deletions object indices changed stop) : rule.holds changed := by
  induction deleted with
  | all object => exact holds
  | stuck rest refused => exact holds
  | more allowed others inductionHypothesis =>
    exact inductionHypothesis (rule.deleted? holds allowed)

theorem lengthSteps (holds : rule.holds object) (asked : rule.asked descriptor) {length : Nat}
    (steps : LengthSteps object length descriptor changed) : rule.holds changed := by
  induction steps with
  | refused => exact holds
  | written above allowed =>
    exact rule.redefined? holds (rule.length length descriptor.writable asked) allowed
  | emptied writable below allowed deleted =>
    have shorter := rule.redefined? holds (rule.length length (some true) asked) allowed
    exact rule.deletions shorter deleted
  | stuck writable below allowed deleted =>
    have shorter := rule.redefined? holds (rule.length length (some true) asked) allowed
    exact rule.withLength (rule.deletions shorter deleted) _
  | locked before inductionHypothesis =>
    unfold lengthLocked
    cases allowed : Object.redefined? _ .length { writable := some false } with
    | none => exact inductionHypothesis
    | some locked => exact rule.redefined? inductionHypothesis rule.locked allowed

/-- A step keeps the rule if it asks for nothing else. -/
theorem step (holds : rule.holds object) {asked : Descriptor → Prop}
    (enough : ∀ descriptor, asked descriptor → rule.asked descriptor)
    (step : object.Step asked changed) : rule.holds changed := by
  cases step with
  | defined request noElement noLength allowed =>
    exact rule.redefined? holds (enough _ request) allowed
  | element request bound allowed => exact rule.elementDefined? holds (enough _ request) allowed
  | length request given bound =>
    exact rule.lengthSteps holds (enough _ request) (object.lengthSteps _ _)
  | deleted allowed => exact rule.deleted? holds allowed

end StepRule

/-! ### What a step leaves alone -/

/-- The class and the callable side of the second object are those of the first. -/
structure SameNature (object changed : Object) : Prop where
  kind : changed.kind = object.kind
  callable : changed.callable = object.callable

theorem SameNature.trans {middle : Object} (early : object.SameNature middle)
    (late : middle.SameNature changed) : object.SameNature changed :=
  ⟨late.kind.trans early.kind, late.callable.trans early.callable⟩

/-- No write of a slot changes the nature of an object. -/
def natureRule (object : Object) : StepRule where
  holds := object.SameNature
  good _ := True
  asked _ := True
  own _ _ := trivial
  put same _ := ⟨same.kind, same.callable⟩
  erased same := ⟨same.kind, same.callable⟩
  made _ := trivial
  revised _ _ := trivial
  length _ _ _ := trivial
  locked := trivial
  number _ _ _ _ := trivial

theorem sameNature_putAll (object : Object) (entries : List (Key × Property)) :
    object.SameNature (object.putAll entries) :=
  object.natureRule.putAll ⟨rfl, rfl⟩ fun _ _ => trivial

theorem Step.sameNature {asked : Descriptor → Prop} (step : object.Step asked changed) :
    object.SameNature changed :=
  object.natureRule.step ⟨rfl, rfl⟩ (fun _ _ => trivial) step

end EcmaCore.Object
