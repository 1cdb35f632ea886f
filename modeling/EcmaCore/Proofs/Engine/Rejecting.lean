/-
This file proves that a write which comes to nothing has written nothing. The operations that
write a property ask scripts first, as far as they ask at all, and write last. So where one
is refused or fails, the world is as the calls have left it, and which calls these can be is
known: a setter, the getters of a description, the methods that convert a key or a length.

There is one exception. A length that is moved down takes the elements with it one by one,
and where one may not be deleted the array keeps what was done up to there. So this needs a
request for the length: the key is that of the length, the value that was given has been
converted to the number, and in the world that the conversion has left an element that may not
be deleted stands at the number or above.
-/

import EcmaCore.Proofs.Engine.Asking
import EcmaCore.Proofs.Engine.Defining
import EcmaCore.Proofs.Secrecy.Closed

namespace EcmaCore

/-! ### The calls of a write -/

namespace Asking

/-- The conversion of a value that is to become the length of an array. -/
inductive Measuring (call : Caller) (realm : RealmId) (object : Object) (key : Key)
    (given : Option Value) : Asking
  | conversion {value : Value} {world : World} {function receiver : Value} {arguments : List Value}
      (array : object.isArray = true) (length : key = .length) (asked : given = some value)
      (converting : Converting call realm value world function receiver arguments) :
      Measuring call realm object key given world function receiver arguments

end Asking

/-! ### Requests for a length -/

/-- Which lengths an operation may come to request, in which world: of which array, which number,
and with which descriptor. -/
abbrev Cutting := World → ObjectId → Nat → Descriptor → Prop

namespace Cutting

/-- A definition requests the length if it is one of the length with a value. It does so when the
value has been converted, and the number must be a length. -/
inductive Measured (call : Caller) (realm : RealmId) (start : World) (id : ObjectId) (key : Key)
    (descriptor : Descriptor) : Cutting
  | converted {value : Value} {number : Number} {world : World} (length : key = .length)
      (given : descriptor.value = some value)
      (converted : (toNumber call realm value).outcome start = .done number world)
      (whole : (Number.ofNat number.toUint32).equals number = true) :
      Measured call realm start id key descriptor world id number.toUint32 descriptor

/-- An assignment requests the length of its receiver, by a new value for the property if it is there
and else by a new property. -/
inductive Assigned (call : Caller) (realm : RealmId) (start : World) (key : Key)
    (value receiver : Value) : Cutting
  | changed {target id : ObjectId} {world : World} {length : Nat} {descriptor : Descriptor}
      (same : receiver = .object target)
      (present : ((start.object target).own? key).isSome = true)
      (measured : Measured call realm start target key { value := some value } world id length
        descriptor) :
      Assigned call realm start key value receiver world id length descriptor
  | made {target id : ObjectId} {world : World} {length : Nat} {descriptor : Descriptor}
      (same : receiver = .object target) (absent : (start.object target).own? key = none)
      (measured : Measured call realm start target key (.data value true true true) world id length
        descriptor) :
      Assigned call realm start key value receiver world id length descriptor

end Cutting

/-- The outcome of an operation is that it was refused or that it failed. -/
inductive Shape.Rejects : (shape : Shape) → Outcome shape.Reply → World → Prop
  | refused (after : World) : Rejects .flag (.done false after) after
  | failed {shape : Shape} (error : Error) (after : World) :
      Rejects shape (.threw error after) after

/-- The length that was requested of the array is below the one it has, an element that may not be
deleted stands at the requested length or above, and so the request was refused. The second world is
the first with the length stopped there. -/
structure World.CutsShort (world : World) (id : ObjectId) (length : Nat) (descriptor : Descriptor)
    (after : World) : Prop where
  array : (world.object id).isArray = true
  obstructed : (world.object id).Obstructed length
  unmet : ((world.object id).lengthDefined length descriptor).2 = false
  stopped : after = world.modifyObject id fun _ =>
    ((world.object id).lengthDefined length descriptor).1

/-- The second world comes from the first by the calls, and after them at most a length that was
requested was cut short. -/
def World.Spared (call : Caller) (realm : RealmId) (may : Asking) (cut : Cutting)
    (start after : World) : Prop :=
  start.Asked call realm may after ∨
    ∃ middle id length descriptor, start.Asked call realm may middle ∧
      cut middle id length descriptor ∧ middle.CutsShort id length descriptor after

/-- Of a write that came to nothing nothing is left but the calls, and a length that was cut short
is no error but a refusal. -/
structure Outcome.Traceless (call : Caller) (realm : RealmId) (may : Asking)
    (cut : Cutting) (start : World) (outcome : Outcome Bool) : Prop where
  failed : ∀ error after, outcome = .threw error after → start.Asked call realm may after
  refused : ∀ after, outcome = .done false after → start.Spared call realm may cut after

variable {call : Caller} {realm : RealmId} {may wider : Asking} {cut further : Cutting}
  {world start middle after : World} {id : ObjectId} {key : Key} {value receiver : Value}
  {descriptor : Descriptor}

/-! ### Calls keep arrays arrays -/

/-- Calls take no object back and change the class of none. -/
theorem World.Asked.sameKinds (steady : call.Steady kindDiscipline.hosted)
    (asked : start.Asked call realm may after) : start.SameKinds after := by
  induction asked with
  | nothing => exact .refl start
  | @called before after function receiver arguments early allowed ended inductionHypothesis =>
    refine inductionHypothesis.trans ?_
    cases outcome : (call realm function receiver arguments).outcome before with
    | done value last =>
      rw [outcome] at ended
      cases ended
      exact (steady realm function receiver arguments).sameKinds outcome
    | threw error last =>
      rw [outcome] at ended
      cases ended
      exact (steady realm function receiver arguments).sameKinds_of_threw outcome
    | cutOff =>
      rw [outcome] at ended
      cases ended

theorem World.SameKinds.isArray (kinds : start.SameKinds after)
    (array : (start.object id).isArray = true) : (after.object id).isArray = true := by
  rw [Object.isArray, (kinds id (World.has_of_isArray array)).2]
  exact array

/-! ### Outcomes without a trace -/

theorem World.Spared.mono (spared : start.Spared call realm may cut after)
    (allows : ∀ world function receiver arguments, may world function receiver arguments →
      wider world function receiver arguments)
    (cuts : ∀ world id length descriptor, cut world id length descriptor →
      further world id length descriptor) :
    start.Spared call realm wider further after := by
  rcases spared with asked | ⟨middle, id, length, descriptor, asked, isCut, short⟩
  · exact Or.inl (asked.mono allows)
  · exact Or.inr ⟨middle, id, length, descriptor, asked.mono allows, cuts _ _ _ _ isCut, short⟩

namespace Outcome.Traceless

variable {outcome : Outcome Bool}

theorem mono (traceless : outcome.Traceless call realm may cut start)
    (allows : ∀ world function receiver arguments, may world function receiver arguments →
      wider world function receiver arguments)
    (cuts : ∀ world id length descriptor, cut world id length descriptor →
      further world id length descriptor) :
    outcome.Traceless call realm wider further start where
  failed error after ended := (traceless.failed error after ended).mono allows
  refused after ended := (traceless.refused after ended).mono allows cuts

theorem threw {error : Error} (asked : start.Asked call realm may after) :
    (Outcome.threw error after : Outcome Bool).Traceless call realm may cut start where
  failed _ _ ended := by
    cases ended
    exact asked
  refused := nofun

theorem cutOff : (Outcome.cutOff : Outcome Bool).Traceless call realm may cut start :=
  ⟨nofun, nofun⟩

end Outcome.Traceless

/-- The conversion of a length is what a definition may ask for. -/
theorem asks_measured (array : (world.object id).isArray = true) (length : key = .length)
    (given : descriptor.value = some value) :
    (toNumber call realm value).Asks call realm
      (.Measuring call realm (world.object id) key descriptor.value) world :=
  (asks_toNumber value world).mono fun _ _ _ _ => .conversion array length given

theorem Shape.Rejects.cases_flag {outcome : Outcome Bool}
    (rejects : Shape.Rejects .flag outcome after) :
    outcome = .done false after ∨ ∃ error, outcome = .threw error after := by
  cases rejects with
  | refused => exact Or.inl rfl
  | failed error => exact Or.inr ⟨error, rfl⟩

theorem Outcome.Traceless.spared {outcome : Outcome Bool}
    (traceless : outcome.Traceless call realm may cut start)
    (rejects : Shape.Rejects .flag outcome after) :
    start.Spared call realm may cut after ∧
      (outcome = .threw .invalidLength after → start.Asked call realm may after) := by
  refine ⟨?_, traceless.failed _ after⟩
  rcases rejects.cases_flag with refused | ⟨error, failed⟩
  · exact traceless.refused after refused
  · exact Or.inl (traceless.failed error after failed)

end EcmaCore
