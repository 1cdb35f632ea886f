/-
This file proves that the mapping check leaves no trace on the array prototype. What the
prototype is when the check is entered it is again when the check ends, whatever verdict it
ends with and whatever scripts the realm has in the places that the check goes through.

The check takes its snapshot before it calls anything, since the array that it is going to
map is made without a call. From there on nothing needs to be known of what is called: the
last change of the world puts the prototype back, after an error as well as after a verdict.
All that could be in its way is an object that is not there any more, and no run takes
objects away.
-/

import EcmaCore.Proofs.Engine.Making
import EcmaCore.Proofs.Secrecy.Closed

namespace EcmaCore

/-- The second object is the first one as far as a snapshot can tell: the same properties in the
same order, the same prototype, and as open to more. -/
structure Object.SameState (object changed : Object) : Prop where
  table : changed.table = object.table
  prototype : changed.prototype = object.prototype
  extensible : changed.extensible = object.extensible

namespace World

variable {world : World} {id : ObjectId}

/-- What a snapshot of an object holds. -/
def snapshotOf (world : World) (id : ObjectId) : Snapshot where
  target := id
  table := (world.object id).table
  prototype := (world.object id).prototype
  extensible := (world.object id).extensible

theorem capture?_of_has (made : world.Has id) : world.capture? id = some (world.snapshotOf id) :=
  if_pos made

/-- Putting a snapshot back gives its object the state that it had. -/
theorem sameState_restore {reached : World} (made : reached.Has id) :
    (world.object id).SameState ((reached.restore (world.snapshotOf id)).object id) := by
  have restored : (reached.restore (world.snapshotOf id)).object id =
      (world.snapshotOf id).onto (reached.object id) := object_modifyObject_self made _
  rw [restored]
  exact ⟨rfl, rfl, rfl⟩

end World

/-! ### Runs under a snapshot -/

section

variable {α : Type} {run : Run α} {world : World} {id : ObjectId}

theorem outcome_preserving (made : world.Has id) (run : Run α) :
    (Run.preserving id run).outcome world =
      (run.outcome world).followedBy (·.restore (world.snapshotOf id)) := by
  rw [Run.preserving, Run.outcome_bind_of_done (Run.outcome_read _ _),
    World.capture?_of_has made]
  exact Run.outcome_followedBy run _ world

/-- However a run under a snapshot ends, its object is in the state that it was in. -/
theorem sameState_preserving (grows : run.Steady kindDiscipline.hosted) (made : world.Has id) :
    (∀ value after, (Run.preserving id run).outcome world = .done value after →
      (world.object id).SameState (after.object id)) ∧
    (∀ error after, (Run.preserving id run).outcome world = .threw error after →
      (world.object id).SameState (after.object id)) := by
  rw [outcome_preserving made]
  cases inside : run.outcome world with
  | cutOff => exact ⟨nofun, nofun⟩
  | done result reached =>
    refine ⟨fun value after ended => ?_, nofun⟩
    cases ended
    exact World.sameState_restore (grows.sameKinds inside id made).1
  | threw failure reached =>
    refine ⟨nofun, fun error after ended => ?_⟩
    cases ended
    exact World.sameState_restore (grows.sameKinds_of_threw inside id made).1

end

/-! ### The mapping check -/

section

variable {realm : RealmId} {warns : Bool} {depth : Nat} {world : World}

/-- The check makes its array, which calls nothing, and goes on under a snapshot that is as good as
one that was taken before. An error becomes a verdict. -/
theorem outcome_checkMap (call : Caller) (realm : RealmId) (warns : Bool) (world : World) :
    (checkMap call realm warns).outcome world =
      ((Run.preserving (Intrinsic.arrayPrototype.id realm)
        (judgedMapping call realm warns (world.nextId realm))).outcome (world.add realm
          ((Object.emptyArray realm).createdAll (indexed
            [.number (.ofNat 1), .number (.ofNat 2), .number (.ofNat 3)])))).attempted.andThen
        fun result after => .done (match result with
          | .ok verdict => verdict
          | .error error => .broken error) after := by
  have start : (checkMapping call realm warns).outcome world = _ :=
    Run.outcome_bind_of_done (outcome_arrayOf call realm _ world) _
  rw [checkMap, Run.outcome_bind, Run.outcome_attempt, start]
  refine congrArg (Outcome.andThen _) (funext fun result => funext fun after => ?_)
  cases result <;> rfl

/-- The check always ends in a verdict, if it ends at all. -/
theorem checkMap_ne_threw (call : Caller) (realm : RealmId) (warns : Bool) (world : World)
    (error : Error) (after : World) :
    (checkMap call realm warns).outcome world ≠ .threw error after := by
  rw [outcome_checkMap]
  cases Run.outcome _ _ <;> simp [Outcome.attempted]

theorem sameState_checkMap (made : world.Has (Intrinsic.arrayPrototype.id realm))
    {verdict : Verdict} {after : World}
    (ended : (checkMap (callWithin depth) realm warns).outcome world = .done verdict after) :
    (world.object (Intrinsic.arrayPrototype.id realm)).SameState
      (after.object (Intrinsic.arrayPrototype.id realm)) := by
  rw [outcome_checkMap] at ended
  generalize ((Object.emptyArray realm).createdAll _) = array at ended
  have restored := sameState_preserving (steady_judgedMapping
    (steady_callWithin kindDiscipline depth) realm warns (world.nextId realm)) (made.add realm array)
  rw [World.object_add_of_ne made.ne_nextId] at restored
  cases inside : (Run.preserving (Intrinsic.arrayPrototype.id realm) (judgedMapping
      (callWithin depth) realm warns (world.nextId realm))).outcome (world.add realm array) with
  | cutOff =>
    rw [inside] at ended
    cases ended
  | done result reached =>
    rw [inside] at ended
    cases ended
    exact restored.1 _ _ inside
  | threw error reached =>
    rw [inside] at ended
    cases ended
    exact restored.2 _ _ inside

end

end EcmaCore
