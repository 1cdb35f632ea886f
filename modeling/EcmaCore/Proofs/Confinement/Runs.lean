/-
This file says how runs are followed that have only what belongs to a territory. A
confinement judges runs: it says of a run that it stays confined and that its value meets a
goal. What it means by that is its own affair. All that is asked of it is that its judgement
can be put together the way runs are: from looks that see no further than the territory,
from changes that are confined, and from new objects in the realms of the territory. A
change lets the joins that run and the calls be. A join is entered and left only together,
and the note of a call is judged only together with what the function does.

So whatever follows from these rules alone is shown once for all confinements: that the
loops are confined if their steps are, and, in the files after this one, that all operations
of the engine and all programs within the territory are.
-/

import EcmaCore.Engine.Call
import EcmaCore.Proofs.Confinement.Worlds
import EcmaCore.Proofs.World.Joins

namespace EcmaCore

variable {α β : Type} {territory : Territory}

/-- A judgement on runs that have only what belongs to a territory, as far as no call is noted. -/
structure Judgement (territory : Territory) where
  judges : ∀ {α : Type}, (α → Prop) → Run α → Prop
  done : ∀ {α : Type} {goal : α → Prop} {value : α}, goal value → judges goal (pure value)
  throw : ∀ {α : Type} {goal : α → Prop} (error : Error), judges goal (Run.throw error)
  cutOff : ∀ {α : Type} {goal : α → Prop}, judges goal (Run.cutOff : Run α)
  bind : ∀ {α β : Type} {middle : α → Prop} {goal : β → Prop} {run : Run α}
    {continuation : α → Run β}, judges middle run →
    (∀ value, middle value → judges goal (continuation value)) → judges goal (run >>= continuation)
  weaken : ∀ {α : Type} {goal weaker : α → Prop} {run : Run α}, judges goal run →
    (∀ value, goal value → weaker value) → judges weaker run
  /-- An error tells of nothing foreign. -/
  attempt : ∀ {α : Type} {goal : α → Prop} {run : Run α}, judges goal run →
    judges (fun reply => ∀ value, reply = .ok value → goal value) run.attempt
  followedBy : ∀ {α : Type} {goal : α → Prop} {run : Run α} {last : World → World},
    judges goal run → territory.Confines last → (∀ world : World, world.RunsAlike (last world)) →
    judges goal (run.followedBy last)
  read : ∀ {α : Type} {goal : α → Prop} {view : World → α}, territory.Sees view goal →
    judges goal (Run.read view)
  modify : ∀ {update : World → World}, territory.Confines update →
    (∀ world : World, world.RunsAlike (update world)) → judges (fun _ => True) (Run.modify update)
  /-- A join of an object is left however its elements were joined. -/
  joinOnce : ∀ {realm : RealmId} {id : ObjectId} {run : Run Units}, territory.governs realm →
    judges (fun _ => True) run → judges (fun _ => True) (joinOnce realm id run)
  /-- A new object belongs to the territory. -/
  allocate : ∀ {realm : RealmId} {object : Object}, territory.governs realm →
    object.Within territory → judges territory.owns (Run.allocate realm object)

/-- A judgement on runs that have only what belongs to a territory. -/
structure Confinement (territory : Territory) extends Judgement territory where
  counted : ∀ {call : Call}, territory.owns call.callee → call.stage = .counted →
    judges (fun _ => True) (Run.log call)
  /-- An object is called, whether it is a function or not. -/
  called : ∀ {depth : Nat} {realm : RealmId} {id : ObjectId} {receiver : Value}
    {arguments : List Value}, territory.owns id →
    judges (Value.Within territory)
      (do Run.throw (.notCallable (← Run.display (.object id))) : Run Value) →
    (∀ callable : Callable, callable.behaviour.Within territory → judges (Value.Within territory)
      (callable.behaviour.run (callWithin depth) depth realm id receiver arguments)) →
    (∀ warns, judges (fun _ => True)
      (warnOf (callWithin depth) realm warns (argumentAt arguments 0))) →
    judges (Value.Within territory) (callWithin (depth + 1) realm (.object id) receiver arguments)

/-- To a judgement that lets any call of a function of the territory be noted, calls are nothing
special. -/
def Judgement.confinement (judgement : Judgement territory)
    (logs : ∀ {call : Call}, territory.owns call.callee →
      judgement.judges (fun _ => True) (Run.log call)) : Confinement territory :=
  { judgement with
    counted := fun owned _ => logs owned
    called := by
      intro depth realm id receiver arguments owned missing does _
      refine judgement.bind (judgement.read (Territory.sees_object owned (fun object => object)
        fun _ within => within)) fun object within => ?_
      cases found : object.callable with
      | none => exact missing
      | some callable =>
        exact judgement.bind (logs owned) fun _ _ =>
          does callable (within.callable callable found) }

/-- The run is confined, and its value meets the goal. -/
def Run.Confined (confinement : Confinement territory) (goal : α → Prop) (run : Run α) : Prop :=
  confinement.judges goal run

/-- The run is confined, whatever its value. -/
abbrev Run.Contained (confinement : Confinement territory) (run : Run α) : Prop :=
  run.Confined confinement fun _ => True

/-- Calls in the realms of the territory are confined if they are made with what belongs to it, and
return nothing foreign. -/
def Caller.Confined (confinement : Confinement territory) (call : Caller) : Prop :=
  ∀ realm function receiver arguments, territory.governs realm →
    territory.OwnsAll (function :: receiver :: arguments) →
    (call realm function receiver arguments).Confined confinement (Value.Within territory)

namespace Run

variable {confinement : Confinement territory} {goal : α → Prop} {run : Run α}

/-! ### Single steps -/

theorem confined_pure {value : α} (met : goal value) :
    (pure value : Run α).Confined confinement goal :=
  confinement.done met

theorem contained_pure (value : α) : (pure value : Run α).Contained confinement :=
  confined_pure trivial

theorem confined_throw (error : Error) : (throw error : Run α).Confined confinement goal :=
  confinement.throw error

theorem confined_cutOff : (cutOff : Run α).Confined confinement goal := confinement.cutOff

theorem confined_read {view : World → α} (sees : territory.Sees view goal) :
    (read view).Confined confinement goal :=
  confinement.read sees

theorem contained_modify {update : World → World} (confines : territory.Confines update)
    (alike : ∀ world : World, world.RunsAlike (update world)) :
    (modify update).Contained confinement :=
  confinement.modify confines alike

theorem confined_allocate {realm : RealmId} (governed : territory.governs realm) {object : Object}
    (within : object.Within territory) :
    (allocate realm object).Confined confinement territory.owns :=
  confinement.allocate governed within

/-! ### One run after another -/

theorem Confined.bind {middle : α → Prop} {goal : β → Prop} {continuation : α → Run β}
    (first : run.Confined confinement middle)
    (rest : ∀ value, middle value → (continuation value).Confined confinement goal) :
    (run >>= continuation).Confined confinement goal :=
  confinement.bind first rest

theorem Contained.bind {goal : β → Prop} {continuation : α → Run β}
    (first : run.Contained confinement)
    (rest : ∀ value, (continuation value).Confined confinement goal) :
    (run >>= continuation).Confined confinement goal :=
  Confined.bind first fun value _ => rest value

theorem Confined.weaken {weaker : α → Prop} (confined : run.Confined confinement goal)
    (enough : ∀ value, goal value → weaker value) : run.Confined confinement weaker :=
  confinement.weaken confined enough

theorem Confined.contained (confined : run.Confined confinement goal) :
    run.Contained confinement :=
  confined.weaken fun _ _ => trivial

/-- Handing out an object of the territory. -/
theorem Confined.asValue {run : Run ObjectId} (confined : run.Confined confinement territory.owns) :
    (do return .object (← run) : Run Value).Confined confinement (Value.Within territory) :=
  confined.bind fun _ owned => confined_pure (Value.within_object.mpr owned)

theorem Confined.attempt (confined : run.Confined confinement goal) :
    run.attempt.Confined confinement fun reply => ∀ value, reply = .ok value → goal value :=
  confinement.attempt confined

theorem Confined.followedBy {last : World → World} (confined : run.Confined confinement goal)
    (confines : territory.Confines last) (alike : ∀ world : World, world.RunsAlike (last world)) :
    (run.followedBy last).Confined confinement goal :=
  confinement.followedBy confined confines alike

theorem Contained.joinOnce {realm : RealmId} {id : ObjectId} {run : Run Units}
    (governed : territory.governs realm) (contained : run.Contained confinement) :
    (joinOnce realm id run).Contained confinement :=
  confinement.joinOnce governed contained

theorem Confined.preserving (confined : run.Confined confinement goal) {id : ObjectId}
    (owned : territory.owns id) : (preserving id run).Confined confinement goal := by
  refine (confined_read (Territory.sees_capture? owned)).bind fun captured within => ?_
  cases captured with
  | none => exact confined
  | some snapshot =>
    exact confined.followedBy (Territory.confines_restore (within snapshot rfl))
      fun _ => World.runsAlike_restore snapshot

/-! ### Loops -/

theorem contained_collectFrom {step : Nat → Run β}
    (contained : ∀ index, (step index).Contained confinement) (collected : List β)
    (index remaining : Nat) :
    (collectFrom step collected index remaining).Contained confinement := by
  induction remaining generalizing collected index with
  | zero => exact contained_pure _
  | succ remaining inductionHypothesis =>
    exact (contained index).bind fun result => inductionHypothesis (result :: collected) (index + 1)

theorem contained_collect {step : Nat → Run β}
    (contained : ∀ index, (step index).Contained confinement) (count : Nat) :
    (collect count step).Contained confinement :=
  contained_collectFrom contained [] 0 count

theorem contained_traverseFrom {step : α → Run β}
    (contained : ∀ member, (step member).Contained confinement) (collected : List β)
    (members : List α) : (traverseFrom step collected members).Contained confinement := by
  induction members generalizing collected with
  | nil => exact contained_pure _
  | cons member rest inductionHypothesis =>
    exact (contained member).bind fun result => inductionHypothesis (result :: collected)

theorem contained_traverse {step : α → Run β}
    (contained : ∀ member, (step member).Contained confinement) (members : List α) :
    (traverse members step).Contained confinement :=
  contained_traverseFrom contained [] members

/-! ### Looks of the engine -/

variable {id : ObjectId}

theorem confined_object (owned : territory.owns id) :
    (object id).Confined confinement (Object.Within territory) :=
  confined_read (Territory.sees_object owned (fun object => object) fun _ within => within)

theorem confined_search (owned : territory.owns id) (key : Key) :
    (search id key).Confined confinement
      fun found => territory.OwnsAll (found.toList.flatMap Property.values) := by
  refine (confined_read (Territory.sees_search owned key)).bind fun result finds => ?_
  cases result with
  | found holder property =>
    refine confined_pure ?_
    rw [Option.toList_some, List.flatMap_singleton]
    exact finds holder property rfl
  | absent => exact confined_pure Territory.ownsAll_nil
  | endless => exact confined_cutOff

theorem contained_has (owned : territory.owns id) (key : Key) :
    (has id key).Contained confinement :=
  (confined_search owned key).bind fun _ _ => contained_pure _

theorem contained_forInKeys (owned : territory.owns id) :
    (forInKeys id).Contained confinement := by
  refine (confined_read (Territory.sees_chain? owned)).bind fun found ended => ?_
  cases found with
  | some chain => exact confined_read (Territory.sees_enumerated [] (ended chain rfl))
  | none => exact confined_cutOff

section

variable {value : Value} (within : value.Within territory)
include within

theorem contained_isCallable : (isCallable value).Contained confinement :=
  confined_read (Territory.sees_isCallable within)

theorem contained_isArray : (isArray value).Contained confinement :=
  confined_read (Territory.sees_isArray within)

theorem contained_display : (display value).Contained confinement :=
  confined_read (Territory.sees_display within)

end

end Run

end EcmaCore
