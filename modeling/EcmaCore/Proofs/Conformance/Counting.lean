/-
This file proves that the setter of the mapping check keeps count. A call of it is noted when
it begins and again when it has been counted, and between the two nothing is done but to show
the warning. So where the count has not moved, each call that has begun meanwhile has failed
in its warning: the argument was to be converted to a string, and that ended in an error.
Where warnings are not shown there has been no call.

Two worlds are compared by what is noted of the setter. Looks, changes, new objects and joins
note nothing, and a call of another function adds up what is called in turn. So to add up is
one of the judgements that can be put together, and all operations, calls and programs do. It
is only asked that the setter does what it did when it was made, in all worlds on the way,
and no run can change that.
-/

import EcmaCore.Proofs.Engine.Calling
import EcmaCore.Proofs.Engine.Unwinding
import EcmaCore.Proofs.World.History

namespace EcmaCore

variable {α β : Type}

/-- The warning of a call that began in one of the worlds fails: from there the first argument
cannot be converted to a string. -/
def Call.WarningFails (call : Call) (worlds : List World) : Prop :=
  ∃ (depth : Nat) (realm : RealmId) (before after : World) (error : Error),
    before.logged call ∈ worlds ∧
    (toUnits (callWithin depth) realm (argumentAt call.arguments 0)).outcome
      (before.logged call) = .threw error after

/-- A setter that counts its calls in each of the worlds. -/
structure Watch where
  setter : ObjectId
  warns : Bool
  worlds : List World
  counts : ∀ world ∈ worlds,
    (world.object setter).callable = some ⟨"set", .probe (.count warns)⟩

/-- What is noted of the setter from the first world to the second adds up: no call that was counted
is forgotten, and if there is none more, each call meanwhile has failed in its warning. -/
structure Watch.AddsUp (watch : Watch) (before after : World) : Prop where
  counted : before.callsOf .counted (.object watch.setter) ≤
    after.callsOf .counted (.object watch.setter)
  begun : after.callsOf .counted (.object watch.setter) =
      before.callsOf .counted (.object watch.setter) →
    ∀ call ∈ after.log, call.callee = watch.setter →
      call ∈ before.log ∨ watch.warns = true ∧ call.WarningFails watch.worlds

namespace Watch.AddsUp

variable {watch : Watch} {before world after : World} {call : Call}

theorem of_sameLog (same : after.log = before.log) : watch.AddsUp before after where
  counted := by rw [World.callsOf, World.callsOf, same]
  begun _ call member _ := Or.inl (same ▸ member)

theorem trans (early : watch.AddsUp before world) (late : watch.AddsUp world after) :
    watch.AddsUp before after where
  counted := early.counted.trans late.counted
  begun same call member ofSetter := by
    have sameLate := Nat.le_antisymm (same ▸ early.counted) late.counted
    have sameEarly := sameLate.symm.trans same
    rcases late.begun sameLate call member ofSetter with old | fails
    · exact early.begun sameEarly call old ofSetter
    · exact Or.inr fails

/-- A call is noted: one of another function, one that is counted, or one that fails. -/
theorem logged (accounted : call.callee = watch.setter → call.stage = .counted ∨
    watch.warns = true ∧ call.WarningFails watch.worlds) :
    watch.AddsUp before (before.logged call) := by
  refine ⟨?_, fun same other member ofSetter => ?_⟩
  · rw [World.callsOf_logged]
    exact Nat.le_add_right _ _
  · rw [World.callsOf_logged] at same
    rcases Array.mem_push.mp member with old | rfl
    · exact Or.inl old
    · refine Or.inr ((accounted ofSetter).resolve_left fun counted => ?_)
      rw [if_pos ⟨counted, ofSetter⟩] at same
      exact Nat.succ_ne_self _ same

/-- To note the beginning of a call and later its count adds up, whatever happens in between. -/
theorem of_counted (between : watch.AddsUp (before.logged call) after) {count : Call}
    (isSetter : count.callee = watch.setter) (counted : count.stage = .counted) :
    watch.AddsUp before (after.logged count) := by
  have more : before.callsOf .counted (.object watch.setter) <
      (after.logged count).callsOf .counted (.object watch.setter) := by
    rw [World.callsOf_logged, if_pos ⟨counted, isSetter⟩]
    refine Nat.lt_succ_of_le (le_trans ?_ between.counted)
    rw [World.callsOf_logged]
    exact Nat.le_add_right _ _
  exact ⟨more.le, fun same => absurd same more.ne'⟩

end Watch.AddsUp

/-! ### Runs that add up -/

/-- Whenever the run passes through worlds of the watch only, what is noted up to its end adds up,
and its value meets a goal. -/
structure Run.Accounted (watch : Watch) (goal : α → Prop) (run : Run α) : Prop where
  addsUp : ∀ {world after}, run.worlds world ⊆ watch.worlds →
    (run.outcome world).last? = some after → watch.AddsUp world after
  met : ∀ {world after value}, run.worlds world ⊆ watch.worlds →
    run.outcome world = .done value after → goal value

namespace Run

variable {watch : Watch} {goal : α → Prop} {run : Run α}

theorem accounted_pure {value : α} (met : goal value) :
    (pure value : Run α).Accounted watch goal where
  addsUp _ ended := Option.some.inj ended ▸ .of_sameLog rfl
  met _ ended := (Outcome.done.inj ended).1 ▸ met

theorem accounted_throw (error : Error) : (throw error : Run α).Accounted watch goal where
  addsUp _ ended := Option.some.inj ended ▸ .of_sameLog rfl
  met _ ended := by cases ended

theorem accounted_cutOff : (cutOff : Run α).Accounted watch goal where
  addsUp _ ended := by cases ended
  met _ ended := by cases ended

theorem accounted_read {view : World → α} (met : ∀ world, goal (view world)) :
    (read view).Accounted watch goal where
  addsUp _ ended := Option.some.inj ended ▸ .of_sameLog rfl
  met _ ended := (Outcome.done.inj ended).1 ▸ met _

theorem accounted_modify {update : World → World}
    (addsUp : ∀ world, watch.AddsUp world (update world)) :
    (modify update).Accounted watch fun _ => True where
  addsUp _ ended := Option.some.inj ended ▸ addsUp _
  met _ _ := trivial

theorem Accounted.weaken {weaker : α → Prop} (accounted : run.Accounted watch goal)
    (enough : ∀ value, goal value → weaker value) : run.Accounted watch weaker where
  addsUp := accounted.addsUp
  met inside ended := enough _ (accounted.met inside ended)

theorem Accounted.bind {middle : α → Prop} {goal : β → Prop} {continuation : α → Run β}
    (first : run.Accounted watch middle)
    (rest : ∀ value, middle value → (continuation value).Accounted watch goal) :
    (run >>= continuation).Accounted watch goal := by
  constructor
  · intro world after inside ended
    have insideFirst := List.Subset.trans (worlds_subset_bind continuation) inside
    rw [outcome_bind] at ended
    cases early : run.outcome world with
    | done value reached =>
      rw [early] at ended
      have late := (rest value (first.met insideFirst early)).addsUp
        (List.Subset.trans (worlds_subset_bind_of_done early) inside) ended
      exact (first.addsUp insideFirst (congrArg Outcome.last? early)).trans late
    | threw error reached =>
      rw [early] at ended
      exact first.addsUp insideFirst ((congrArg Outcome.last? early).trans ended)
    | cutOff =>
      rw [early] at ended
      cases ended
  · intro world after value inside ended
    obtain ⟨result, reached, early, late⟩ := exists_of_outcome_bind ended
    have met := first.met (List.Subset.trans (worlds_subset_bind continuation) inside) early
    exact (rest result met).met (List.Subset.trans (worlds_subset_bind_of_done early) inside) late

theorem Accounted.attempt (accounted : run.Accounted watch goal) :
    run.attempt.Accounted watch fun reply => ∀ value, reply = .ok value → goal value := by
  constructor
  · intro world after inside ended
    rw [worlds_attempt] at inside
    rw [outcome_attempt] at ended
    refine accounted.addsUp inside (Eq.trans ?_ ended)
    cases run.outcome world <;> rfl
  · rintro world after reply inside ended value rfl
    rw [worlds_attempt] at inside
    rw [outcome_attempt] at ended
    cases early : run.outcome world with
    | done result reached =>
      rw [early] at ended
      cases ended
      exact accounted.met inside early
    | _ =>
      rw [early] at ended
      cases ended

theorem Accounted.followedBy {last : World → World} (accounted : run.Accounted watch goal)
    (same : ∀ world : World, (last world).log = world.log) :
    (run.followedBy last).Accounted watch goal := by
  constructor
  · intro world after inside ended
    have insideFirst := List.Subset.trans (worlds_subset_followedBy last) inside
    rw [outcome_followedBy] at ended
    cases early : run.outcome world with
    | cutOff =>
      rw [early] at ended
      cases ended
    | _ =>
      rw [early] at ended
      cases ended
      exact (accounted.addsUp insideFirst (congrArg Outcome.last? early)).trans
        (.of_sameLog (same _))
  · intro world after value inside ended
    rw [outcome_followedBy] at ended
    cases early : run.outcome world with
    | done result reached =>
      rw [early] at ended
      cases ended
      exact accounted.met (List.Subset.trans (worlds_subset_followedBy last) inside) early
    | _ =>
      rw [early] at ended
      cases ended

theorem accounted_allocate (realm : RealmId) (object : Object) :
    (allocate realm object).Accounted watch fun _ => True := by
  have looked : (read (·.nextId realm)).Accounted watch fun _ => True :=
    accounted_read fun _ => trivial
  have added : (modify (·.add realm object)).Accounted watch fun _ => True :=
    accounted_modify fun _ => .of_sameLog rfl
  exact looked.bind fun _ _ => added.bind fun _ _ => accounted_pure trivial

theorem accounted_joinOnce {realm : RealmId} {id : ObjectId} {run : Run Units}
    (accounted : run.Accounted watch fun _ => True) :
    (joinOnce realm id run).Accounted watch fun _ => True := by
  have looked : (read fun world => (world.realm realm).joining).Accounted watch fun _ => True :=
    accounted_read fun _ => trivial
  have entered : (modify (·.enterJoin realm id)).Accounted watch fun _ => True :=
    accounted_modify fun _ => .of_sameLog rfl
  refine looked.bind fun joining _ => ?_
  split
  · exact accounted_pure trivial
  · exact entered.bind fun _ _ => accounted.followedBy fun _ => rfl

theorem accounted_log {call : Call}
    (accounted : call.callee = watch.setter → call.stage = .counted) :
    (log call).Accounted watch fun _ => True :=
  accounted_modify fun _ => .logged fun ofSetter => Or.inl (accounted ofSetter)

end Run

namespace Watch

/-- To add up is a judgement on runs that have anything at all. -/
def judgement (watch : Watch) : Judgement .everything where
  judges := Run.Accounted watch
  done := Run.accounted_pure
  throw := Run.accounted_throw
  cutOff := Run.accounted_cutOff
  bind := Run.Accounted.bind
  weaken := Run.Accounted.weaken
  attempt := Run.Accounted.attempt
  followedBy accounted _ alike := accounted.followedBy fun world => (alike world).log
  read sees := Run.accounted_read fun world => sees.met world.keepsTo_everything
  modify _ alike := Run.accounted_modify fun world => .of_sameLog (alike world).log
  joinOnce _ := Run.accounted_joinOnce
  allocate _ _ := Run.accounted_allocate _ _

variable {watch : Watch} {depth : Nat} {realm : RealmId} {receiver : Value}
  {arguments : List Value}

/-- A call of a function passes through the world before it and those of what the function does. -/
theorem worlds_callWithin {world : World} {id : ObjectId} {callable : Callable} (depth : Nat)
    (realm : RealmId) (receiver : Value) (arguments : List Value)
    (found : (world.object id).callable = some callable) :
    (callWithin (depth + 1) realm (.object id) receiver arguments).worlds world =
      world :: (callable.behaviour.run (callWithin depth) depth realm id receiver arguments).worlds
        (world.logged ⟨id, receiver, arguments, .begun⟩) := by
  rw [callWithin, Run.object, Run.worlds_read_bind, found]
  rfl

/-- A warning that fails was shown, and it is the conversion that has failed. -/
theorem warningFails_of_threw {call : Call} {before after : World} {error : Error} {warns : Bool}
    {worlds : List World} (inside : before.logged call ∈ worlds)
    (failed : (warnOf (callWithin depth) realm warns (argumentAt call.arguments 0)).outcome
      (before.logged call) = .threw error after) :
    warns = true ∧ call.WarningFails worlds := by
  cases warns with
  | false => cases failed
  | true =>
    rcases Run.cases_of_bind_threw failed with failed | ⟨_, _, _, ended⟩
    · exact ⟨rfl, depth, realm, before, after, error, inside, failed⟩
    · cases ended

/-- A call of the setter adds up if its warning does. Either the warning fails, or the call is
counted. -/
theorem accounted_call_setter
    (warned : (warnOf (callWithin depth) realm watch.warns (argumentAt arguments 0)).Accounted watch
      fun _ => True) :
    (callWithin (depth + 1) realm (.object watch.setter) receiver arguments).Accounted watch
      (Value.Within .everything) := by
  refine ⟨?_, fun _ _ _ _ => trivial⟩
  intro world after inside ended
  have counts := watch.counts world (inside (Run.start_mem_worlds _ _))
  rw [worlds_callWithin depth realm receiver arguments counts] at inside
  rw [outcome_callWithin depth realm receiver arguments counts] at ended
  have insideCall := (List.cons_subset.mp inside).2
  have insideWarning := List.Subset.trans (Run.worlds_subset_bind _) insideCall
  rw [Behaviour.run, Probe.run, Run.outcome_bind] at ended
  cases shown : (warnOf (callWithin depth) realm watch.warns (argumentAt arguments 0)).outcome
      (world.logged ⟨watch.setter, receiver, arguments, .begun⟩) with
  | done _ reached =>
    rw [shown] at ended
    cases ended
    exact (warned.addsUp insideWarning (congrArg Outcome.last? shown)).of_counted rfl rfl
  | threw error reached =>
    rw [shown] at ended
    cases ended
    have fails := warningFails_of_threw (insideWarning (Run.start_mem_worlds _ _)) shown
    exact (AddsUp.logged fun _ => Or.inr fails).trans
      (warned.addsUp insideWarning (congrArg Outcome.last? shown))
  | cutOff =>
    rw [shown] at ended
    cases ended

/-- So it is for calls. -/
def accounting (watch : Watch) : Confinement .everything :=
  { watch.judgement with
    counted := fun _ counted => Run.accounted_log fun _ => counted
    called := by
      intro depth realm id receiver arguments owned missing does warned
      by_cases isSetter : id = watch.setter
      · subst isSetter
        exact accounted_call_setter (warned watch.warns)
      · refine Run.Accounted.bind (Run.accounted_read fun _ => trivial : Run.Accounted watch
          (fun _ => True) (Run.object id)) fun object _ => ?_
        cases found : object.callable with
        | none => exact missing
        | some callable =>
          exact (Run.accounted_log fun same => absurd same isSetter).bind fun _ _ =>
            does callable (object.within_everything.callable callable found) }

end Watch

/-- If a setter was not called before a call and has counted no call after it, then each call of it
meanwhile has failed in its warning, and where warnings are not shown there was none. -/
theorem warningFails_of_uncounted {depth : Nat} {realm : RealmId} {function receiver result : Value}
    {arguments : List Value} {world after : World} {setter : ObjectId} {warns : Bool}
    (counts : (world.object setter).callable = some ⟨"set", .probe (.count warns)⟩)
    (uncalled : ∀ call ∈ world.log, call.callee ≠ setter)
    (answered : (callWithin depth realm function receiver arguments).outcome world =
      .done result after)
    (uncounted : after.callsOf .counted (.object setter) = 0) :
    ∀ call ∈ after.log, call.callee = setter → warns = true ∧
      call.WarningFails ((callWithin depth realm function receiver arguments).worlds world) := by
  have remembers := (steady_callWithin historyDiscipline depth realm function receiver
    arguments).follows world ⟨trivial, world.hostsObey_anything⟩
  let watch : Watch := ⟨setter, warns, _, fun reached member =>
    (remembers.allows_of_mem member).callable_eq counts⟩
  have accounted : Run.Accounted watch _ (callWithin depth realm function receiver arguments) :=
    confined_callWithin watch.accounting depth realm function receiver arguments trivial
      (Territory.ownsAll_everything _)
  have addsUp := accounted.addsUp (List.Subset.refl _) (congrArg Outcome.last? answered)
  intro call member ofSetter
  have none := Nat.le_zero.mp (uncounted ▸ addsUp.counted)
  exact (addsUp.begun (uncounted.trans none.symm) call member ofSetter).resolve_left
    fun old => uncalled call old ofSetter

end EcmaCore
