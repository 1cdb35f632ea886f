/-
This file proves that joins unwind. A join of an object is entered before its elements are
read and left when that is over, in a value or an error, whatever the scripts do that are
called meanwhile: other joins that they begin have been left by then. So at the end of a run
the same joins run as at its start, and on the way they are still there below those that
were begun meanwhile. An object that is being joined is not entered again, so none is being
joined twice.

To keep the joins that run is one of the judgements that can be put together from looks,
changes, new objects and joins. The territory is everything, so what holds of all such
judgements makes it hold of all operations, calls and programs.
-/

import EcmaCore.Proofs.Confinement.Calls
import EcmaCore.Proofs.Engine.Asking
import EcmaCore.Proofs.Engine.Joining

namespace EcmaCore

variable {α β : Type}

/-! ### Everything -/

/-- All realms with all objects. -/
def Territory.everything : Territory where
  governs _ := True
  owns _ := True
  intrinsic _ _ := trivial

theorem Territory.ownsAll_everything (values : List Value) : everything.OwnsAll values :=
  fun _ _ _ _ => trivial

/-- No program can leave everything. -/
theorem Program.within_everything (program : Program) : program.Within .everything := by
  induction program with
  | finish value => exact fun _ _ => trivial
  | raise error => exact trivial
  | perform realm operation next inductionHypothesis =>
    exact ⟨trivial, Territory.ownsAll_everything _, fun reply _ => inductionHypothesis reply⟩
  | makeFunction realm name arity body next bodyHypothesis nextHypothesis =>
    exact ⟨trivial, fun invocation _ _ => bodyHypothesis invocation, fun id _ => nextHypothesis id⟩

theorem Object.within_everything (object : Object) : object.Within .everything where
  table _ _ _ := Territory.ownsAll_everything _
  prototype _ _ := trivial
  callable callable _ := by
    cases callable.behaviour with
    | host body => exact fun invocation _ _ => (body invocation).within_everything
    | _ => exact trivial

theorem World.keepsTo_everything (world : World) : world.KeepsTo .everything where
  object id _ := (world.object id).within_everything
  memory _ _ := ⟨fun _ _ _ _ _ => trivial, fun _ _ _ =>
    ⟨trivial, fun _ _ _ => Territory.ownsAll_everything _, fun _ _ => trivial⟩⟩

/-! ### Runs that unwind -/

/-- On the way from a world the joins stay below those that are begun, no object comes to be joined
twice, and at the end the joins run again and the value meets a goal. -/
def Run.UnwindsTo (joins : RealmId → List ObjectId) (goal : α → Prop) : Run α → World → Prop
  | .done value, world => world.joins = joins ∧ goal value
  | .threw _, world => world.joins = joins
  | .cutOff, _ => True
  | .look next, world => (next world).UnwindsTo joins goal world
  | .change update next, world =>
    (∀ realm, joins realm <:+ (update world).joins realm) ∧
      (world.JoinsOnce → (update world).JoinsOnce) ∧
      (next ()).UnwindsTo joins goal (update world)

/-- From every world the run unwinds to the joins that run there. -/
structure Run.Balanced (goal : α → Prop) (run : Run α) : Prop where
  unwinds : ∀ world : World, run.UnwindsTo world.joins goal world

namespace Run

variable {goal : α → Prop} {run : Run α} {world : World} {joins : RealmId → List ObjectId}

theorem UnwindsTo.bind {middle : α → Prop} {goal : β → Prop} {continuation : α → Run β}
    (first : run.UnwindsTo joins middle world)
    (rest : ∀ value, middle value → (continuation value).Balanced goal) :
    (run >>= continuation).UnwindsTo joins goal world := by
  change (run.andThen continuation).UnwindsTo joins goal world
  induction run generalizing world with
  | done value =>
    obtain ⟨rfl, met⟩ := first
    exact (rest value met).unwinds world
  | threw error => exact first
  | cutOff => exact trivial
  | look next inductionHypothesis => exact inductionHypothesis world first
  | change update next inductionHypothesis =>
    obtain ⟨below, once, later⟩ := first
    exact ⟨below, once, inductionHypothesis () later⟩

theorem Balanced.bind {middle : α → Prop} {goal : β → Prop} {continuation : α → Run β}
    (first : run.Balanced middle)
    (rest : ∀ value, middle value → (continuation value).Balanced goal) :
    (run >>= continuation).Balanced goal where
  unwinds world := (first.unwinds world).bind rest

theorem UnwindsTo.weaken {weaker : α → Prop} (unwinds : run.UnwindsTo joins goal world)
    (enough : ∀ value, goal value → weaker value) : run.UnwindsTo joins weaker world := by
  induction run generalizing world with
  | done value => exact ⟨unwinds.1, enough value unwinds.2⟩
  | threw error => exact unwinds
  | cutOff => exact trivial
  | look next inductionHypothesis => exact inductionHypothesis world unwinds
  | change update next inductionHypothesis =>
    obtain ⟨below, once, later⟩ := unwinds
    exact ⟨below, once, inductionHypothesis () later⟩

theorem UnwindsTo.attempt (unwinds : run.UnwindsTo joins goal world) :
    run.attempt.UnwindsTo joins (fun reply => ∀ value, reply = .ok value → goal value) world := by
  induction run generalizing world with
  | done value => exact ⟨unwinds.1, fun _ same => Except.ok.inj same ▸ unwinds.2⟩
  | threw error => exact ⟨unwinds, nofun⟩
  | cutOff => exact trivial
  | look next inductionHypothesis => exact inductionHypothesis world unwinds
  | change update next inductionHypothesis =>
    obtain ⟨below, once, later⟩ := unwinds
    exact ⟨below, once, inductionHypothesis () later⟩

/-- A last change that gives back the joins of before makes the whole unwind to them. -/
theorem UnwindsTo.followedBy {inside : RealmId → List ObjectId} {last : World → World}
    (unwinds : run.UnwindsTo inside goal world)
    (below : ∀ realm, joins realm <:+ inside realm)
    (gives : ∀ after : World, after.joins = inside → (last after).joins = joins)
    (once : ∀ after : World, after.JoinsOnce → (last after).JoinsOnce) :
    (run.followedBy last).UnwindsTo joins goal world := by
  have suffix (after : World) (same : after.joins = inside) (realm : RealmId) :
      joins realm <:+ (last after).joins realm :=
    (gives after same).symm ▸ List.suffix_refl _
  -- Inside, the joins of before are below those that were entered, and these below all others.
  induction run generalizing world with
  | done value =>
    exact ⟨suffix world unwinds.1, once world, gives world unwinds.1, unwinds.2⟩
  | threw error => exact ⟨suffix world unwinds, once world, gives world unwinds⟩
  | cutOff => exact trivial
  | look next inductionHypothesis => exact inductionHypothesis world unwinds
  | change update next inductionHypothesis =>
    obtain ⟨further, kept, later⟩ := unwinds
    exact ⟨fun realm => (below realm).trans (further realm), kept, inductionHypothesis () later⟩

/-! ### What unwinds -/

theorem balanced_read {view : World → α} (met : ∀ world, goal (view world)) :
    (read view).Balanced goal where
  unwinds world := ⟨rfl, met world⟩

theorem balanced_modify {update : World → World}
    (same : ∀ world, (update world).joins = world.joins) :
    (modify update).Balanced fun _ => True where
  unwinds world := ⟨fun _ => (same world).symm ▸ List.suffix_refl _,
    (World.joinsOnce_congr (same world)).mpr, same world, trivial⟩

theorem balanced_allocate (realm : RealmId) (object : Object) :
    (allocate realm object).Balanced fun _ => True := by
  have looked : (read (·.nextId realm)).Balanced fun _ => True := balanced_read fun _ => trivial
  have added : (modify (·.add realm object)).Balanced fun _ => True :=
    balanced_modify fun _ => World.joins_add object
  exact looked.bind fun _ _ => added.bind fun _ _ => ⟨fun _ => ⟨rfl, trivial⟩⟩

/-- The join of an object is left with the joins that ran when it was entered. -/
theorem balanced_joinOnce {realm : RealmId} {id : ObjectId} {run : Run Units}
    (balanced : run.Balanced fun _ => True) :
    (joinOnce realm id run).Balanced fun _ => True := by
  refine ⟨fun world => ?_⟩
  by_cases again : id ∈ world.joins realm
  · show UnwindsTo _ _ (if id ∈ world.joins realm then _ else _) world
    rw [if_pos again]
    exact ⟨rfl, trivial⟩
  · show UnwindsTo _ _ (if id ∈ world.joins realm then _ else _) world
    rw [if_neg again]
    have below := World.joins_suffix_enterJoin world realm id
    refine ⟨below, fun once => once.enterJoin again, ?_⟩
    exact (balanced.unwinds (world.enterJoin realm id)).followedBy below
      (fun _ => World.joins_leaveJoin_of_entered) fun _ once => once.leaveJoin realm

end Run

/-- To unwind is a judgement on runs that have anything at all. -/
def unwindingJudgement : Judgement .everything where
  judges := Run.Balanced
  done met := ⟨fun _ => ⟨rfl, met⟩⟩
  throw _ := ⟨fun _ => rfl⟩
  cutOff := ⟨fun _ => trivial⟩
  bind := Run.Balanced.bind
  weaken balanced enough := ⟨fun world => (balanced.unwinds world).weaken enough⟩
  attempt balanced := ⟨fun world => (balanced.unwinds world).attempt⟩
  followedBy balanced _ alike := ⟨fun world => (balanced.unwinds world).followedBy
    (fun _ => List.suffix_refl _) (fun after joins => (alike after).joins.trans joins)
    fun after => (World.joinsOnce_congr (alike after).joins).mpr⟩
  read sees := Run.balanced_read fun world => sees.met world.keepsTo_everything
  modify _ alike := Run.balanced_modify fun world => (alike world).joins
  joinOnce _ := Run.balanced_joinOnce
  allocate _ _ := Run.balanced_allocate _ _

/-- To note a call lets the joins be. -/
def unwinding : Confinement .everything :=
  unwindingJudgement.confinement fun _ => Run.balanced_modify fun _ => rfl

/-! ### The joins of a run -/

/-- When the run has ended, in a value or an error, the joins are those of its start. Meanwhile they
are below the joins that it begins, and it lets no object be joined twice. -/
structure Run.LeavesJoins (run : Run α) (world : World) : Prop where
  ended : ∀ after, (run.outcome world).last? = some after → after.joins = world.joins
  below : ∀ reached ∈ run.worlds world, ∀ realm, world.joins realm <:+ reached.joins realm
  once : world.JoinsOnce → ∀ reached ∈ run.worlds world, reached.JoinsOnce

namespace Run

variable {goal : α → Prop} {run : Run α} {world : World} {joins : RealmId → List ObjectId}

theorem UnwindsTo.ended (unwinds : run.UnwindsTo joins goal world) {after : World}
    (last : (run.outcome world).last? = some after) : after.joins = joins := by
  induction run generalizing world with
  | done value => exact Option.some.inj last ▸ unwinds.1
  | threw error => exact Option.some.inj last ▸ unwinds
  | cutOff => cases last
  | look next inductionHypothesis => exact inductionHypothesis world unwinds last
  | change update next inductionHypothesis => exact inductionHypothesis () unwinds.2.2 last

theorem UnwindsTo.below (unwinds : run.UnwindsTo joins goal world)
    (start : ∀ realm, joins realm <:+ world.joins realm) {reached : World}
    (member : reached ∈ run.worlds world) (realm : RealmId) :
    joins realm <:+ reached.joins realm := by
  induction run generalizing world with
  | look next inductionHypothesis => exact inductionHypothesis world unwinds start member
  | change update next inductionHypothesis =>
    rcases List.mem_cons.mp member with rfl | later
    · exact start realm
    · exact inductionHypothesis () unwinds.2.2 unwinds.1 later
  | _ => exact List.mem_singleton.mp member ▸ start realm

theorem UnwindsTo.once (unwinds : run.UnwindsTo joins goal world) (start : world.JoinsOnce)
    {reached : World} (member : reached ∈ run.worlds world) : reached.JoinsOnce := by
  induction run generalizing world with
  | look next inductionHypothesis => exact inductionHypothesis world unwinds start member
  | change update next inductionHypothesis =>
    rcases List.mem_cons.mp member with rfl | later
    · exact start
    · exact inductionHypothesis () unwinds.2.2 (unwinds.2.1 start) later
  | _ => exact List.mem_singleton.mp member ▸ start

theorem Balanced.leavesJoins (balanced : run.Balanced goal) (world : World) :
    run.LeavesJoins world where
  ended _ := (balanced.unwinds world).ended
  below _ := (balanced.unwinds world).below fun _ => List.suffix_refl _
  once start _ := (balanced.unwinds world).once start

end Run

theorem leavesJoins_builtin (which : Builtin) (depth bound : Nat) (realm : RealmId)
    (receiver : Value) (arguments : List Value) (world : World) :
    (which.run (callWithin depth) bound realm receiver arguments).LeavesJoins world :=
  have balanced : Run.Balanced _ (which.run (callWithin depth) bound realm receiver arguments) :=
    confined_builtin (confined_callWithin unwinding depth) trivial bound
      (Territory.ownsAll_everything _) which
  balanced.leavesJoins world

theorem leavesJoins_program (program : Program) (depth : Nat) (world : World) :
    (program.run (callWithin depth)).LeavesJoins world :=
  have balanced : Run.Balanced _ (program.run (callWithin depth)) :=
    confined_program (confined_callWithin unwinding depth) program.within_everything
  balanced.leavesJoins world

/-! ### One program after another -/

/-- The second world is left by programs that ran one after another, each of them to a value or an
error. -/
inductive World.LeftBy (start : World) : World → Prop
  | nothing : LeftBy start start
  | next {before after : World} (program : Program) (depth : Nat) (earlier : LeftBy start before)
      (ended : ((program.run (callWithin depth)).outcome before).last? = some after) :
      LeftBy start after

theorem World.LeftBy.joins {start last : World} (left : start.LeftBy last) :
    last.joins = start.joins := by
  induction left with
  | nothing => rfl
  | next program depth _ ended inductionHypothesis =>
    exact ((leavesJoins_program program depth _).ended _ ended).trans inductionHypothesis

/-- No join runs in a new realm. -/
theorem World.joins_fresh (count : Nat) (realm : RealmId) : (World.fresh count).joins realm = [] := by
  rw [joins, realm_fresh]
  split <;> rfl

/-- Joins unwind. However a join or the conversion of an array to a string goes, and whatever the
scripts do that it calls, when it has ended in a value or an error the same joins run in all realms
as before; the same holds of every other builtin function and of every program. Meanwhile no object
comes to be joined twice in a realm. So after any programs that started where no join ran none
runs, no program that goes on from there joins an object twice at a time, and every object is joined
from its elements, as if no earlier join had failed. -/
theorem joins_unwind :
    (∀ (which : Builtin) (depth bound : Nat) (realm : RealmId) (receiver : Value)
      (arguments : List Value) (world : World),
      (which.run (callWithin depth) bound realm receiver arguments).LeavesJoins world) ∧
    (∀ (program : Program) (depth : Nat) (world : World),
      (program.run (callWithin depth)).LeavesJoins world) ∧
    ∀ start last : World, (∀ realm, start.joins realm = []) → start.LeftBy last →
      (∀ realm, last.joins realm = []) ∧
        (∀ (program : Program) (depth : Nat),
          ∀ reached ∈ (program.run (callWithin depth)).worlds last, reached.JoinsOnce) ∧
        ∀ (call : Caller) (realm : RealmId) (id : ObjectId) (separator : Units),
          (joinArray call realm (.object id) separator).outcome last =
            ((joinElements call realm id separator).outcome
              (last.enterJoin realm id)).followedBy (·.leaveJoin realm) := by
  refine ⟨leavesJoins_builtin, leavesJoins_program, fun start last idle left => ?_⟩
  have still : ∀ realm, last.joins realm = [] := fun realm =>
    (congrFun left.joins realm).trans (idle realm)
  refine ⟨still, fun program depth => (leavesJoins_program program depth last).once ?_,
    fun call realm id separator => outcome_joinArray_new call ?_ separator⟩
  · exact World.joinsOnce_of_idle still
  · have idleRealm : (last.realm realm).joining = [] := still realm
    exact idleRealm ▸ List.not_mem_nil

/-! ### A join that fails once -/

/-- The element of an array: it fails when it is read for the first time. -/
def failingOnce : Body := fun invocation =>
  .perform invocation.realm (.load "read") fun
    | .ok .undefined =>
      .perform invocation.realm (.store "read" (.boolean true)) fun _ =>
      .raise (.raised .thrown "not yet")
    | _ => .finish (.ofText "ready")

/-- Makes an array with that element, and joins it. -/
def failingJoin : Program :=
  .makeFunction 0 "" 0 failingOnce fun getter =>
  .perform 0 .makeArray fun
    | .ok array =>
      .perform 0 (.define array (.ofIndex 0) { getter := some (.object getter) }) fun _ =>
      .perform 0 (.invoke (.object array) "join" []) fun
        | .ok text => .finish text
        | .error error => .raise error
    | .error error => .raise error

/-- The world that the program leaves when its join has failed. -/
def failedWorld : World :=
  ((failingJoin.run (callWithin 2)).outcome (.fresh 1)).last?.getD (.fresh 1)

/-- The join that the program makes fails, and a later join of the array gives the text of its
element. -/
theorem joins_unwind_after_failure :
    (∀ realm, (World.fresh 1).joins realm = []) ∧
      ((failingJoin.run (callWithin 2)).outcome (.fresh 1)).value? = none ∧
      (World.fresh 1).LeftBy failedWorld ∧
      (∀ realm, failedWorld.joins realm = []) ∧
      (∀ reached ∈ (failingJoin.run (callWithin 2)).worlds failedWorld, reached.JoinsOnce) ∧
      (Builtin.arrayJoin.run (callWithin 1) 0 0 (.object ⟨0, 21⟩) []).LeavesJoins failedWorld ∧
      ((joinArray (callWithin 1) 0 (.object ⟨0, 21⟩) []).outcome failedWorld).value? =
        some (unitsOf "ready") := by
  obtain ⟨builtin, -, later⟩ := joins_unwind
  have idle := World.joins_fresh 1
  have ends : ((failingJoin.run (callWithin 2)).outcome (.fresh 1)).last?.isSome := by
    decide +kernel
  have left : (World.fresh 1).LeftBy failedWorld := by
    obtain ⟨last, ended⟩ := Option.isSome_iff_exists.mp ends
    rw [failedWorld, ended]
    exact .next failingJoin 2 .nothing ended
  obtain ⟨still, once, -⟩ := later _ _ idle left
  exact ⟨idle, by decide +kernel, left, still, once failingJoin 2,
    builtin .arrayJoin 1 0 0 _ [] _, by decide +kernel⟩

end EcmaCore
