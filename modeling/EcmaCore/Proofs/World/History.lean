/-
This file proves that no run takes back what has happened. A call that has been noted stays
noted, before all that are noted later, and a function goes on to do what it did when it was
made. Both hold whatever scripts do, since they can only add to the log, and among the steps
that an object can take there is none that touches its callable side.

So what is counted at the end of a run bounds what could have been counted on the way.
-/

import EcmaCore.Proofs.World.Arrays
import EcmaCore.Proofs.World.Joins

namespace EcmaCore

/-- The calls of the first world are the first calls of the second, and its objects are there and do
when called what they did. -/
structure World.Remembers (before after : World) : Prop where
  log : before.log.toList <+: after.log.toList
  has : ∀ id, before.Has id → after.Has id
  callable : ∀ id, before.Has id → (after.object id).callable = (before.object id).callable

namespace World

variable {before after world : World}

theorem Remembers.refl (world : World) : world.Remembers world :=
  ⟨List.prefix_refl _, fun _ made => made, fun _ _ => rfl⟩

theorem Remembers.trans (early : before.Remembers world) (late : world.Remembers after) :
    before.Remembers after where
  log := early.log.trans late.log
  has id made := late.has id (early.has id made)
  callable id made := (late.callable id (early.has id made)).trans (early.callable id made)

theorem Remembers.of_retains (log : before.log.toList <+: after.log.toList)
    (retains : before.Retains Object.callable after) : before.Remembers after :=
  ⟨log, fun id made => (retains id made).1, fun id made => (retains id made).2⟩

theorem Remembers.of_runsAlike (alike : before.RunsAlike after)
    (retains : before.Retains Object.callable after) : before.Remembers after :=
  .of_retains (alike.log ▸ List.prefix_refl _) retains

theorem Remembers.of_sameObjects (same : before.SameObjects after)
    (log : before.log.toList <+: after.log.toList) : before.Remembers after :=
  .of_retains log (.of_sameObjects _ same)

theorem remembers_add (world : World) (realm : RealmId) (object : Object) :
    world.Remembers (world.add realm object) :=
  .of_retains (List.prefix_refl _) (retains_add _ world realm object)

theorem remembers_modifyObject {target : ObjectId} {update : Object → Object}
    (same : (update (world.object target)).callable = (world.object target).callable) :
    world.Remembers (world.modifyObject target update) :=
  .of_retains (List.prefix_refl _) (retains_modifyObject same)

theorem remembers_release (world : World) (realm : RealmId) (name : String) :
    world.Remembers (world.release realm name) :=
  .of_runsAlike (runsAlike_release name) (retains_release (fun _ _ => rfl) world realm name)

theorem remembers_hold (world : World) (realm : RealmId) (name : String) (target : ObjectId) :
    world.Remembers (world.hold realm name target) :=
  .of_runsAlike (runsAlike_hold name) (retains_hold (fun _ _ => rfl) world realm name target)

/-- A function does what it did. -/
theorem Remembers.callable_eq (remembers : before.Remembers after) {id : ObjectId}
    {callable : Callable} (does : (before.object id).callable = some callable) :
    (after.object id).callable = some callable :=
  (remembers.callable id (has_of_callable does)).trans does

/-- As many calls of a function as before have come to a stage, or more. -/
theorem Remembers.callsOf_le (remembers : before.Remembers after) (stage : Stage)
    (function : Value) : before.callsOf stage function ≤ after.callsOf stage function :=
  remembers.log.sublist.countP_le

end World

/-- Nothing is forgotten, as a rule. -/
def historyRule : Rule where
  holds _ := True
  allows := World.Remembers
  refl := World.Remembers.refl
  trans := World.Remembers.trans

theorem historyRule_moves {before after : World} (remembers : before.Remembers after) :
    historyRule.Moves before after :=
  ⟨trivial, remembers⟩

/-- No change of a world makes it forget. -/
def historyDiscipline : Discipline where
  rule := historyRule
  permits _ _ := True
  asked _ _ := True
  asked_of_lawful _ := trivial
  asked_of_define _ := trivial
  asked_of_defineOrThrow _ := trivial
  asked_of_allows _ _ := trivial
  quiet _ objects _ _ later := historyRule_moves (.of_sameObjects objects later)
  add _ _ := historyRule_moves (World.remembers_add _ _ _)
  step _ step := historyRule_moves (World.remembers_modifyObject step.sameNature.callable)
  make _ _ := historyRule_moves (World.remembers_add _ _ _)
  hold _ _ := historyRule_moves (World.remembers_hold _ _ _ _)
  release _ _ := historyRule_moves (World.remembers_release _ _ _)
  setExtensible _ _ := historyRule_moves (World.remembers_modifyObject rfl)
  setPrototype _ _ := historyRule_moves (World.remembers_modifyObject rfl)
  restore _ _ _ _ _ := historyRule_moves (World.remembers_modifyObject rfl)

/-- However a run goes, at its end nothing is forgotten that was there at its start. -/
theorem Run.Steady.remembers {α : Type} {run : Run α} {value : α} {world after : World}
    (steady : run.Steady historyDiscipline.hosted)
    (ended : run.outcome world = .done value after) : world.Remembers after :=
  (steady.follows world ⟨trivial, world.hostsObey_anything⟩).allows_of_mem
    (mem_worlds_of_done ended)

end EcmaCore
