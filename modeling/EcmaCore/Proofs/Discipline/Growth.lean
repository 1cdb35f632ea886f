/-
This file proves that worlds only grow. No change of a world takes back what was given out, or
turns it into an object of another class. This is the first of the disciplines, since calls
keep the others only if they keep this one: a function that has called scripts and then notes
its own call must still be there.
-/

import EcmaCore.Proofs.Discipline.Basic

namespace EcmaCore

theorem Program.obeys_anything (program : Program) : program.Obeys fun _ _ => True := by
  induction program with
  | finish value => exact trivial
  | raise error => exact trivial
  | perform realm operation next inductionHypothesis => exact ⟨trivial, inductionHypothesis⟩
  | makeFunction realm name arity body next bodyHypothesis inductionHypothesis =>
    exact ⟨bodyHypothesis, inductionHypothesis⟩

theorem World.hostsObey_anything (world : World) : world.HostsObey fun _ _ => True := by
  intro id callable present
  cases behaviour : callable.behaviour with
  | host body => exact fun invocation => (body invocation).obeys_anything
  | _ => exact trivial

/-- The objects of the earlier world are there, and each shows in one respect what it did. -/
def World.Retains {α : Type} (view : Object → α) (before after : World) : Prop :=
  ∀ id, before.Has id → after.Has id ∧ view (after.object id) = view (before.object id)

/-- The objects of the earlier world are there, of the same class. -/
def World.SameKinds (before after : World) : Prop :=
  ∀ id, before.Has id → after.Has id ∧ (after.object id).kind = (before.object id).kind

namespace World

variable {α : Type} {view : Object → α} {before after world : World} {target : ObjectId}

theorem Retains.refl (view : Object → α) (world : World) : world.Retains view world :=
  fun _ made => ⟨made, rfl⟩

theorem Retains.of_sameObjects (view : Object → α) (same : before.SameObjects after) :
    before.Retains view after :=
  fun id made => ⟨(same.has id).mpr made, by rw [same.object]⟩

theorem Retains.trans (early : before.Retains view world) (late : world.Retains view after) :
    before.Retains view after := by
  intro id made
  obtain ⟨madeNow, sameNow⟩ := early id made
  obtain ⟨madeLater, sameLater⟩ := late id madeNow
  exact ⟨madeLater, sameLater.trans sameNow⟩

theorem retains_add (view : Object → α) (world : World) (realm : RealmId) (object : Object) :
    world.Retains view (world.add realm object) :=
  fun id made => ⟨made.add realm object, by rw [object_add_of_ne made.ne_nextId]⟩

theorem retains_modifyObject {update : Object → Object}
    (same : view (update (world.object target)) = view (world.object target)) :
    world.Retains view (world.modifyObject target update) := by
  intro id made
  refine ⟨(has_modifyObject update id).mpr made, ?_⟩
  by_cases changed : id = target
  · rw [changed] at made ⊢
    rw [object_modifyObject_self made, same]
  · rw [object_modifyObject_of_ne changed]

theorem sameObjects_modifySnapshots (world : World) (realm : RealmId)
    (change : Table String Snapshot → Table String Snapshot) :
    world.SameObjects (world.modifySnapshots realm change) :=
  .modifyRealm fun _ => rfl

section

variable (unseen : ∀ (snapshot : Snapshot) (object : Object),
  view (snapshot.onto object) = view object)
include unseen

/-- What no snapshot has is not changed when one is put back. -/
theorem retains_release (world : World) (realm : RealmId) (name : String) :
    world.Retains view (world.release realm name) := by
  unfold release
  split
  · exact (Retains.of_sameObjects view (sameObjects_modifySnapshots world realm _)).trans
      (retains_modifyObject (unseen _ _))
  · exact .refl view world

theorem retains_hold (world : World) (realm : RealmId) (name : String) (target : ObjectId) :
    world.Retains view (world.hold realm name target) := by
  unfold hold
  split
  · exact (retains_release unseen world realm name).trans
      (.of_sameObjects view (sameObjects_modifySnapshots _ realm _))
  · exact .refl view world

end

theorem SameKinds.refl (world : World) : world.SameKinds world := Retains.refl Object.kind world

theorem SameKinds.of_sameObjects (same : before.SameObjects after) : before.SameKinds after :=
  Retains.of_sameObjects Object.kind same

theorem SameKinds.trans (early : before.SameKinds world) (late : world.SameKinds after) :
    before.SameKinds after :=
  Retains.trans early late

theorem sameKinds_add (world : World) (realm : RealmId) (object : Object) :
    world.SameKinds (world.add realm object) := retains_add Object.kind world realm object

theorem sameKinds_modifyObject {update : Object → Object}
    (same : (update (world.object target)).kind = (world.object target).kind) :
    world.SameKinds (world.modifyObject target update) := retains_modifyObject same

theorem sameKinds_release (world : World) (realm : RealmId) (name : String) :
    world.SameKinds (world.release realm name) :=
  retains_release (fun _ _ => rfl) world realm name

theorem sameKinds_hold (world : World) (realm : RealmId) (name : String) (target : ObjectId) :
    world.SameKinds (world.hold realm name target) :=
  retains_hold (fun _ _ => rfl) world realm name target

end World

/-- What was given out stays given out, to an object of the same class. -/
def kindRule : Rule where
  holds _ := True
  allows := World.SameKinds
  refl := World.SameKinds.refl
  trans := World.SameKinds.trans

theorem kindRule_moves {before after : World} (kinds : before.SameKinds after) :
    kindRule.Moves before after :=
  ⟨trivial, kinds⟩

/-- No change of a world takes back what was given out. -/
def kindDiscipline : Discipline where
  rule := kindRule
  permits _ _ := True
  asked _ _ := True
  asked_of_lawful _ := trivial
  asked_of_define _ := trivial
  asked_of_defineOrThrow _ := trivial
  asked_of_allows _ _ := trivial
  quiet _ objects _ _ _ := kindRule_moves (.of_sameObjects objects)
  add _ _ := kindRule_moves (World.sameKinds_add _ _ _)
  step _ step := kindRule_moves (World.sameKinds_modifyObject step.sameNature.kind)
  make _ _ := kindRule_moves (World.sameKinds_add _ _ _)
  hold _ _ := kindRule_moves (World.sameKinds_hold _ _ _ _)
  release _ _ := kindRule_moves (World.sameKinds_release _ _ _)
  setExtensible _ _ := kindRule_moves (World.sameKinds_modifyObject rfl)
  setPrototype _ _ := kindRule_moves (World.sameKinds_modifyObject rfl)
  restore _ _ _ _ _ := kindRule_moves (World.sameKinds_modifyObject rfl)

namespace Run.Steady

variable {α : Type} {run : Run α} {value : α} {world after : World}

theorem follows_kinds (grows : run.Steady kindDiscipline.hosted) (world : World) :
    run.Follows kindDiscipline.hosted (fun _ => True) world :=
  grows.follows world ⟨trivial, world.hostsObey_anything⟩

theorem sameKinds (grows : run.Steady kindDiscipline.hosted)
    (ended : run.outcome world = .done value after) : world.SameKinds after :=
  (grows.follows_kinds world).allows_of_mem (mem_worlds_of_done ended)

theorem sameKinds_of_threw (grows : run.Steady kindDiscipline.hosted) {error : Error}
    (ended : run.outcome world = .threw error after) : world.SameKinds after :=
  (grows.follows_kinds world).allows_of_mem (mem_worlds_of_threw ended)

end Run.Steady

end EcmaCore
