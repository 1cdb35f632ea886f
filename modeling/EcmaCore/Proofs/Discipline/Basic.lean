/-
This file says what it takes for all programs to keep a rule. The engine changes a world
in a handful of ways: it adds a new object, it does one step to an object, it writes to
the log or to the memory. A discipline is a rule that each of these ways keeps. The ways
that only some operations have, such as a direct write of a field or putting a snapshot
back, need to keep the rule only if programs may perform these operations.

Host functions are part of the world and may be called by anyone at any time. So a world
is in order only if the bodies of its host functions, too, stay within what programs may
do, and no change can add one that does not.
-/

import EcmaCore.Engine.Call
import EcmaCore.Proofs.Engine.Lawful
import EcmaCore.Proofs.Run.Course
import EcmaCore.Proofs.World.Objects

namespace EcmaCore

/-- Which operations programs may perform. -/
abbrev Permission := ∀ shape : Shape, Operation shape → Prop

/-- Every operation that the program performs is permitted, whatever replies it gets, and so is
every one in the bodies of the functions that it makes. -/
def Program.Obeys (permits : Permission) : Program → Prop
  | .finish _ => True
  | .raise _ => True
  | .perform _ operation next =>
    permits _ operation ∧ ∀ reply, (next reply).Obeys permits
  | .makeFunction _ _ _ body next =>
    (∀ invocation, (body invocation).Obeys permits) ∧ ∀ id, (next id).Obeys permits

/-- A call of the function performs permitted operations only. Builtin functions are the engine's
own and not programs. -/
def Behaviour.Obeys (permits : Permission) : Behaviour → Prop
  | .host body => ∀ invocation, (body invocation).Obeys permits
  | _ => True

/-- The callable side of the object, if it has one, obeys. -/
def Object.HostObeys (permits : Permission) (object : Object) : Prop :=
  ∀ callable, object.callable = some callable → callable.behaviour.Obeys permits

/-- Every host function of the world obeys. -/
def World.HostsObey (permits : Permission) (world : World) : Prop :=
  ∀ id, (world.object id).HostObeys permits

/-- The objects that the engine makes by itself, as they are at first. -/
inductive Object.Newborn (realm : RealmId) : Object → Prop
  | plain : Newborn realm (.plain realm)
  | string (units : Units) : Newborn realm (.ofString realm units)
  | array : Newborn realm (.emptyArray realm)
  | function (name : String) (arity : Nat) (behaviour : Behaviour) :
      Newborn realm (.ofCallable realm name arity behaviour)

/-- A realm holds a snapshot under a name. -/
def World.Holds (world : World) (realm : RealmId) (name : String) (snapshot : Snapshot) : Prop :=
  (world.realm realm).memory.snapshots.get? name = some snapshot

/-- Two worlds hold the same snapshots. -/
def World.SameSnapshots (before after : World) : Prop :=
  ∀ realm, (after.realm realm).memory.snapshots = (before.realm realm).memory.snapshots

/-- A rule that the engine keeps while programs perform permitted operations only. -/
structure Discipline where
  rule : Rule
  permits : Permission
  /-- What objects may be asked for in a world. -/
  asked : World → Descriptor → Prop
  /-- Every lawful descriptor may be asked for; another one only by a program. -/
  asked_of_lawful : ∀ {world : World} {descriptor}, descriptor.Lawful world → asked world descriptor
  asked_of_define : ∀ {world : World} {id key descriptor},
    permits _ (.define id key descriptor) → asked world descriptor
  asked_of_defineOrThrow : ∀ {world : World} {id key descriptor},
    permits _ (.defineOrThrow id key descriptor) → asked world descriptor
  /-- What may be asked for may still be asked for after a script. -/
  asked_of_allows : ∀ {before after : World} {descriptor}, rule.allows before after →
    asked before descriptor → asked after descriptor
  /-- What shows in no object and in no snapshot. A call that is noted is one of a function that is
  there, and it is noted after all others. -/
  quiet : ∀ {before after : World}, rule.holds before → before.SameObjects after →
    before.SameSnapshots after →
    (∀ call ∈ after.log, call ∈ before.log ∨ before.Has call.callee) →
    before.log.toList <+: after.log.toList → rule.Moves before after
  add : ∀ {world : World} {realm object}, rule.holds world → object.Newborn realm →
    rule.Moves world (world.add realm object)
  step : ∀ {world : World} {id changed}, rule.holds world →
    (world.object id).Step (asked world) changed → rule.Moves world (world.modifyObject id fun _ => changed)
  make : ∀ {world : World} {realm prototype kind}, permits _ (.makeObject prototype kind) →
    rule.holds world → rule.Moves world (world.add realm { prototype := prototype, kind := kind })
  hold : ∀ {world : World} {realm name id}, permits _ (.hold name id) → rule.holds world →
    rule.Moves world (world.hold realm name id)
  release : ∀ {world : World} {realm name}, permits _ (.release name) → rule.holds world →
    rule.Moves world (world.release realm name)
  setExtensible : ∀ {world : World} {id extensible}, permits _ (.setExtensible id extensible) →
    rule.holds world →
    rule.Moves world (world.modifyObject id fun old => { old with extensible := extensible })
  setPrototype : ∀ {world : World} {id prototype}, permits _ (.setPrototype id prototype) →
    rule.holds world →
    rule.Moves world (world.modifyObject id fun old => { old with prototype := prototype })
  /-- Putting back a snapshot that was taken at an earlier point of the same run. -/
  restore : ∀ {earlier world : World} {warns id snapshot}, permits _ (.checkMap warns) →
    rule.holds earlier → rule.holds world → rule.allows earlier world →
    earlier.capture? id = some snapshot → rule.Moves world (world.restore snapshot)

namespace Discipline

variable {discipline : Discipline} {world : World}

/-- The rule together with what it asks of host functions. -/
def hosted (discipline : Discipline) : Rule where
  holds world := discipline.rule.holds world ∧ world.HostsObey discipline.permits
  allows := discipline.rule.allows
  refl := discipline.rule.refl
  trans := discipline.rule.trans
  single := discipline.rule.single
  allows_of_single := discipline.rule.allows_of_single

theorem hosted_moves {after : World} (moves : discipline.rule.Moves world after)
    (hosts : after.HostsObey discipline.permits) : discipline.hosted.Moves world after :=
  ⟨⟨moves.holds, hosts⟩, moves.single⟩

end Discipline

/-! ### No change adds a disobedient host function -/

namespace World

variable {permits : Permission} {world : World}

theorem HostsObey.of_sameObjects (hosts : world.HostsObey permits) {after : World}
    (same : world.SameObjects after) : after.HostsObey permits := by
  intro id
  rw [same.object]
  exact hosts id

theorem HostsObey.add (hosts : world.HostsObey permits) {realm : RealmId} {object : Object}
    (obeys : object.HostObeys permits) : (world.add realm object).HostsObey permits := by
  intro id
  rcases object_add_cases world realm object id with ⟨-, made⟩ | same
  · rwa [made]
  · rw [same]
    exact hosts id

theorem HostsObey.modifyObject (hosts : world.HostsObey permits) {id : ObjectId}
    {update : Object → Object}
    (same : (update (world.object id)).callable = (world.object id).callable) :
    (world.modifyObject id update).HostsObey permits := by
  intro other
  rcases object_modifyObject_cases world id update other with ⟨rfl, made⟩ | unchanged
  · rw [made, Object.HostObeys, same]
    exact hosts other
  · rw [unchanged]
    exact hosts other

end World

end EcmaCore
