/-
This file is about what runs in a world: the joins of its realms, innermost first, and the
calls, of which there are notes in the log. A change of objects or of memories lets both be.
A join that is entered stands before those that ran already, and the one in front is the one
that is left, so to leave a join after it was entered gives back what ran before.
-/

import EcmaCore.Engine.Array
import EcmaCore.Proofs.World.Objects
import EcmaCore.World.Memory
import Mathlib.Logic.Function.Basic

namespace EcmaCore.World

/-- The objects whose joins run in each realm, innermost first. -/
def joins (world : World) (realm : RealmId) : List ObjectId := (world.realm realm).joining

/-- In no realm are there two joins of one object. -/
def JoinsOnce (world : World) : Prop := ∀ realm, (world.joins realm).Nodup

variable {world after : World} {realm : RealmId} {id : ObjectId}

/-! ### Changes that let joins and calls be -/

/-- The same joins run, and no call has been noted. -/
structure RunsAlike (before after : World) : Prop where
  joins : after.joins = before.joins
  log : after.log = before.log

theorem RunsAlike.refl (world : World) : world.RunsAlike world := ⟨rfl, rfl⟩

theorem RunsAlike.trans {before : World} (early : before.RunsAlike world)
    (late : world.RunsAlike after) : before.RunsAlike after :=
  ⟨late.joins.trans early.joins, late.log.trans early.log⟩

theorem runsAlike_modifyRealm {change : Realm → Realm}
    (unseen : ∀ region, (change region).joining = region.joining) :
    world.RunsAlike (world.modifyRealm realm change) :=
  ⟨funext (view_modifyRealm Realm.joining unseen), rfl⟩

theorem runsAlike_modifyObject (update : Object → Object) :
    world.RunsAlike (world.modifyObject id update) := runsAlike_modifyRealm fun _ => rfl

theorem joins_add (object : Object) : (world.add realm object).joins = world.joins :=
  (runsAlike_modifyRealm fun _ => rfl : world.RunsAlike (world.add realm object)).joins

theorem runsAlike_store (name : String) (value : Value) :
    world.RunsAlike (world.store realm name value) := runsAlike_modifyRealm fun _ => rfl

theorem runsAlike_modifySnapshots (change : Table String Snapshot → Table String Snapshot) :
    world.RunsAlike (world.modifySnapshots realm change) := runsAlike_modifyRealm fun _ => rfl

theorem runsAlike_restore (snapshot : Snapshot) : world.RunsAlike (world.restore snapshot) :=
  runsAlike_modifyObject _

theorem runsAlike_release (name : String) : world.RunsAlike (world.release realm name) := by
  unfold release
  split
  · exact (runsAlike_modifySnapshots _).trans (runsAlike_restore _)
  · exact .refl world

theorem runsAlike_hold (name : String) : world.RunsAlike (world.hold realm name id) := by
  unfold hold
  split
  · exact (runsAlike_release name).trans (runsAlike_modifySnapshots _)
  · exact .refl world

theorem joinsOnce_congr (same : after.joins = world.joins) : after.JoinsOnce ↔ world.JoinsOnce := by
  rw [JoinsOnce, JoinsOnce, same]

theorem joinsOnce_of_idle (idle : ∀ realm, world.joins realm = []) : world.JoinsOnce :=
  fun realm => idle realm ▸ List.nodup_nil

/-! ### Entering and leaving -/

/-- No join runs in a realm that was never made. -/
theorem joins_of_not_hasRealm (missing : ¬ world.HasRealm realm) : world.joins realm = [] := by
  have outside : world.realms.size ≤ realm := Nat.le_of_not_lt missing
  rw [joins, World.realm, Array.getD_eq_getD_getElem?, Array.getElem?_eq_none outside]
  rfl

theorem joins_enterJoin (made : world.HasRealm realm) (id : ObjectId) :
    (world.enterJoin realm id).joins =
      Function.update world.joins realm (id :: world.joins realm) := by
  funext another
  by_cases same : another = realm
  · subst same
    rw [Function.update_self, joins, enterJoin, realm_modifyRealm_self made, joins]
  · rw [Function.update_of_ne same, joins, enterJoin, realm_modifyRealm_of_ne same, joins]

theorem joins_leaveJoin (world : World) (realm : RealmId) :
    (world.leaveJoin realm).joins =
      Function.update world.joins realm (world.joins realm).tail := by
  by_cases made : world.HasRealm realm
  · funext another
    by_cases same : another = realm
    · subst same
      rw [Function.update_self, joins, leaveJoin, realm_modifyRealm_self made, joins]
    · rw [Function.update_of_ne same, joins, leaveJoin, realm_modifyRealm_of_ne same, joins]
  · have none : (world.joins realm).tail = world.joins realm := by
      rw [joins_of_not_hasRealm made, List.tail_nil]
    rw [leaveJoin, modifyRealm_of_not_hasRealm made, none, Function.update_eq_self]

/-- An entered join stands before those that ran already. -/
theorem joins_suffix_enterJoin (world : World) (realm : RealmId) (id : ObjectId)
    (another : RealmId) : world.joins another <:+ (world.enterJoin realm id).joins another := by
  by_cases made : world.HasRealm realm
  · by_cases same : another = realm
    · subst same
      rw [joins_enterJoin made, Function.update_self]
      exact List.suffix_cons id _
    · have kept := congrFun (joins_enterJoin made id) another
      rw [Function.update_of_ne same] at kept
      exact kept ▸ List.suffix_refl _
  · have kept : world.enterJoin realm id = world := modifyRealm_of_not_hasRealm made _
    exact kept.symm ▸ List.suffix_refl _

/-- To leave a join after it was entered gives back the joins that ran before, whatever else has
become of the world. -/
theorem joins_leaveJoin_of_entered
    (entered : after.joins = (world.enterJoin realm id).joins) :
    (after.leaveJoin realm).joins = world.joins := by
  rw [joins_leaveJoin, entered]
  by_cases made : world.HasRealm realm
  · rw [joins_enterJoin made, Function.update_self, List.tail_cons, Function.update_idem,
      Function.update_eq_self]
  · rw [enterJoin, modifyRealm_of_not_hasRealm made, joins_of_not_hasRealm made, List.tail_nil,
      ← joins_of_not_hasRealm made, Function.update_eq_self]

theorem JoinsOnce.enterJoin (once : world.JoinsOnce) (new : id ∉ world.joins realm) :
    (world.enterJoin realm id).JoinsOnce := by
  by_cases made : world.HasRealm realm
  · intro another
    rw [joins_enterJoin made]
    by_cases same : another = realm
    · subst same
      rw [Function.update_self]
      exact List.nodup_cons.mpr ⟨new, once another⟩
    · rw [Function.update_of_ne same]
      exact once another
  · rw [World.enterJoin, modifyRealm_of_not_hasRealm made]
    exact once

theorem JoinsOnce.leaveJoin (once : world.JoinsOnce) (realm : RealmId) :
    (world.leaveJoin realm).JoinsOnce := by
  intro another
  rw [joins_leaveJoin]
  by_cases same : another = realm
  · subst same
    rw [Function.update_self]
    exact (once another).tail
  · rw [Function.update_of_ne same]
    exact once another

end EcmaCore.World

namespace EcmaCore

/-- The join of an object that contributes nothing if one runs already, and is left however it
ends. -/
def joinOnce (realm : RealmId) (id : ObjectId) (run : Run Units) : Run Units := do
  if id ∈ (← Run.read fun world => (world.realm realm).joining) then pure []
  else do
    Run.modify (·.enterJoin realm id)
    run.followedBy (·.leaveJoin realm)

theorem joinArray_eq (call : Caller) (realm : RealmId) (source : Value) (separator : Units) :
    joinArray call realm source separator =
      toObject realm source >>= fun id =>
        joinOnce realm id (joinElements call realm id separator) := rfl

end EcmaCore
