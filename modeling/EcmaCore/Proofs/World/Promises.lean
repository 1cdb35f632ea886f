/-
This file proves that the promises of objects are kept over whole runs: whatever an
object shows at some point of a run, everything that it promises by it still stands at
every later point. Programs may do anything but ask for a mixture of accessors and a
value, open an object by a direct write, or put an object back to an earlier state.
-/

import EcmaCore.Proofs.Discipline.Calls
import EcmaCore.Proofs.World.Fresh

namespace EcmaCore

/-- Every object of the later world keeps the promises that it has made in the earlier one. -/
def World.Honours (before after : World) : Prop :=
  ∀ id, (before.object id).Honours (after.object id)

/-- The operations that keep promises. A direct write may close an object but not open it. -/
def KeepsPromises : Permission
  | _, .define _ _ descriptor => descriptor.Unmixed
  | _, .defineOrThrow _ _ descriptor => descriptor.Unmixed
  | _, .setExtensible _ extensible => extensible = false
  | _, .checkMap _ => False
  | _, .hold _ _ => False
  | _, .release _ => False
  | _, _ => True

namespace World

variable {world : World} {id : ObjectId}

/-! ### Single changes -/

theorem Honours.of_sameObjects {after : World} (same : world.SameObjects after) :
    world.Honours after := related_of_sameObjects .refl same

/-- Nothing was promised about an object that was not there. -/
theorem honours_add (world : World) (realm : RealmId) (object : Object) :
    world.Honours (world.add realm object) :=
  related_add .refl (Object.honours_of_empty (fun _ => rfl) rfl object)

theorem honours_modifyObject {update : Object → Object}
    (honours : (world.object id).Honours (update (world.object id))) :
    world.Honours (world.modifyObject id update) := related_modifyObject .refl honours

/-- Closing an object breaks no promise. -/
theorem honours_closed (object : Object) :
    object.Honours { object with extensible := false } where
  extensible _ := rfl
  keys _ _ present := present
  slots _ property slot fixed := ⟨property, slot, .refl fixed⟩

/-- Another prototype breaks no promise. -/
theorem honours_prototype (object : Object) (prototype : Option ObjectId) :
    object.Honours { object with prototype := prototype } where
  extensible closed := closed
  keys _ _ present := present
  slots _ property slot fixed := ⟨property, slot, .refl fixed⟩

end World

/-! ### Whole runs -/

/-- Promises as a rule: all worlds are in order, and later ones honour earlier ones. -/
def promiseRule : Rule where
  holds _ := True
  allows := World.Honours
  refl _ _ := .refl _
  trans early late id := (early id).trans (late id)

theorem promiseRule_moves {before after : World} (honours : before.Honours after) :
    promiseRule.Moves before after :=
  ⟨trivial, honours⟩

/-- Every way in which the engine changes a world keeps the promises of its objects. -/
def promiseDiscipline : Discipline where
  rule := promiseRule
  permits := KeepsPromises
  asked _ := Descriptor.Unmixed
  asked_of_lawful lawful := lawful.unmixed
  asked_of_define unmixed := unmixed
  asked_of_defineOrThrow unmixed := unmixed
  asked_of_allows _ unmixed := unmixed
  quiet _ objects _ _ _ := promiseRule_moves (.of_sameObjects objects)
  add _ _ := promiseRule_moves (World.honours_add _ _ _)
  step _ step := promiseRule_moves (World.honours_modifyObject step.honours)
  make _ _ := promiseRule_moves (World.honours_add _ _ _)
  hold impossible := impossible.elim
  release impossible := impossible.elim
  setExtensible closes _ :=
    promiseRule_moves (World.honours_modifyObject (closes ▸ World.honours_closed _))
  setPrototype _ _ := promiseRule_moves (World.honours_modifyObject (World.honours_prototype _ _))
  restore impossible := impossible.elim

/-- Over the run of a program, with all calls that it makes and all scripts that these enter again,
every object keeps its promises from any point to every later point. -/
theorem Program.promises_kept {program : Program} {world : World}
    (obeys : program.Obeys KeepsPromises) (hosts : world.HostsObey KeepsPromises) (depth : Nat) :
    ((program.run (callWithin depth)).worlds world).Pairwise World.Honours :=
  (Program.follows promiseDiscipline obeys hosts trivial depth).pairwise

/-- A slot is fixed, its object is closed, and an attempt is made to delete the slot. -/
theorem Program.promises_kept_on_closed_object :
    (((Program.perform 0
          (.define (Intrinsic.global.id 0) (.text "kept")
            { value := some .null, configurable := some false }) fun _ =>
        .perform 0 (.setExtensible (Intrinsic.global.id 0) false) fun _ =>
        .perform 0 (.delete (Intrinsic.global.id 0) (.text "kept")) fun _ =>
        .finish .undefined).run (callWithin 1)).worlds (World.fresh 1)).Pairwise World.Honours := by
  refine Program.promises_kept ?_ (World.hostsObey_fresh _ 1) 1
  have unmixed : Descriptor.Unmixed { value := some .null, configurable := some false } :=
    fun accessor => nomatch accessor
  exact ⟨unmixed, fun _ => ⟨rfl, fun _ => ⟨trivial, fun _ => trivial⟩⟩⟩

end EcmaCore
