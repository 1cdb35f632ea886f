/-
This file is about worlds that grow. What a world has stays under its identities while
objects are added, so a later world extends an earlier one. Objects that are added to one
realm one after another stand at consecutive places from the first free one on, and
nothing else about the world changes: no log entry, no memory and no other realm.
-/

import EcmaCore.Proofs.World.Objects
import EcmaCore.World.Lookup

namespace EcmaCore

/-! ### Worlds that keep what they have -/

/-- The later world has every object of the earlier one as it was. -/
structure World.Extends (after before : World) : Prop where
  hasRealm : ∀ realm, before.HasRealm realm → after.HasRealm realm
  has : ∀ id, before.Has id → after.Has id
  object : ∀ id, before.Has id → after.object id = before.object id

namespace World

variable {before between after world : World}

theorem Extends.refl (world : World) : world.Extends world where
  hasRealm _ made := made
  has _ made := made
  object _ _ := rfl

theorem Extends.trans (late : after.Extends between) (early : between.Extends before) :
    after.Extends before where
  hasRealm realm made := late.hasRealm realm (early.hasRealm realm made)
  has id made := late.has id (early.has id made)
  object id made := (late.object id (early.has id made)).trans (early.object id made)

/-- What could be called can still be called. -/
theorem Extends.isCallable (late : after.Extends before) {value : Value}
    (callable : before.isCallable value = true) : after.isCallable value = true := by
  cases value with
  | object id =>
    obtain ⟨function, found⟩ := Option.isSome_iff_exists.mp callable
    rw [World.isCallable, late.object id (has_of_callable found), found]
    rfl
  | _ => cases callable

theorem extends_add (world : World) (realm : RealmId) (object : Object) :
    (world.add realm object).Extends world where
  hasRealm another made := (hasRealm_modifyRealm _ another).mpr made
  has _ made := made.add realm object
  object _ made := object_add_of_ne made.ne_nextId object

/-! ### Objects in a row -/

/-- The world with objects added to a realm, one after another. -/
def addAll (world : World) (realm : RealmId) (objects : List Object) : World :=
  objects.foldl (fun grown object => grown.add realm object) world

/-- The place that the next object of a realm gets. -/
def nextSlot (world : World) (realm : RealmId) : Nat := (world.nextId realm).slot

/-- The objects stand in a realm at consecutive places. -/
def Row (world : World) (realm : RealmId) (first : Nat) (objects : List Object) : Prop :=
  ∀ index, (inside : index < objects.length) →
    world.Has ⟨realm, first + index⟩ ∧ world.object ⟨realm, first + index⟩ = objects[index]

variable {realm : RealmId} {objects others : List Object}

theorem addAll_append (world : World) (realm : RealmId) (objects others : List Object) :
    world.addAll realm (objects ++ others) = (world.addAll realm objects).addAll realm others :=
  List.foldl_append

theorem addAll_concat (world : World) (realm : RealmId) (objects : List Object) (object : Object) :
    world.addAll realm (objects ++ [object]) = (world.addAll realm objects).add realm object :=
  addAll_append world realm objects [object]

theorem extends_addAll (world : World) (realm : RealmId) (objects : List Object) :
    (world.addAll realm objects).Extends world := by
  induction objects generalizing world with
  | nil => exact .refl world
  | cons object objects inductionHypothesis =>
    exact (inductionHypothesis (world.add realm object)).trans (extends_add world realm object)

/-- Adding objects is no call. -/
theorem log_addAll (world : World) (realm : RealmId) (objects : List Object) :
    (world.addAll realm objects).log = world.log := by
  induction objects generalizing world with
  | nil => rfl
  | cons object objects inductionHypothesis => exact inductionHypothesis (world.add realm object)

theorem nextSlot_add (made : world.HasRealm realm) (object : Object) :
    (world.add realm object).nextSlot realm = world.nextSlot realm + 1 := by
  rw [nextSlot, nextId, add, realm_modifyRealm_self made]
  exact Array.size_push object

theorem nextSlot_addAll (made : world.HasRealm realm) (objects : List Object) :
    (world.addAll realm objects).nextSlot realm = world.nextSlot realm + objects.length := by
  induction objects generalizing world with
  | nil => rfl
  | cons object objects inductionHypothesis =>
    have later := inductionHypothesis ((extends_add world realm object).hasRealm realm made)
    rw [nextSlot_add made] at later
    rw [addAll, List.foldl_cons, ← addAll, later, List.length_cons]
    omega

/-- Objects that were added stand where the first free place was. -/
theorem row_addAll (made : world.HasRealm realm) (objects : List Object) :
    (world.addAll realm objects).Row realm (world.nextSlot realm) objects := by
  induction objects generalizing world with
  | nil => exact fun index inside => absurd inside (Nat.not_lt_zero index)
  | cons object objects inductionHypothesis =>
    have later := inductionHypothesis ((extends_add world realm object).hasRealm realm made)
    rw [nextSlot_add made] at later
    intro index inside
    cases index with
    | zero =>
      have first := has_add_nextId made object
      have kept := extends_addAll (world.add realm object) realm objects
      exact ⟨kept.has _ first, (kept.object _ first).trans (object_add_nextId made object)⟩
    | succ index =>
      have place : world.nextSlot realm + (index + 1) = world.nextSlot realm + 1 + index := by omega
      rw [place]
      exact later index (Nat.lt_of_succ_lt_succ inside)

theorem Row.extend {first : Nat} {before after : World} (row : before.Row realm first objects)
    (extended : after.Extends before) : after.Row realm first objects := fun index inside =>
  ⟨extended.has _ (row index inside).1,
    (extended.object _ (row index inside).1).trans (row index inside).2⟩

/-- Two rows that follow one another are one row. -/
theorem row_append {first : Nat} :
    world.Row realm first (objects ++ others) ↔
      world.Row realm first objects ∧ world.Row realm (first + objects.length) others := by
  constructor
  · intro row
    refine ⟨fun index inside => ?_, fun index inside => ?_⟩
    · have stands := row index (by rw [List.length_append]; omega)
      rwa [List.getElem_append_left inside] at stands
    · have stands := row (objects.length + index) (by rw [List.length_append]; omega)
      rwa [List.getElem_append_right (Nat.le_add_right _ _), ← Nat.add_assoc,
        getElem_congr_idx (Nat.add_sub_cancel_left _ _)] at stands
  · rintro ⟨row, rowOthers⟩ index inside
    rcases Nat.lt_or_ge index objects.length with left | right
    · rw [List.getElem_append_left left]
      exact row index left
    · obtain ⟨rest, rfl⟩ := Nat.exists_eq_add_of_le right
      have stands := rowOthers rest (by rw [List.length_append] at inside; omega)
      rwa [List.getElem_append_right right, getElem_congr_idx (Nat.add_sub_cancel_left _ _),
        ← Nat.add_assoc]

end World

end EcmaCore
