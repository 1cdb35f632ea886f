/-
This file says what each change of a world does to its objects. There are three kinds
of change: one object is changed in place, one object is added, and the rest, which
touches the memory or the joins of a realm and leaves every object alone.

An identity is known by whether it was given out. Changing the object of an identity
that was not does nothing, and nothing that was given out is ever taken back.
-/

import EcmaCore.World.Memory
import EcmaCore.Engine.Array

namespace EcmaCore

theorem Intrinsic.mem_all (which : Intrinsic) : which ∈ all := by
  cases which with
  | function builtin => cases builtin <;> decide
  | _ => decide

end EcmaCore

namespace EcmaCore.World

variable {world : World} {realm : RealmId} {id other : ObjectId}

/-- The realm was made. -/
def HasRealm (world : World) (realm : RealmId) : Prop := realm < world.realms.size

/-! ### Changing a realm -/

theorem realm_modifyRealm_self (made : world.HasRealm realm) (change : Realm → Realm) :
    (world.modifyRealm realm change).realm realm = change (world.realm realm) := by
  have inside : realm < world.realms.size := made
  simp [modifyRealm, World.realm, Array.getElem?_modify, Array.getElem?_eq_getElem inside]

theorem realm_modifyRealm_of_ne {another : RealmId} (different : another ≠ realm)
    (change : Realm → Realm) :
    (world.modifyRealm realm change).realm another = world.realm another := by
  simp [modifyRealm, World.realm, Array.getElem?_modify, Ne.symm different]

theorem modifyRealm_of_not_hasRealm (missing : ¬ world.HasRealm realm) (change : Realm → Realm) :
    world.modifyRealm realm change = world := by
  have outside : world.realms.size ≤ realm := Nat.le_of_not_lt missing
  have unchanged : world.realms.modify realm change = world.realms := by
    apply Array.ext_getElem?
    intro index
    rw [Array.getElem?_modify]
    split
    · rename_i equal
      subst equal
      rw [Array.getElem?_eq_none outside]
      rfl
    · rfl
  rw [modifyRealm, unchanged]

/-- A change is known from what it makes of the realm as it is. -/
theorem modifyRealm_congr {first second : Realm → Realm}
    (agree : first (world.realm realm) = second (world.realm realm)) :
    world.modifyRealm realm first = world.modifyRealm realm second := by
  have same : world.realms.modify realm first = world.realms.modify realm second := by
    apply Array.ext_getElem?
    intro index
    rw [Array.getElem?_modify, Array.getElem?_modify]
    split
    · rename_i equal
      subst equal
      cases found : world.realms[realm]? with
      | none => rfl
      | some region =>
        have current : world.realm realm = region := by simp [World.realm, found]
        rw [current] at agree
        rw [Option.map_some, Option.map_some, agree]
    · rfl
  rw [modifyRealm, same]
  rfl

theorem modifyRealm_modifyRealm (first second : Realm → Realm) :
    (world.modifyRealm realm first).modifyRealm realm second =
      world.modifyRealm realm fun region => second (first region) := by
  have same : (world.realms.modify realm first).modify realm second =
      world.realms.modify realm fun region => second (first region) := by
    apply Array.ext_getElem?
    intro index
    simp only [Array.getElem?_modify]
    split
    · rw [Option.map_map]
      rfl
    · rfl
  simp only [modifyRealm, same]

/-- What a view shows of every realm, if the change does not show in it. -/
theorem view_modifyRealm {α : Type} (view : Realm → α) {change : Realm → Realm}
    (unseen : ∀ region, view (change region) = view region) (another : RealmId) :
    view ((world.modifyRealm realm change).realm another) = view (world.realm another) := by
  by_cases made : world.HasRealm realm
  · by_cases same : another = realm
    · subst same
      rw [realm_modifyRealm_self made, unseen]
    · rw [realm_modifyRealm_of_ne same]
  · rw [modifyRealm_of_not_hasRealm made]

@[simp]
theorem hasRealm_modifyRealm (change : Realm → Realm) (another : RealmId) :
    (world.modifyRealm realm change).HasRealm another ↔ world.HasRealm another := by
  simp [HasRealm, modifyRealm]

/-- An identity that was given out belongs to a realm that was made. -/
theorem Has.hasRealm (made : world.Has id) : world.HasRealm id.realm := by
  refine Nat.lt_of_not_le fun outside => ?_
  have nothing : world.realm id.realm = default := by
    simp [World.realm, Array.getElem?_eq_none outside]
  have small : id.slot < (world.realm id.realm).objects.size := made
  rw [nothing] at small
  exact Nat.not_lt_zero _ small

/-! ### Changes that leave the objects alone -/

/-- Two worlds have the same objects under the same identities. -/
def SameObjects (before after : World) : Prop :=
  ∀ realm, (after.realm realm).objects = (before.realm realm).objects

theorem SameObjects.object {before after : World} (same : SameObjects before after)
    (id : ObjectId) : after.object id = before.object id := by
  rw [World.object, same]
  rfl

theorem SameObjects.has {before after : World} (same : SameObjects before after) (id : ObjectId) :
    after.Has id ↔ before.Has id := by
  rw [Has, same]
  rfl

theorem SameObjects.modifyRealm {change : Realm → Realm}
    (unseen : ∀ region, (change region).objects = region.objects) :
    SameObjects world (world.modifyRealm realm change) :=
  view_modifyRealm Realm.objects unseen

/-- The world with a call in its log. -/
def logged (world : World) (call : Call) : World := { world with log := world.log.push call }

/-! ### Changing one object -/

theorem has_modifyObject (update : Object → Object) (other : ObjectId) :
    (world.modifyObject id update).Has other ↔ world.Has other := by
  have size : ((world.modifyObject id update).realm other.realm).objects.size =
      (world.realm other.realm).objects.size :=
    view_modifyRealm (fun region => region.objects.size) (fun _ => Array.size_modify) other.realm
  rw [Has, size]
  rfl

theorem object_modifyObject_self (made : world.Has id) (update : Object → Object) :
    (world.modifyObject id update).object id = update (world.object id) := by
  have inside : id.slot < (world.realm id.realm).objects.size := made
  rw [object, modifyObject, realm_modifyRealm_self made.hasRealm]
  simp [object, Array.getElem?_modify, Array.getElem?_eq_getElem inside]

theorem object_modifyObject_of_ne (different : other ≠ id) (update : Object → Object) :
    (world.modifyObject id update).object other = world.object other := by
  by_cases made : world.HasRealm id.realm
  · by_cases same : other.realm = id.realm
    · have apart : ¬ id.slot = other.slot := fun equal =>
        different (by cases id; cases other; simp_all)
      rw [object, object, modifyObject, same, realm_modifyRealm_self made]
      simp [Array.getElem?_modify, apart]
    · rw [object, modifyObject, realm_modifyRealm_of_ne same]
      rfl
  · rw [modifyObject, modifyRealm_of_not_hasRealm made]

/-- The object of an identity never given out has no properties. -/
theorem object_of_not_has (missing : ¬ world.Has id) : world.object id = default := by
  have outside : (world.realm id.realm).objects.size ≤ id.slot := Nat.le_of_not_lt missing
  simp [object, Array.getElem?_eq_none outside]

/-- So what is an array has been given out. -/
theorem has_of_isArray (array : (world.object id).isArray = true) : world.Has id := by
  refine Decidable.byContradiction fun missing => ?_
  rw [object_of_not_has missing] at array
  cases array

/-- And so has what can be called. -/
theorem has_of_callable {callable : Callable}
    (found : (world.object id).callable = some callable) : world.Has id := by
  refine Decidable.byContradiction fun missing => ?_
  rw [object_of_not_has missing] at found
  cases found

/-- And what has a property. -/
theorem has_of_own? {key : Key} {property : Property}
    (slot : (world.object id).own? key = some property) : world.Has id := by
  refine Decidable.byContradiction fun missing => ?_
  rw [object_of_not_has missing] at slot
  cases slot

theorem object_modifyObject_of_not_has (missing : ¬ world.Has id) (update : Object → Object) :
    (world.modifyObject id update).object other = world.object other := by
  by_cases same : other = id
  · subst same
    rw [object_of_not_has missing, object_of_not_has (by rwa [has_modifyObject])]
  · exact object_modifyObject_of_ne same update

/-- A change of an object is known from what it makes of the object as it is. -/
theorem modifyObject_congr {first second : Object → Object}
    (agree : first (world.object id) = second (world.object id)) :
    world.modifyObject id first = world.modifyObject id second := by
  refine modifyRealm_congr (congrArg (fun objects => { world.realm id.realm with objects }) ?_)
  apply Array.ext_getElem?
  intro index
  rw [Array.getElem?_modify, Array.getElem?_modify]
  split
  · rename_i equal
    subst equal
    cases found : (world.realm id.realm).objects[id.slot]? with
    | none => rfl
    | some object =>
      have current : world.object id = object := by simp [World.object, found]
      rw [current] at agree
      rw [Option.map_some, Option.map_some, agree]
  · rfl

theorem modifyObject_modifyObject (first second : Object → Object) :
    (world.modifyObject id first).modifyObject id second =
      world.modifyObject id fun object => second (first object) := by
  rw [modifyObject, modifyObject, modifyRealm_modifyRealm]
  refine modifyRealm_congr (congrArg (fun objects => { world.realm id.realm with objects }) ?_)
  apply Array.ext_getElem?
  intro index
  simp only [Array.getElem?_modify]
  split
  · rw [Option.map_map]
    rfl
  · rfl

theorem modifyObject_id : (world.modifyObject id fun object => object) = world := by
  have objects : ∀ objects : Array Object,
      (objects.modify id.slot fun object => object) = objects :=
    fun objects => by
      apply Array.ext_getElem?
      intro index
      rw [Array.getElem?_modify]
      split <;> simp
  have realms : (world.realms.modify id.realm fun region => region) = world.realms := by
    apply Array.ext_getElem?
    intro index
    rw [Array.getElem?_modify]
    split <;> simp
  rw [modifyObject, modifyRealm]
  simp only [objects, realms]

/-! ### Adding an object -/

/-- Changing a new object is adding it as it is after the change. -/
theorem modifyObject_add (object : Object) (update : Object → Object) :
    (world.add realm object).modifyObject (world.nextId realm) update =
      world.add realm (update object) := by
  rw [modifyObject, add, nextId, modifyRealm_modifyRealm]
  refine modifyRealm_congr (congrArg (fun objects => { world.realm realm with objects }) ?_)
  apply Array.ext_getElem?
  intro index
  simp only [Array.getElem?_modify, Array.getElem?_push]
  split
  · rename_i last
    rw [if_pos last.symm, if_pos last.symm]
    rfl
  · rename_i other
    rw [if_neg (Ne.symm other), if_neg (Ne.symm other)]

theorem object_add_nextId (made : world.HasRealm realm) (object : Object) :
    (world.add realm object).object (world.nextId realm) = object := by
  rw [World.object, nextId, add, realm_modifyRealm_self made]
  simp

theorem has_add_nextId (made : world.HasRealm realm) (object : Object) :
    (world.add realm object).Has (world.nextId realm) := by
  rw [Has, nextId, add, realm_modifyRealm_self made]
  simp

theorem not_has_nextId : ¬ world.Has (world.nextId realm) := Nat.lt_irrefl _

theorem object_add_of_ne (different : id ≠ world.nextId realm) (object : Object) :
    (world.add realm object).object id = world.object id := by
  by_cases made : world.HasRealm realm
  · by_cases same : id.realm = realm
    · subst same
      have apart : ¬ id.slot = (world.realm id.realm).objects.size := fun equal =>
        different (by cases id; simp_all [nextId])
      rw [World.object, World.object, add, realm_modifyRealm_self made]
      simp [Array.getElem?_push, apart]
    · rw [World.object, add, realm_modifyRealm_of_ne same]
      rfl
  · rw [add, modifyRealm_of_not_hasRealm made]

theorem Has.ne_nextId (made : world.Has id) : id ≠ world.nextId realm := by
  rintro rfl
  exact not_has_nextId made

theorem Has.add (made : world.Has id) (realm : RealmId) (object : Object) :
    (world.add realm object).Has id := by
  by_cases region : world.HasRealm realm
  · by_cases same : id.realm = realm
    · subst same
      have inside : id.slot < (world.realm id.realm).objects.size := made
      rw [Has, World.add, realm_modifyRealm_self region]
      exact Nat.lt_of_lt_of_le inside (by simp)
    · rw [Has, World.add, realm_modifyRealm_of_ne same]
      exact made
  · rwa [World.add, modifyRealm_of_not_hasRealm region]

/-- Only the next identity of the realm is given out with a new object. -/
theorem has_of_has_add {object : Object} (made : (world.add realm object).Has id)
    (different : id ≠ world.nextId realm) : world.Has id := by
  by_cases region : world.HasRealm realm
  · by_cases same : id.realm = realm
    · subst same
      rw [Has, World.add, realm_modifyRealm_self region] at made
      have apart : ¬ id.slot = (world.realm id.realm).objects.size := fun equal =>
        different (by cases id; simp_all [nextId])
      simp only [Array.size_push] at made
      exact Nat.lt_of_le_of_ne (Nat.le_of_lt_succ made) apart
    · rwa [Has, World.add, realm_modifyRealm_of_ne same] at made
  · rwa [World.add, modifyRealm_of_not_hasRealm region] at made

/-! ### All objects at once -/

/-- With a new object, what is under an identity is this one or what was there before. -/
theorem object_add_cases (world : World) (realm : RealmId) (object : Object) (id : ObjectId) :
    (id = world.nextId realm ∧ (world.add realm object).object id = object) ∨
      (world.add realm object).object id = world.object id := by
  by_cases last : id = world.nextId realm
  · by_cases made : world.HasRealm realm
    · exact Or.inl ⟨last, last ▸ object_add_nextId made object⟩
    · exact Or.inr (by rw [add, modifyRealm_of_not_hasRealm made])
  · exact Or.inr (object_add_of_ne last object)

/-- After a change of an object, what is under an identity is this one or what was there before. -/
theorem object_modifyObject_cases (world : World) (id : ObjectId) (update : Object → Object)
    (other : ObjectId) :
    (other = id ∧ (world.modifyObject id update).object other = update (world.object id)) ∨
      (world.modifyObject id update).object other = world.object other := by
  by_cases made : world.Has id
  · by_cases same : other = id
    · exact Or.inl ⟨same, same ▸ object_modifyObject_self made update⟩
    · exact Or.inr (object_modifyObject_of_ne same update)
  · exact Or.inr (object_modifyObject_of_not_has made update)

section Related

variable {after : World} {relation : Object → Object → Prop}
  (refl : ∀ object, relation object object)

include refl

/-- What every object has to itself, objects have to themselves that are left alone. -/
theorem related_of_sameObjects (same : world.SameObjects after) (id : ObjectId) :
    relation (world.object id) (after.object id) := by
  rw [same.object]
  exact refl _

/-- A new object comes in the place of one without properties. -/
theorem related_add {object : Object} (new : relation default object) (id : ObjectId) :
    relation (world.object id) ((world.add realm object).object id) := by
  rcases object_add_cases world realm object id with ⟨last, made⟩ | same
  · rw [made, last, object_of_not_has not_has_nextId]
    exact new
  · rw [same]
    exact refl _

theorem related_modifyObject {update : Object → Object}
    (changed : relation (world.object other) (update (world.object other))) (id : ObjectId) :
    relation (world.object id) ((world.modifyObject other update).object id) := by
  rcases object_modifyObject_cases world other update id with ⟨rfl, made⟩ | same
  · rwa [made]
  · rw [same]
    exact refl _

end Related

end EcmaCore.World
