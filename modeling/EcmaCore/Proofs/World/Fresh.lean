/-
This file says what a world of new realms holds: under each identity the intrinsic of
that slot, or an object without properties where there is none. No host function is
among the intrinsics, and nothing is remembered.
-/

import EcmaCore.Proofs.Discipline.Basic

namespace EcmaCore

/-- Different intrinsics have different places. -/
theorem Intrinsic.id_injective (realm : RealmId) : Function.Injective (Intrinsic.id · realm) := by
  intro first second same
  have places : all.idxOf first = all.idxOf second := congrArg ObjectId.slot same
  exact (List.idxOf_inj first.mem_all).mp places

end EcmaCore

namespace EcmaCore.World

variable {count : Nat}

theorem realm_fresh (count : Nat) (realm : RealmId) :
    (fresh count).realm realm = if realm < count then Realm.initial realm else default := by
  rw [World.realm, fresh]
  split
  · rename_i made
    simp [made]
  · rename_i missing
    simp [Nat.le_of_not_lt missing]

theorem hasRealm_fresh {realm : RealmId} (inside : realm < count) :
    (fresh count).HasRealm realm := by
  rw [HasRealm, fresh, List.size_toArray, List.length_map, List.length_range]
  exact inside

/-- An object of a fresh world is an intrinsic of its realm or has no properties. -/
theorem object_fresh (count : Nat) (id : ObjectId) :
    (fresh count).object id = default ∨
      ∃ which ∈ Intrinsic.all, (fresh count).object id = which.object id.realm := by
  rw [object, realm_fresh]
  split
  · rw [Realm.initial]
    cases found : Intrinsic.all[id.slot]? with
    | none => exact Or.inl (by simp [found])
    | some which =>
      exact Or.inr ⟨which, List.mem_of_getElem? found, by simp [found]⟩
  · exact Or.inl rfl

/-- The intrinsics of a new realm are at their places. -/
theorem object_fresh_intrinsic {realm : RealmId} (inside : realm < count) (which : Intrinsic) :
    (fresh count).object (which.id realm) = which.object realm := by
  have listed : Intrinsic.all[Intrinsic.all.idxOf which]? = some which := by
    rw [List.getElem?_eq_getElem (List.idxOf_lt_length_of_mem which.mem_all),
      List.getElem_idxOf]
  show ((fresh count).realm realm).objects.getD (Intrinsic.all.idxOf which) default = _
  rw [realm_fresh, if_pos inside, Realm.initial, Array.getD_eq_getD_getElem?,
    List.getElem?_toArray, List.getElem?_map, listed]
  rfl

/-- The realm was made, with the objects that every realm has. -/
def HasIntrinsics (world : World) (realm : RealmId) : Prop :=
  ∀ which ∈ Intrinsic.all, world.Has (which.id realm)

theorem hasIntrinsics_fresh {realm : RealmId} (inside : realm < count) :
    (fresh count).HasIntrinsics realm := by
  intro which listed
  have made : (fresh count).realm realm = Realm.initial realm := by
    rw [realm_fresh, if_pos inside]
  show (which.id realm).slot < ((fresh count).realm realm).objects.size
  rw [made, Realm.initial, List.size_toArray, List.length_map]
  exact List.idxOf_lt_length_of_mem listed

theorem not_holds_fresh (realm : RealmId) (name : String) (snapshot : Snapshot) :
    ¬ (fresh count).Holds realm name snapshot := by
  rw [Holds, realm_fresh]
  split <;> exact fun held => nomatch held

/-- Every function among the intrinsics is a builtin one. -/
theorem callable_intrinsic (realm : RealmId) (which : Intrinsic) :
    (which.object realm).callable = none ∨
      ∃ name builtin, (which.object realm).callable = some ⟨name, .builtin builtin⟩ := by
  cases which with
  | function builtin => exact Or.inr ⟨builtin.name, builtin, by cases builtin <;> rfl⟩
  | _ => exact Or.inl rfl

/-- A fresh world has no host functions. -/
theorem hostsObey_fresh (permits : Permission) (count : Nat) :
    (fresh count).HostsObey permits := by
  intro id callable present
  rcases object_fresh count id with empty | ⟨which, _, intrinsic⟩
  · rw [empty] at present
    cases present
  · rw [intrinsic] at present
    rcases callable_intrinsic id.realm which with none | ⟨name, builtin, some⟩
    · rw [none] at present
      cases present
    · rw [some] at present
      cases present
      exact trivial

end EcmaCore.World
