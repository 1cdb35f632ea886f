/-
This file proves that realms are isolated. A run that has only what belongs to one territory
changes nothing in another that has nothing in common with it. So a later run in the other
territory cannot tell whether the first has taken place: it ends in the same way, and what it
makes gets the same identities.

How the first run ends is of no matter. It may fail at any point or be cut off, and whatever
worlds it passes through, the other territory is the same in all of them.

New realms are such territories. Their intrinsics lead to one another only, what a realm
will make is its own, and nothing is remembered yet. From there on the territories stay
whole, so the same is true after any number of runs in each.
-/

import EcmaCore.Proofs.Isolation.Lockstep
import EcmaCore.Proofs.World.Fresh

namespace EcmaCore

variable {territory first second : Territory} {world reached : World}

/-! ### What intrinsics lead to -/

/-- The object can be reached from the intrinsics of a realm, along properties and prototypes. -/
inductive World.Reachable (world : World) (realm : RealmId) : ObjectId → Prop
  | intrinsic (which : Intrinsic) : Reachable world realm (which.id realm)
  | property {holder id : ObjectId} {key : Key} {property : Property}
      (before : Reachable world realm holder)
      (slot : (world.object holder).own? key = some property)
      (led : .object id ∈ property.values) : Reachable world realm id
  | prototype {child parent : ObjectId} (before : Reachable world realm child)
      (next : (world.object child).prototype = some parent) : Reachable world realm parent

/-- Whatever the intrinsics of a territory lead to belongs to it. -/
theorem World.KeepsTo.owns_of_reachable (keeps : world.KeepsTo territory) {realm : RealmId}
    (governed : territory.governs realm) {id : ObjectId} (reachable : world.Reachable realm id) :
    territory.owns id := by
  induction reachable with
  | intrinsic which => exact territory.intrinsic governed which
  | property _ slot led owned =>
    exact Value.within_object.mp ((keeps.object _ owned).own? slot _ led)
  | prototype _ next owned => exact (keeps.object _ owned).prototype _ next

/-! ### Territories apart -/

/-- Nothing belongs to both territories. -/
def Territory.Disjoint (first second : Territory) : Prop :=
  ∀ id, first.owns id → ¬ second.owns id

/-- Disjoint territories have no realm in common, since every realm has intrinsics. -/
theorem Territory.Disjoint.governs (disjoint : first.Disjoint second) {realm : RealmId}
    (governed : first.governs realm) : ¬ second.governs realm := fun governs =>
  disjoint _ (first.intrinsic governed .global) (second.intrinsic governs .global)

/-- Worlds that agree on all that is foreign to one territory agree on another. -/
theorem Territory.Disjoint.agreesWithin (disjoint : first.Disjoint second)
    (outside : world.AgreesOutside first reached) : world.AgreesWithin second reached :=
  outside.mono (fun id owned foreign => disjoint id foreign owned)
    fun _ governed foreign => disjoint.governs foreign governed

/-- A run within one territory leaves both territories whole, and nothing of the second is changed
at any point of it. -/
theorem Program.twins_of_mem (disjoint : first.Disjoint second)
    (enclosesFirst : world.Encloses first) (enclosesSecond : world.Encloses second)
    {program : Program} (within : program.Within first) (depth : Nat)
    (member : reached ∈ (program.run (callWithin depth)).worlds world) :
    reached.Encloses first ∧ world.Twins second reached := by
  have confined := confined_program (confined_callWithin first.lockstep depth) within
  obtain ⟨outside, whole⟩ :=
    (confined world world enclosesFirst.twins).of_mem enclosesFirst member
  exact ⟨whole, enclosesSecond, disjoint.agreesWithin outside⟩

/-! ### Runs that cannot tell twins apart -/

/-- An operation that is asked with what belongs to a territory ends alike from twins. -/
theorem Operation.alike_of_twins (twins : world.Twins territory reached) {realm : RealmId}
    (governed : territory.governs realm) {shape : Shape} {operation : Operation shape}
    (held : territory.OwnsAll operation.values) (depth : Nat) :
    ((operation.run (callWithin depth) realm).outcome world).Alike territory
      ((operation.run (callWithin depth) realm).outcome reached) :=
  have confined := confined_operation (confined_callWithin territory.lockstep depth) governed
    operation held
  (confined world reached twins).outcome twins

/-- So does a program within the territory. -/
theorem Program.alike_of_twins (twins : world.Twins territory reached) {program : Program}
    (within : program.Within territory) (depth : Nat) :
    ((program.run (callWithin depth)).outcome world).Alike territory
      ((program.run (callWithin depth)).outcome reached) :=
  have confined := confined_program (confined_callWithin territory.lockstep depth) within
  (confined world reached twins).outcome twins

/-! ### New realms -/

/-- A realm with all that it makes. -/
def Territory.ofRealm (realm : RealmId) : Territory where
  governs another := another = realm
  owns id := id.realm = realm
  intrinsic governed _ := governed

theorem Territory.disjoint_ofRealm {left right : RealmId} (different : left ≠ right) :
    (ofRealm left).Disjoint (ofRealm right) :=
  fun _ owned other => different (owned.symm.trans other)

/-- Every new realm is a whole territory of its own. -/
theorem World.encloses_fresh {count : Nat} {realm : RealmId} (inside : realm < count) :
    (fresh count).Encloses (.ofRealm realm) where
  keeps := by
    refine ⟨fun id owned => ?_, fun another governed => ?_⟩
    · rcases object_fresh count id with empty | ⟨which, _, intrinsic⟩
      · rw [empty]
        exact Object.within_bare .ordinary nofun
      · rw [intrinsic]
        exact Object.within_intrinsic owned which
    · rw [realm_fresh]
      split <;> exact ⟨nofun, nofun⟩
  made another governed := hasRealm_fresh (governed ▸ inside)
  next _ governed _ := governed

/-! ### Isolation -/

/-- Whatever a program does that has only what belongs to one territory, and however far it gets,
no object that the intrinsics of another territory lead to is changed, and every operation and every
program in that territory ends afterwards as if the first program had not run. Both territories are
still whole, so that the same can be said of what is run next. -/
theorem Program.isolated (disjoint : first.Disjoint second) (enclosesFirst : world.Encloses first)
    (enclosesSecond : world.Encloses second) {program : Program} (within : program.Within first)
    (depth : Nat) (member : reached ∈ (program.run (callWithin depth)).worlds world) :
    (∀ realm, second.governs realm → ∀ id, world.Reachable realm id →
        reached.object id = world.object id) ∧
      (∀ realm, second.governs realm →
        ∀ (shape : Shape) (operation : Operation shape) (later : Nat),
        second.OwnsAll operation.values →
        ((operation.run (callWithin later) realm).outcome world).Alike second
          ((operation.run (callWithin later) realm).outcome reached)) ∧
      (∀ next : Program, next.Within second → ∀ later : Nat,
        ((next.run (callWithin later)).outcome world).Alike second
          ((next.run (callWithin later)).outcome reached)) ∧
      reached.Encloses first ∧ reached.Encloses second := by
  obtain ⟨whole, twins⟩ :=
    Program.twins_of_mem disjoint enclosesFirst enclosesSecond within depth member
  refine ⟨fun realm governed id reachable => ?_,
    fun realm governed shape operation later held => ?_,
    fun next withinNext later => ?_, whole, twins.encloses_right⟩
  · exact twins.agrees.object id (enclosesSecond.keeps.owns_of_reachable governed reachable)
  · exact Operation.alike_of_twins twins governed held later
  · exact Program.alike_of_twins twins withinNext later

/-- A program that takes the intrinsics of a realm apart: it deletes the object constructor, puts a
function of its own in the place of the mapping function, has that function delete a third one, and
fails. -/
def Program.sabotage (realm : RealmId) : Program :=
  .perform realm (.delete (Intrinsic.global.id realm) (.text "Object")) fun _ =>
  .makeFunction realm "map" 1
    (fun _ => .perform realm (.delete (Intrinsic.json.id realm) (.text "parse")) fun _ =>
      .raise (.raised .thrown "spoilt"))
    fun id =>
  .perform realm (.set (Intrinsic.arrayPrototype.id realm) (.text "map") (.object id)) fun _ =>
  .perform realm (.call (.object id) .undefined []) fun
    | .ok value => .finish value
    | .error error => .raise error

theorem Program.within_sabotage (realm : RealmId) :
    (sabotage realm).Within (.ofRealm realm) := by
  have intrinsic (which : Intrinsic) : (Territory.ofRealm realm).owns (which.id realm) := rfl
  have request (which : Intrinsic) :
      (Territory.ofRealm realm).OwnsAll [.object (which.id realm)] :=
    Territory.ownsAll_singleton.mpr (Value.within_object.mpr (intrinsic which))
  refine ⟨rfl, request .global, fun _ _ => ⟨rfl, fun _ _ _ => ?_, fun id owned => ?_⟩⟩
  · exact ⟨rfl, request .json, fun _ _ => trivial⟩
  · have made : (Value.object id).Within (Territory.ofRealm realm) := Value.within_object.mpr owned
    have called : (Territory.ofRealm realm).OwnsAll [.object id, .undefined] := by
      simp [made, Value.within_undefined]
    have written : (Territory.ofRealm realm).OwnsAll
        [.object (Intrinsic.arrayPrototype.id realm), .object id] := by
      simp [made, intrinsic]
    refine ⟨rfl, written, fun _ _ => ⟨rfl, called, fun reply told => ?_⟩⟩
    cases reply with
    | ok value => exact told value rfl value (List.mem_singleton_self value)
    | error error => exact trivial

/-- The program spoils its own realm and fails. The mapping check of the other realm comes to the
same end as before. -/
theorem Program.isolated_from_sabotage :
    ∃ reached ∈ ((sabotage 0).run (callWithin 1)).worlds (World.fresh 2),
      (reached.object (Intrinsic.json.id 0)).own? (.text "parse") = none ∧
      reached.object (Intrinsic.json.id 1) = (World.fresh 2).object (Intrinsic.json.id 1) ∧
      ((Operation.checkMap.run (callWithin 2) 1).outcome (World.fresh 2)).Alike (.ofRealm 1)
        ((Operation.checkMap.run (callWithin 2) 1).outcome reached) := by
  have ended : ∃ after, ((sabotage 0).run (callWithin 1)).outcome (World.fresh 2) =
      .threw (.raised .thrown "spoilt") after ∧
        (after.object (Intrinsic.json.id 0)).own? (.text "parse") = none := ⟨_, rfl, rfl⟩
  obtain ⟨reached, failed, spoilt⟩ := ended
  have member := Run.mem_worlds_of_threw failed
  obtain ⟨unchanged, operations, -⟩ :=
    Program.isolated (Territory.disjoint_ofRealm Nat.zero_ne_one) (World.encloses_fresh Nat.two_pos)
      (World.encloses_fresh Nat.one_lt_two) (within_sabotage 0) 1 member
  exact ⟨reached, member, spoilt, unchanged 1 rfl _ (.intrinsic .json),
    operations 1 rfl _ .checkMap 2 Territory.ownsAll_nil⟩

end EcmaCore
