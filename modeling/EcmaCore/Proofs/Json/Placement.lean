/-
This file gives planting as a function: from a tree, a realm and the first free place of
the realm to a value and the objects that are made for it, in the order in which they are
made. So what planting does to a world is known exactly. It adds these objects to the
realm and does nothing else, and neither the way to call functions nor anything that
stands in the world has a part in it.
-/

import EcmaCore.Json.Value
import EcmaCore.Proofs.Engine.Making
import EcmaCore.Proofs.World.Growth

namespace EcmaCore.Json

/-! ### What planting makes -/

mutual

/-- The value of a tree, and the objects made for it from a place on. A container comes after all
that it holds. -/
def Tree.planted (realm : RealmId) (first : Nat) : Tree → Value × List Object
  | .null => (.null, [])
  | .boolean flag => (.boolean flag, [])
  | .number value => (.number value, [])
  | .string units => (.string units, [])
  | .array elements =>
    let below := elementsPlanted realm first elements
    (.object ⟨realm, first + below.2.length⟩,
      below.2 ++ [(Object.emptyArray realm).createdAll (indexed below.1)])
  | .object members =>
    let below := membersPlanted realm first members
    (.object ⟨realm, first + below.2.length⟩,
      below.2 ++ [(Object.plain realm).createdAll below.1])

/-- The values of elements, one after another. -/
def elementsPlanted (realm : RealmId) (first : Nat) : List Tree → List Value × List Object
  | [] => ([], [])
  | tree :: rest =>
    let made := tree.planted realm first
    let others := elementsPlanted realm (first + made.2.length) rest
    (made.1 :: others.1, made.2 ++ others.2)

/-- The entries of members, one after another. -/
def membersPlanted (realm : RealmId) (first : Nat) :
    List (Units × Tree) → List (Key × Value) × List Object
  | [] => ([], [])
  | (key, tree) :: rest =>
    let made := tree.planted realm first
    let others := membersPlanted realm (first + made.2.length) rest
    ((.ofUnits key, made.1) :: others.1, made.2 ++ others.2)

end

/-! ### Planting makes it -/

mutual

/-- Planting ends in the value, and the world has the objects in addition. -/
theorem outcome_plant (call : Caller) {realm : RealmId} {world : World}
    (made : world.HasRealm realm) (tree : Tree) :
    (plant call realm tree).outcome world =
      .done (tree.planted realm (world.nextSlot realm)).1
        (world.addAll realm (tree.planted realm (world.nextSlot realm)).2) := by
  cases tree with
  | array elements =>
    rw [plant, Run.outcome_bind_of_done (outcome_plantElements call made elements),
      Run.outcome_bind_of_done (outcome_arrayOf call realm _ _), Tree.planted]
    dsimp only
    rw [World.addAll_concat, ← World.nextSlot_addAll made]
    rfl
  | object members =>
    rw [plant, Run.outcome_bind_of_done (outcome_plantMembers call made members),
      Run.outcome_bind_of_done (outcome_objectOf call realm _ _), Tree.planted]
    dsimp only
    rw [World.addAll_concat, ← World.nextSlot_addAll made]
    rfl
  | _ => rfl

theorem outcome_plantElements (call : Caller) {realm : RealmId} {world : World}
    (made : world.HasRealm realm) (elements : List Tree) :
    (plantElements call realm elements).outcome world =
      .done (elementsPlanted realm (world.nextSlot realm) elements).1
        (world.addAll realm (elementsPlanted realm (world.nextSlot realm) elements).2) := by
  cases elements with
  | nil => rfl
  | cons tree rest =>
    have later := (World.extends_addAll world realm
      (tree.planted realm (world.nextSlot realm)).2).hasRealm realm made
    rw [plantElements, Run.outcome_bind_of_done (outcome_plant call made tree),
      Run.outcome_bind_of_done (outcome_plantElements call later rest), elementsPlanted]
    dsimp only
    rw [World.addAll_append, ← World.nextSlot_addAll made]
    rfl

theorem outcome_plantMembers (call : Caller) {realm : RealmId} {world : World}
    (made : world.HasRealm realm) (members : List (Units × Tree)) :
    (plantMembers call realm members).outcome world =
      .done (membersPlanted realm (world.nextSlot realm) members).1
        (world.addAll realm (membersPlanted realm (world.nextSlot realm) members).2) := by
  cases members with
  | nil => rfl
  | cons member rest =>
    obtain ⟨key, tree⟩ := member
    have later := (World.extends_addAll world realm
      (tree.planted realm (world.nextSlot realm)).2).hasRealm realm made
    rw [plantMembers, Run.outcome_bind_of_done (outcome_plant call made tree),
      Run.outcome_bind_of_done (outcome_plantMembers call later rest), membersPlanted]
    dsimp only
    rw [World.addAll_append, ← World.nextSlot_addAll made]
    rfl

end

/-- Reading a text that says a tree adds the objects of the tree. -/
theorem outcome_readValue_of_ok (call : Caller) {realm : RealmId} {world : World}
    (made : world.HasRealm realm) {text : Units} {tree : Tree} (parsed : parse text = .ok tree) :
    (readValue call realm text).outcome world =
      .done (tree.planted realm (world.nextSlot realm)).1
        (world.addAll realm (tree.planted realm (world.nextSlot realm)).2) := by
  rw [readValue, parsed]
  exact outcome_plant call made tree

end EcmaCore.Json
