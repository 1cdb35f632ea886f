/-
This file says where the objects of a planted tree stand: they fill an interval of places,
in which a container comes after all that it holds. So the parts of a container have
intervals that follow one another, and no object belongs to two of them.

The objects themselves are known exactly, as planting lays them out, with all that a
search or a conversion may ask of them.
-/

import EcmaCore.Proofs.Json.Placement
import EcmaCore.Proofs.Object.Shapes

namespace EcmaCore.Json

/-! ### Intervals -/

/-- Values of trees stand one after another, each in an interval of places. -/
inductive Consecutive (Item : Nat → Nat → Tree → Value → Prop) :
    Nat → Nat → List Tree → List Value → Prop
  | nil (place : Nat) : Consecutive Item place place [] []
  | cons {first middle last : Nat} {tree : Tree} {value : Value} {trees : List Tree}
      {values : List Value} (head : Item first middle tree value) (forward : first ≤ middle)
      (others : Consecutive Item middle last trees values) :
      Consecutive Item first last (tree :: trees) (value :: values)

/-- The value of a tree stands in a realm, with objects at the places from the first one up to the
last one, which does not belong to it. -/
inductive Stands (world : World) (realm : RealmId) : Nat → Nat → Tree → Value → Prop
  | null (place : Nat) : Stands world realm place place .null .null
  | boolean (place : Nat) (flag : Bool) :
      Stands world realm place place (.boolean flag) (.boolean flag)
  | number (place : Nat) (number : Number) :
      Stands world realm place place (.number number) (.number number)
  | string (place : Nat) (units : Units) :
      Stands world realm place place (.string units) (.string units)
  | array {first last : Nat} {elements : List Tree} {values : List Value}
      (below : Consecutive (Stands world realm) first last elements values)
      (made : world.Has ⟨realm, last⟩)
      (object : world.object ⟨realm, last⟩ =
        (Object.emptyArray realm).createdAll (indexed values)) :
      Stands world realm first (last + 1) (.array elements) (.object ⟨realm, last⟩)
  | object {first last : Nat} {members : List (Units × Tree)} {entries : List (Key × Value)}
      (names : entries.map Prod.fst = members.map fun member => .ofUnits member.1)
      (below : Consecutive (Stands world realm) first last (members.map Prod.snd)
        (entries.map Prod.snd))
      (made : world.Has ⟨realm, last⟩)
      (object : world.object ⟨realm, last⟩ = (Object.plain realm).createdAll entries) :
      Stands world realm first (last + 1) (.object members) (.object ⟨realm, last⟩)

namespace Consecutive

variable {Item : Nat → Nat → Tree → Value → Prop} {first last : Nat} {trees : List Tree}
  {values : List Value}

theorem forward (consecutive : Consecutive Item first last trees values) : first ≤ last := by
  induction consecutive with
  | nil => exact Nat.le_refl _
  | cons _ forward _ inductionHypothesis => exact Nat.le_trans forward inductionHypothesis

theorem length_eq (consecutive : Consecutive Item first last trees values) :
    values.length = trees.length := by
  induction consecutive with
  | nil => rfl
  | cons _ _ _ inductionHypothesis => rw [List.length_cons, List.length_cons, inductionHypothesis]

/-- What holds of each part, in an interval inside that of all, holds of values and trees one by
one. -/
theorem related (consecutive : Consecutive Item first last trees values)
    {Related : Value → Tree → Prop} (each : ∀ start stop tree value, first ≤ start →
      tree ∈ trees → Item start stop tree value → Related value tree) :
    List.Forall₂ Related values trees := by
  induction consecutive with
  | nil => exact .nil
  | cons head forward _ inductionHypothesis =>
    refine .cons (each _ _ _ _ (Nat.le_refl _) List.mem_cons_self head) (inductionHypothesis ?_)
    intro start stop tree value after member
    exact each start stop tree value (Nat.le_trans forward after) (List.mem_cons_of_mem _ member)

/-- The value at an index stands for the tree at the index, in an interval inside that of all. -/
theorem part (consecutive : Consecutive Item first last trees values) {index : Nat} {value : Value}
    (here : values[index]? = some value) :
    ∃ tree, trees[index]? = some tree ∧
      ∃ start stop, Item start stop tree value ∧ first ≤ start ∧ stop ≤ last := by
  induction consecutive generalizing index with
  | nil => cases here
  | cons head forward others inductionHypothesis =>
    cases index with
    | zero =>
      cases here
      exact ⟨_, rfl, _, _, head, Nat.le_refl _, others.forward⟩
    | succ index =>
      obtain ⟨tree, same, start, stop, item, after, before⟩ := inductionHypothesis here
      exact ⟨tree, same, start, stop, item, Nat.le_trans forward after, before⟩

/-- Of the values at two indices the earlier one stands before the later one. -/
theorem apart (consecutive : Consecutive Item first last trees values) {index later : Nat}
    {value other : Value} (less : index < later) (here : values[index]? = some value)
    (there : values[later]? = some other) :
    ∃ tree ∈ trees, ∃ otherTree ∈ trees, ∃ start stop otherStart otherStop,
      Item start stop tree value ∧ Item otherStart otherStop otherTree other ∧
        stop ≤ otherStart := by
  induction consecutive generalizing index later with
  | nil => cases here
  | cons head forward others inductionHypothesis =>
    obtain ⟨later, rfl⟩ : ∃ before, later = before + 1 := ⟨later - 1, by omega⟩
    cases index with
    | zero =>
      cases here
      obtain ⟨tree, same, start, stop, item, after, _⟩ := others.part there
      exact ⟨_, List.mem_cons_self, tree, List.mem_cons_of_mem _ (List.mem_of_getElem? same), _, _,
        start, stop, head, item, after⟩
    | succ index =>
      obtain ⟨tree, member, otherTree, otherMember, between⟩ :=
        inductionHypothesis (Nat.lt_of_succ_lt_succ less) here there
      exact ⟨tree, List.mem_cons_of_mem _ member, otherTree, List.mem_cons_of_mem _ otherMember,
        between⟩

end Consecutive

theorem Stands.forward {world : World} {realm : RealmId} {first last : Nat} {tree : Tree}
    {value : Value} (stands : Stands world realm first last tree value) : first ≤ last := by
  cases stands with
  | array below => exact Nat.le_succ_of_le below.forward
  | object _ below => exact Nat.le_succ_of_le below.forward
  | _ => exact Nat.le_refl _

theorem Stands.isCallable_eq_false {world : World} {realm : RealmId} {first last : Nat}
    {tree : Tree} {value : Value} (stands : Stands world realm first last tree value) :
    world.isCallable value = false := by
  cases stands with
  | array _ _ object =>
    rw [World.isCallable, object, Object.createdAll_frame]
    rfl
  | object _ _ _ object =>
    rw [World.isCallable, object, Object.createdAll_frame]
    rfl
  | _ => rfl

/-! ### Planted trees -/

mutual

/-- Where the objects of a planted tree are in a row, its value stands in their interval. -/
theorem Tree.stands_planted {world : World} {realm : RealmId} {first : Nat} (tree : Tree)
    (row : world.Row realm first (tree.planted realm first).2) :
    Stands world realm first (first + (tree.planted realm first).2.length) tree
      (tree.planted realm first).1 := by
  cases tree with
  | null => exact .null first
  | boolean flag => exact .boolean first flag
  | number number => exact .number first number
  | string units => exact .string first units
  | array elements =>
    rw [Tree.planted] at row ⊢
    dsimp only at row ⊢
    obtain ⟨below, container⟩ := World.row_append.mp row
    obtain ⟨made, object⟩ := container 0 Nat.one_pos
    rw [List.length_append, List.length_singleton, ← Nat.add_assoc]
    exact .array (elements_stand_planted elements below) made object
  | object members =>
    rw [Tree.planted] at row ⊢
    dsimp only at row ⊢
    obtain ⟨below, container⟩ := World.row_append.mp row
    obtain ⟨made, object⟩ := container 0 Nat.one_pos
    rw [List.length_append, List.length_singleton, ← Nat.add_assoc]
    obtain ⟨names, stand⟩ := members_stand_planted members below
    exact .object names stand made object

theorem elements_stand_planted {world : World} {realm : RealmId} {first : Nat}
    (elements : List Tree)
    (row : world.Row realm first (elementsPlanted realm first elements).2) :
    Consecutive (Stands world realm) first
      (first + (elementsPlanted realm first elements).2.length) elements
      (elementsPlanted realm first elements).1 := by
  cases elements with
  | nil => exact .nil first
  | cons tree rest =>
    rw [elementsPlanted] at row ⊢
    dsimp only at row ⊢
    obtain ⟨head, others⟩ := World.row_append.mp row
    rw [List.length_append, ← Nat.add_assoc]
    exact .cons (tree.stands_planted head) (Nat.le_add_right _ _)
      (elements_stand_planted rest others)

theorem members_stand_planted {world : World} {realm : RealmId} {first : Nat}
    (members : List (Units × Tree))
    (row : world.Row realm first (membersPlanted realm first members).2) :
    (membersPlanted realm first members).1.map Prod.fst =
        members.map (fun member => .ofUnits member.1) ∧
      Consecutive (Stands world realm) first
        (first + (membersPlanted realm first members).2.length) (members.map Prod.snd)
        ((membersPlanted realm first members).1.map Prod.snd) := by
  cases members with
  | nil => exact ⟨rfl, .nil first⟩
  | cons member rest =>
    obtain ⟨key, tree⟩ := member
    rw [membersPlanted] at row ⊢
    dsimp only at row ⊢
    obtain ⟨head, others⟩ := World.row_append.mp row
    obtain ⟨names, stand⟩ := members_stand_planted rest others
    rw [List.length_append, ← Nat.add_assoc]
    exact ⟨congrArg (Key.ofUnits key :: ·) names,
      .cons (tree.stands_planted head) (Nat.le_add_right _ _) stand⟩

end

/-- Reading a text that says a tree makes a value of the tree, standing in an interval of new
places. -/
theorem stands_readValue (call : Caller) {realm : RealmId} {world : World}
    (made : world.HasRealm realm) {text : Units} {tree : Tree} (parsed : parse text = .ok tree) :
    ∃ value after last, (readValue call realm text).outcome world = .done value after ∧
      after.Extends world ∧ Stands after realm (world.nextSlot realm) last tree value :=
  ⟨_, _, _, outcome_readValue_of_ok call made parsed, World.extends_addAll world realm _,
    tree.stands_planted (World.row_addAll made _)⟩

end EcmaCore.Json
