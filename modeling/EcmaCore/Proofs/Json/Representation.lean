/-
This file says when a value represents a JSON tree in a world. Arrays and objects of the
tree are objects of the world whose whole own side is laid down, and what stands below
them is laid down in the same way.

What represents a tree goes on doing so in every world that still has the same objects
and perhaps more.
-/

import EcmaCore.Json.Tree
import EcmaCore.Proofs.Object.Shapes
import EcmaCore.Proofs.Text.Pieces
import EcmaCore.Proofs.World.Growth

namespace EcmaCore

namespace Json

/-! ### Trees -/

mutual

/-- A value represents a tree in a world, with new objects of a realm. -/
inductive Represents (world : World) (realm : RealmId) : Tree → Value → Prop
  | null : Represents world realm .null .null
  | boolean (flag : Bool) : Represents world realm (.boolean flag) (.boolean flag)
  | number (value : Number) : Represents world realm (.number value) (.number value)
  | string (units : Units) : Represents world realm (.string units) (.string units)
  | array {elements : List Tree} {values : List Value} {id : ObjectId} (made : world.Has id)
      (shape : (world.object id).IsArrayOf realm values)
      (below : RepresentsElements world realm elements values) :
      Represents world realm (.array elements) (.object id)
  | object {members : List (Units × Tree)} {entries : List (Key × Value)} {id : ObjectId}
      (made : world.Has id) (shape : (world.object id).IsRecordOf realm entries)
      (below : RepresentsMembers world realm members entries) :
      Represents world realm (.object members) (.object id)

/-- Values represent elements one by one. -/
inductive RepresentsElements (world : World) (realm : RealmId) : List Tree → List Value → Prop
  | nil : RepresentsElements world realm [] []
  | cons {tree : Tree} {value : Value} {trees : List Tree} {values : List Value}
      (first : Represents world realm tree value)
      (others : RepresentsElements world realm trees values) :
      RepresentsElements world realm (tree :: trees) (value :: values)

/-- Entries represent members one by one, each under the key with exactly the units of the name. -/
inductive RepresentsMembers (world : World) (realm : RealmId) :
    List (Units × Tree) → List (Key × Value) → Prop
  | nil : RepresentsMembers world realm [] []
  | cons {units : Units} {tree : Tree} {value : Value} {members : List (Units × Tree)}
      {entries : List (Key × Value)} (exact : (Key.ofUnits units).units = units)
      (first : Represents world realm tree value)
      (others : RepresentsMembers world realm members entries) :
      RepresentsMembers world realm ((units, tree) :: members) ((.ofUnits units, value) :: entries)

end

mutual

/-- Every array of the tree has a length that an array can have. -/
def Tree.Fits : Tree → Prop
  | .array elements => elements.length ≤ maxLength ∧ ElementsFit elements
  | .object members => MembersFit members
  | _ => True

/-- The same for all elements. -/
def ElementsFit : List Tree → Prop
  | [] => True
  | tree :: rest => tree.Fits ∧ ElementsFit rest

/-- The same for all members. -/
def MembersFit : List (Units × Tree) → Prop
  | [] => True
  | (_, tree) :: rest => tree.Fits ∧ MembersFit rest

end

theorem elementsFit_iff {elements : List Tree} :
    ElementsFit elements ↔ ∀ tree ∈ elements, tree.Fits := by
  induction elements with
  | nil => simp [ElementsFit]
  | cons tree rest inductionHypothesis =>
    rw [ElementsFit, inductionHypothesis, List.forall_mem_cons]

theorem membersFit_iff {members : List (Units × Tree)} :
    MembersFit members ↔ ∀ member ∈ members, member.2.Fits := by
  induction members with
  | nil => simp [MembersFit]
  | cons member rest inductionHypothesis =>
    rw [MembersFit, inductionHypothesis, List.forall_mem_cons]

/-! ### Worlds with more objects -/

mutual

/-- More objects change nothing about what a value represents. -/
theorem Represents.extend {before after : World} {realm : RealmId}
    (extended : after.Extends before) {tree : Tree} {value : Value}
    (represented : Represents before realm tree value) : Represents after realm tree value := by
  cases represented with
  | null => exact .null
  | boolean flag => exact .boolean flag
  | number value => exact .number value
  | string units => exact .string units
  | array made shape below =>
    exact .array (extended.has _ made) (extended.object _ made ▸ shape) (below.extend extended)
  | object made shape below =>
    exact .object (extended.has _ made) (extended.object _ made ▸ shape) (below.extend extended)

theorem RepresentsElements.extend {before after : World} {realm : RealmId}
    (extended : after.Extends before) {elements : List Tree} {values : List Value}
    (represented : RepresentsElements before realm elements values) :
    RepresentsElements after realm elements values := by
  cases represented with
  | nil => exact .nil
  | cons first others => exact .cons (first.extend extended) (others.extend extended)

theorem RepresentsMembers.extend {before after : World} {realm : RealmId}
    (extended : after.Extends before) {members : List (Units × Tree)}
    {entries : List (Key × Value)} (represented : RepresentsMembers before realm members entries) :
    RepresentsMembers after realm members entries := by
  cases represented with
  | nil => exact .nil
  | cons exact first others => exact .cons exact (first.extend extended) (others.extend extended)

end

theorem RepresentsElements.length_eq {world : World} {realm : RealmId} {elements : List Tree}
    {values : List Value} (represented : RepresentsElements world realm elements values) :
    values.length = elements.length := by
  induction elements generalizing values with
  | nil =>
    cases represented
    rfl
  | cons tree trees inductionHypothesis =>
    cases represented with
    | cons first others => rw [List.length_cons, List.length_cons, inductionHypothesis others]

end Json

end EcmaCore
