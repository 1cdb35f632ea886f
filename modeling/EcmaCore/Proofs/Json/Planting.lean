/-
This file proves that planting a tree always ends in a value, in every world, and that
the value represents the tree. What was there before stays as it was: planting only adds
objects, an array or object after everything below it, so what was planted first still
represents its part of the tree at the end.
-/

import EcmaCore.Json.Value
import EcmaCore.Proofs.Engine.Making
import EcmaCore.Proofs.Json.Acceptance
import EcmaCore.Proofs.Json.Representation

namespace EcmaCore.Json

/-! ### Finished objects in the world -/

theorem represents_array {world : World} {realm : RealmId} (made : world.HasRealm realm)
    {elements : List Tree} {values : List Value}
    (below : RepresentsElements world realm elements values)
    (bound : elements.length ≤ maxLength) :
    Represents
      (world.add realm ((Object.emptyArray realm).createdAll (indexed values))) realm
      (.array elements) (.object (world.nextId realm)) := by
  refine .array (World.has_add_nextId made _) ?_ (below.extend (World.extends_add world realm _))
  rw [World.object_add_nextId made]
  exact Object.isArrayOf_createdAll realm values (below.length_eq ▸ bound)

theorem represents_object {world : World} {realm : RealmId} (made : world.HasRealm realm)
    {members : List (Units × Tree)} {entries : List (Key × Value)}
    (below : RepresentsMembers world realm members entries) :
    Represents (world.add realm ((Object.plain realm).createdAll entries)) realm
      (.object members) (.object (world.nextId realm)) := by
  refine .object (World.has_add_nextId made _) ?_ (below.extend (World.extends_add world realm _))
  rw [World.object_add_nextId made]
  exact Object.isRecordOf_createdAll realm entries

/-! ### Planting -/

mutual

/-- A tree becomes a value, and the value represents the tree if the realm was made. -/
theorem plant_done (call : Caller) (realm : RealmId) (tree : Tree) (world : World) :
    ∃ value after, (plant call realm tree).outcome world = .done value after ∧
      after.Extends world ∧
      (world.HasRealm realm → tree.Fits → Represents after realm tree value) := by
  cases tree with
  | null => exact ⟨_, _, rfl, .refl world, fun _ _ => .null⟩
  | boolean flag => exact ⟨_, _, rfl, .refl world, fun _ _ => .boolean flag⟩
  | number value => exact ⟨_, _, rfl, .refl world, fun _ _ => .number value⟩
  | string units => exact ⟨_, _, rfl, .refl world, fun _ _ => .string units⟩
  | array elements =>
    obtain ⟨values, after, planted, extended, represented⟩ :=
      plantElements_done call realm elements world
    refine ⟨.object (after.nextId realm),
      after.add realm ((Object.emptyArray realm).createdAll (indexed values)), ?_,
      (World.extends_add after realm _).trans extended, ?_⟩
    · rw [plant, Run.outcome_bind_of_done planted,
        Run.outcome_bind_of_done (outcome_arrayOf call realm values after)]
      exact Run.outcome_pure _ _
    · intro made fits
      rw [Tree.Fits] at fits
      exact represents_array (extended.hasRealm realm made) (represented made fits.2) fits.1
  | object members =>
    obtain ⟨entries, after, planted, extended, represented⟩ :=
      plantMembers_done call realm members world
    refine ⟨.object (after.nextId realm),
      after.add realm ((Object.plain realm).createdAll entries), ?_,
      (World.extends_add after realm _).trans extended, ?_⟩
    · rw [plant, Run.outcome_bind_of_done planted,
        Run.outcome_bind_of_done (outcome_objectOf call realm entries after)]
      exact Run.outcome_pure _ _
    · intro made fits
      rw [Tree.Fits] at fits
      exact represents_object (extended.hasRealm realm made) (represented made fits)

theorem plantElements_done (call : Caller) (realm : RealmId) (elements : List Tree)
    (world : World) :
    ∃ values after, (plantElements call realm elements).outcome world = .done values after ∧
      after.Extends world ∧
      (world.HasRealm realm → ElementsFit elements →
        RepresentsElements after realm elements values) := by
  cases elements with
  | nil => exact ⟨_, _, rfl, .refl world, fun _ _ => .nil⟩
  | cons element rest =>
    obtain ⟨value, between, first, early, represented⟩ := plant_done call realm element world
    obtain ⟨values, after, others, late, representedRest⟩ :=
      plantElements_done call realm rest between
    refine ⟨value :: values, after, ?_, late.trans early, ?_⟩
    · rw [plantElements, Run.outcome_bind_of_done first, Run.outcome_bind_of_done others]
      exact Run.outcome_pure _ after
    · intro made fits
      rw [ElementsFit] at fits
      exact .cons ((represented made fits.1).extend late)
        (representedRest (early.hasRealm realm made) fits.2)

theorem plantMembers_done (call : Caller) (realm : RealmId) (members : List (Units × Tree))
    (world : World) :
    ∃ entries after, (plantMembers call realm members).outcome world = .done entries after ∧
      after.Extends world ∧
      (world.HasRealm realm → MembersFit members →
        RepresentsMembers after realm members entries) := by
  cases members with
  | nil => exact ⟨_, _, rfl, .refl world, fun _ _ => .nil⟩
  | cons member rest =>
    obtain ⟨key, tree⟩ := member
    obtain ⟨value, between, first, early, represented⟩ := plant_done call realm tree world
    obtain ⟨entries, after, others, late, representedRest⟩ :=
      plantMembers_done call realm rest between
    refine ⟨(.ofUnits key, value) :: entries, after, ?_, late.trans early, ?_⟩
    · rw [plantMembers, Run.outcome_bind_of_done first, Run.outcome_bind_of_done others]
      exact Run.outcome_pure _ after
    · intro made fits
      rw [MembersFit] at fits
      exact .cons (Key.units_ofUnits key) ((represented made fits.1).extend late)
        (representedRest (early.hasRealm realm made) fits.2)

end

/-! ### Parsing a tree that a text spells -/

/-- A text that spells a tree is parsed to a value that represents the tree, whatever the world
holds and however the text spells it; and what the world held is not touched. -/
theorem readValue_represents (call : Caller) {realm : RealmId} {text : Units} {tree : Tree}
    {world : World} (made : world.HasRealm realm) (spelled : Grammar.Document tree text)
    (shallow : tree.depth ≤ 512) (fits : tree.Fits) :
    ∃ value after, (readValue call realm text).outcome world = .done value after ∧
      after.Extends world ∧ Represents after realm tree value := by
  obtain ⟨value, after, planted, extended, represented⟩ := plant_done call realm tree world
  refine ⟨value, after, ?_, extended, represented made fits⟩
  rw [readValue, parse_ok_iff.mpr ⟨spelled, shallow⟩]
  exact planted

/-- A repeated key in another spelling, and a key that is an index. -/
theorem readValue_represents_repeated_key :
    ∃ value after,
      (readValue (fun _ _ _ _ => .cutOff) 0
        (unitsOf " \x7b\"b\":[true],\"0\":null,\"\\u0062\" : \"x\"\x7d")).outcome (World.fresh 1) =
          .done value after ∧
      after.Extends (World.fresh 1) ∧
      Represents after 0
        (.object [(unitsOf "b", .array [.boolean true]), (unitsOf "0", .null),
          (unitsOf "b", .string (unitsOf "x"))]) value :=
  readValue_represents _ Nat.zero_lt_one (parse_ok_iff.mp (by cbv)).1 (by decide)
    (by simp [Tree.Fits, MembersFit, ElementsFit, maxLength])

end EcmaCore.Json
