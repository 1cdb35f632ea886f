/-
This file proves that all objects list their keys by age over whole runs: the array indices
first and in ascending order, and then the other keys in the order in which they were last
created. What a run does to a world it does in single changes, and each of them changes the
keys of an object in one of few ways; only putting an object back to an earlier state would
change them in another.

The functions that enumerate the properties of an object take its keys in this order.
-/

import EcmaCore.Proofs.Discipline.Calls
import EcmaCore.Proofs.Engine.Asking
import EcmaCore.Proofs.Engine.Making
import EcmaCore.Proofs.Json.Visiting
import EcmaCore.Proofs.Object.Ages
import EcmaCore.Proofs.World.Fresh

namespace EcmaCore

/-- The operations that put no object back to an earlier state. -/
def RestoresNothing : Permission
  | _, .checkMap _ => False
  | _, .hold _ _ => False
  | _, .release _ => False
  | _, _ => True

/-- Of two worlds that follow on each other, every object of the second has come from the first by
one change of its keys. -/
def turnRule : Rule where
  holds _ := True
  allows _ _ := True
  refl _ := trivial
  trans _ _ := trivial
  single before after := ∀ id, (before.object id).Turns (after.object id)
  allows_of_single _ := trivial

theorem turnRule_moves {before after : World}
    (turns : ∀ id, (before.object id).Turns (after.object id)) : turnRule.Moves before after :=
  ⟨trivial, turns⟩

theorem Object.Turns.refl (object : Object) : object.Turns object := .of_same rfl

/-- Every way in which the engine changes a world, but putting back, changes the keys of each object
at most once. -/
def turnDiscipline : Discipline where
  rule := turnRule
  permits := RestoresNothing
  asked _ _ := True
  asked_of_lawful _ := trivial
  asked_of_define _ := trivial
  asked_of_defineOrThrow _ := trivial
  asked_of_allows _ _ := trivial
  quiet _ objects _ _ _ := turnRule_moves (World.related_of_sameObjects .refl objects)
  add _ _ := turnRule_moves (World.related_add .refl (.made rfl))
  step _ step := turnRule_moves (World.related_modifyObject .refl step.turns)
  make _ _ := turnRule_moves (World.related_add .refl (.made rfl))
  hold impossible := impossible.elim
  release impossible := impossible.elim
  setExtensible _ _ := turnRule_moves (World.related_modifyObject .refl (.of_same rfl))
  setPrototype _ _ := turnRule_moves (World.related_modifyObject .refl (.of_same rfl))
  restore impossible := impossible.elim

/-- At every point of a run every object lists its keys by age. -/
theorem Program.listsByAge {program : Program} {world : World}
    (obeys : program.Obeys RestoresNothing) (hosts : world.HostsObey RestoresNothing) (depth : Nat)
    {earlier later : List World} {reached : World}
    (passes : (program.run (callWithin depth)).worlds world = earlier ++ reached :: later)
    (id : ObjectId) :
    (reached.object id).ListsByAge ((reached :: earlier.reverse).map (·.object id)) := by
  have chain := (Program.follows turnDiscipline obeys hosts trivial depth).isChain
  rw [passes, List.isChain_split] at chain
  have turns : List.IsChain (fun later earlier : Object => earlier.Turns later)
      ((reached :: earlier.reverse).map (·.object id)) := by
    rw [List.isChain_map, ← List.reverse_concat, List.isChain_reverse]
    exact chain.1.imp fun _ _ single => single id
  exact Object.listsByAge turns

/-! ### Enumerations -/

/-- The array has the enumerable own keys of the object as its elements, in the order in which the
object lists them. -/
structure Object.Enumerates (realm : RealmId) (object array : Object) : Prop where
  element : ∀ index key, (object.ownKeys.filter object.isEnumerable)[index]? = some key →
    array.own? (.ofIndex index) = some (.plain (.string key.units))
  whole : (object.ownKeys.filter object.isEnumerable).length ≤ maxLength →
    array.IsArrayOf realm
      ((object.ownKeys.filter object.isEnumerable).map fun key => .string key.units)

/-- The own keys of a value are those of the object that it is or is boxed as. -/
theorem keysOf_enumerates (call : Caller) {realm : RealmId} {value : Value} {world middle : World}
    {id : ObjectId} (boxed : (toObject realm value).outcome world = .done id middle)
    (made : middle.HasRealm realm) :
    ∃ result after, (keysOf call realm value).outcome world = .done result after ∧
      (middle.object id).Enumerates realm (after.object result) := by
  obtain ⟨values, same⟩ : ∃ values, values =
      (middle.object id).enumerableKeys.map fun key => Value.string key.units := ⟨_, rfl⟩
  have ends : (keysOf call realm value).outcome world = .done (middle.nextId realm)
      (middle.add realm ((Object.emptyArray realm).createdAll (indexed values))) := by
    rw [keysOf, Run.outcome_bind_of_done boxed,
      Run.outcome_bind_of_done (Run.outcome_object id middle), same]
    exact outcome_arrayOf call realm _ middle
  refine ⟨_, _, ends, ?_⟩
  rw [World.object_add_nextId made]
  constructor
  · intro index key listed
    have found : values[index]? = some (.string key.units) := by
      rw [same, List.getElem?_map]
      exact congrArg (Option.map _) listed
    obtain ⟨inside, element⟩ := List.getElem?_eq_some_iff.mp found
    rw [Object.own?_createdAll_indexed _ values index inside, element]
  · intro bound
    have few : values.length ≤ maxLength := by
      rw [same, List.length_map]
      exact bound
    have array := Object.isArrayOf_createdAll realm values few
    rw [same] at array ⊢
    exact array

/-- At every point of the run of a program that puts nothing back to an earlier state, with all
calls that it makes and all scripts that these enter again, every object lists each of its own keys
once and no other: first the array indices, in ascending order, and then the other keys in the order
in which they were last created, as the states show it that the object has been in since the start.
The array of the keys of an object has the enumerable ones in the order of this list. The text of an
object that is converted to JSON by its properties has come from the keys in the order of the list,
and so has what is said about each such object that occurs inside of others. -/
theorem Program.keys_listed_by_age :
    (∀ (program : Program) (world : World) (depth : Nat), program.Obeys RestoresNothing →
      world.HostsObey RestoresNothing → ∀ (earlier later : List World) (reached : World),
      (program.run (callWithin depth)).worlds world = earlier ++ reached :: later →
      ∀ id, (reached.object id).ListsByAge ((reached :: earlier.reverse).map (·.object id))) ∧
    (∀ (call : Caller) (realm : RealmId) (value : Value) (world middle : World) (id : ObjectId),
      (toObject realm value).outcome world = .done id middle → middle.HasRealm realm →
      ∃ result after, (keysOf call realm value).outcome world = .done result after ∧
        (middle.object id).Enumerates realm (after.object result)) ∧
    ∀ (call : Caller) (realm : RealmId) (value : Value) (world middle after : World)
      (id : ObjectId),
      (Json.replacement call realm value).outcome world = .done (.object id) middle →
      middle.isCallable (.object id) = false → (middle.object id).isArray = false →
      (∀ text, (Json.stringify call realm value).outcome world = .done text after →
        ∃ inside tree, text = some tree.compact ∧
          Json.ToldInOrder call realm (Json.treeWithin call realm inside [id]) id middle tree
            after) ∧
      ∀ (room : Nat) (enclosing : List ObjectId) (told : Option Json.Tree),
        (Json.treeWithin call realm room enclosing value).outcome world = .done told after →
        ∃ inside tree, room = inside + 1 ∧ told = some tree ∧
          Json.ToldInOrder call realm (Json.treeWithin call realm inside (id :: enclosing)) id
            middle tree after := by
  refine ⟨fun program world depth obeys hosts earlier later reached passes id =>
    Program.listsByAge obeys hosts depth passes id, ?_, ?_⟩
  · intro call realm value world middle id boxed made
    exact keysOf_enumerates call boxed made
  · intro call realm value world middle after id stands noFunction noArray
    refine ⟨fun text ended => ?_, fun room enclosing told ended =>
      Json.toldInOrder_treeWithin ended stands noFunction noArray⟩
    obtain ⟨told, last, converted, same⟩ := Run.exists_of_outcome_bind ended
    cases same
    obtain ⟨inside, tree, -, rfl, inOrder⟩ :=
      Json.toldInOrder_treeWithin converted stands noFunction noArray
    exact ⟨inside, tree, rfl, inOrder⟩

/-- A world with an object that has three keys. -/
def listedWorld : World :=
  (World.fresh 1).add 0 ((Object.plain 0).createdAll
    [(.text "b", .null), (.ofIndex 1, .null), (.text "a", .null)])

/-- The object of the three keys. -/
abbrev listedObject : ObjectId := (World.fresh 1).nextId 0

/-- The first key is deleted and created again. -/
def recreation : Program :=
  .perform 0 (.delete listedObject (.text "b")) fun _ =>
  .perform 0 (.create listedObject (.text "b") .null) fun _ =>
  .finish .undefined

/-- The world in which this ends. -/
def recreatedWorld : World :=
  ((recreation.run (callWithin 1)).outcome listedWorld).last?.getD listedWorld

/-- The index is listed first, and the key that came back is listed last. -/
theorem Program.keys_listed_by_age_after_recreation :
    (recreatedWorld.object listedObject).ownKeys = [.ofIndex 1, .text "a", .text "b"] ∧
      (∃ earlier later,
        (recreation.run (callWithin 1)).worlds listedWorld = earlier ++ recreatedWorld :: later ∧
        (recreatedWorld.object listedObject).ListsByAge
          ((recreatedWorld :: earlier.reverse).map (·.object listedObject))) ∧
      (∃ result after, (keysOf (callWithin 1) 0 (.object listedObject)).outcome recreatedWorld =
          .done result after ∧
        (recreatedWorld.object listedObject).Enumerates 0 (after.object result)) ∧
      ∃ text tree inside after,
        (Json.stringify (callWithin 1) 0 (.object listedObject)).outcome recreatedWorld =
          .done (some text) after ∧
        text = tree.compact ∧
        Json.ToldInOrder (callWithin 1) 0
          (Json.treeWithin (callWithin 1) 0 inside [listedObject]) listedObject recreatedWorld tree
          after := by
  obtain ⟨aged, listed, json⟩ := Program.keys_listed_by_age
  have hosts : listedWorld.HostsObey RestoresNothing :=
    (World.hostsObey_fresh RestoresNothing 1).add fun _ present => nomatch present
  have value : ((recreation.run (callWithin 1)).outcome listedWorld).value? = some .undefined := by
    decide +kernel
  obtain ⟨last, ended⟩ := Outcome.exists_of_value? value
  have isLast : last = recreatedWorld := by rw [recreatedWorld, ended]; rfl
  obtain ⟨earlier, later, passes⟩ := List.append_of_mem (Run.mem_worlds_of_done (isLast ▸ ended))
  have made : 0 < recreatedWorld.realms.size := by decide +kernel
  have written : ((Json.stringify (callWithin 1) 0 (.object listedObject)).outcome
      recreatedWorld).value? =
        some (some (unitsOf "\x7b\"1\":null,\"a\":null,\"b\":null\x7d")) := by
    decide +kernel
  obtain ⟨after, text⟩ := Outcome.exists_of_value? written
  have inert : recreatedWorld.Inert listedObject :=
    ⟨.undefined, by decide +kernel, by decide +kernel⟩
  obtain ⟨inside, tree, same, inOrder⟩ := (json _ _ _ _ _ after _
    (Json.outcome_replacement (callWithin 1) 0 inert) (by decide +kernel) (by decide +kernel)).1 _
    text
  refine ⟨by decide +kernel, ⟨earlier, later, passes, ?_⟩, listed _ _ _ _ _ _ rfl made,
    _, tree, inside, after, text, Option.some.inj same, inOrder⟩
  exact aged recreation listedWorld 1 ⟨trivial, fun _ => ⟨trivial, fun _ => trivial⟩⟩ hosts _ _ _
    passes listedObject

end EcmaCore
