/-
This file proves the round trip through text: a value that is written and parsed again is
copied, up to what JSON has no way to say. The value may be any graph of plain objects and
arrays without a cycle, with sharing and with functions among its leaves, as long as reading
it calls nothing: all properties are data, and nothing that stands under `toJSON` can be
called.

Such a value tells a tree. The same induction that finds the tree says what an object must
look like that is planted for it, so the copy is compared with the value part by part. That
the text says the tree again, up to the sign of zeros, does not depend on the value.
-/

import EcmaCore.Proofs.Json.Canonical
import EcmaCore.Proofs.Json.Sharing
import EcmaCore.Proofs.Object.Arrays

namespace EcmaCore

/-! ### Values that are copied -/

/-- The value of an own data property, undefined if there is none. -/
def Object.content (object : Object) (key : Key) : Value :=
  match object.own? key with
  | some (.data value _ _ _) => value
  | _ => .undefined

/-- All own properties are data. -/
def Object.DataOnly (object : Object) : Prop :=
  ∀ key property, object.own? key = some property → property.isAccessor = false

instance (object : Object) : Decidable object.DataOnly :=
  decidable_of_iff (∀ key ∈ object.ownKeys, (object.own? key).any Property.isAccessor = false) <| by
    constructor
    · intro listed key property slot
      have data := listed key (Object.mem_ownKeys.mpr (by rw [slot]; rfl))
      rwa [slot] at data
    · intro data key _
      cases slot : object.own? key with
      | none => rfl
      | some property => exact data key property slot

namespace World

/-- JSON can say the value: it is neither undefined nor a function. -/
def writes (world : World) (value : Value) : Bool :=
  value != .undefined && !world.isCallable value

/-- The keys of the members that JSON can say, in the order of listing. -/
def writtenKeys (world : World) (id : ObjectId) : List Key :=
  (world.object id).enumerableKeys.filter fun key => world.writes ((world.object id).content key)

/-- Neither the prototype of objects nor that of arrays has a property `toJSON`, and that of arrays
has no elements. -/
structure Unhooked (world : World) (realm : RealmId) : Prop extends world.WithoutToJson realm where
  noElement : ∀ index ≤ maxArrayIndex,
    world.search (Intrinsic.arrayPrototype.id realm) (.ofIndex index) = .absent

/-- In a realm whose prototypes stand in their usual chain it is enough to look at what they own. -/
theorem unhooked_of_chain {world : World} {realm : RealmId}
    (next : (world.object (Intrinsic.arrayPrototype.id realm)).prototype =
      some (Intrinsic.objectPrototype.id realm))
    (last : (world.object (Intrinsic.objectPrototype.id realm)).prototype = none)
    (noMethod : ∀ which ∈ [Intrinsic.objectPrototype, .arrayPrototype],
      (world.object (which.id realm)).own? (.text "toJSON") = none)
    (noIndex : ∀ which ∈ [Intrinsic.objectPrototype, .arrayPrototype],
      (world.object (which.id realm)).indices = []) : world.Unhooked realm := by
  have inherited : ∀ key, (∀ which ∈ [Intrinsic.objectPrototype, .arrayPrototype],
      (world.object (which.id realm)).own? key = none) →
      world.search (Intrinsic.objectPrototype.id realm) key = .absent ∧
        world.search (Intrinsic.arrayPrototype.id realm) key = .absent := by
    intro key missing
    have absent := search_of_end (missing .objectPrototype (by decide)) last
    refine ⟨absent, ?_⟩
    rw [search_of_prototype (missing .arrayPrototype (by decide)) next
      (by rw [absent]; exact nofun), absent]
  refine ⟨⟨(inherited _ noMethod).1, (inherited _ noMethod).2⟩, fun index small => ?_⟩
  refine (inherited _ fun which member => Option.not_isSome_iff_eq_none.mp fun owned => ?_).2
  have listed := Object.mem_indices.mpr ⟨small, owned⟩
  rw [noIndex which member] at listed
  exact absurd listed List.not_mem_nil

/-- The object is a container of data with an intrinsic as its prototype: it cannot be called, all
its properties are data, and its own `toJSON`, if any, cannot be called. -/
structure Tame (world : World) (realm : RealmId) (prototype : Intrinsic) (id : ObjectId) :
    Prop where
  plain : world.isCallable (.object id) = false
  prototype : (world.object id).prototype = some (prototype.id realm)
  data : (world.object id).DataOnly
  noMethod : world.isCallable ((world.object id).content (.text "toJSON")) = false

end World

namespace Json

/-- The value is a graph of arrays and objects that nest at most as deep as its rank. Its strings
and the keys of its members are well formed. -/
inductive Portable (world : World) (realm : RealmId) : Nat → Value → Prop
  | undefined (rank : Nat) : Portable world realm rank .undefined
  | null (rank : Nat) : Portable world realm rank .null
  | boolean (rank : Nat) (flag : Bool) : Portable world realm rank (.boolean flag)
  | number (rank : Nat) (number : Number) : Portable world realm rank (.number number)
  | string (rank : Nat) {units : Units} (wellFormed : WellFormed units) :
      Portable world realm rank (.string units)
  | function (rank : Nat) {id : ObjectId} (callable : world.isCallable (.object id) = true)
      (inert : world.Inert id) : Portable world realm rank (.object id)
  | array {rank : Nat} {id : ObjectId} (wellFormed : (world.object id).WellFormedArray)
      (tame : world.Tame realm .arrayPrototype id)
      (below : ∀ index < (world.object id).arrayLength,
        Portable world realm rank ((world.object id).content (.ofIndex index))) :
      Portable world realm (rank + 1) (.object id)
  | object {rank : Nat} {id : ObjectId} (kind : (world.object id).kind = .ordinary)
      (tame : world.Tame realm .objectPrototype id)
      (wellFormed : ∀ key ∈ (world.object id).enumerableKeys, WellFormed key.units)
      (below : ∀ key ∈ (world.object id).enumerableKeys,
        Portable world realm rank ((world.object id).content key)) :
      Portable world realm (rank + 1) (.object id)

/-! ### Copies -/

/-- A value of a later world is the copy of a value of an earlier one, with new objects of a realm.
A number that is not finite becomes null, and a zero positive. An array has null for each hole and
each element that JSON cannot say, and no property but its elements and its length; an object has
the members that JSON can say, in the same order. -/
inductive Copies (before after : World) (realm : RealmId) : Value → Value → Prop
  | null : Copies before after realm .null .null
  | boolean (flag : Bool) : Copies before after realm (.boolean flag) (.boolean flag)
  | finite {number : Number} (finite : number.isFinite = true) :
      Copies before after realm (.number number) (.number number.settled)
  | notFinite {number : Number} (notFinite : number.isFinite = false) :
      Copies before after realm (.number number) .null
  | string (units : Units) : Copies before after realm (.string units) (.string units)
  | array {id copy : ObjectId} {values : List Value}
      (isArray : (before.object id).isArray = true) (made : after.Has copy)
      (new : ¬ before.Has copy) (plain : after.isCallable (.object copy) = false)
      (shape : (after.object copy).IsArrayOf realm values)
      (length : values.length = (before.object id).arrayLength)
      (written : ∀ index, (inside : index < values.length) →
        before.writes ((before.object id).content (.ofIndex index)) = true →
          Copies before after realm ((before.object id).content (.ofIndex index)) values[index])
      (erased : ∀ index, (inside : index < values.length) →
        before.writes ((before.object id).content (.ofIndex index)) = false →
          values[index] = .null) :
      Copies before after realm (.object id) (.object copy)
  | object {id copy : ObjectId} {copied : Key → Value}
      (kind : (before.object id).kind = .ordinary) (made : after.Has copy)
      (new : ¬ before.Has copy) (plain : after.isCallable (.object copy) = false)
      (copyKind : (after.object copy).kind = .ordinary)
      (prototype : (after.object copy).prototype = some (Intrinsic.objectPrototype.id realm))
      (extensible : (after.object copy).extensible = true)
      (listed : (after.object copy).ownKeys = before.writtenKeys id)
      (own : ∀ key ∈ before.writtenKeys id,
        (after.object copy).own? key = some (.plain (copied key)))
      (written : ∀ key ∈ before.writtenKeys id,
        Copies before after realm ((before.object id).content key) (copied key)) :
      Copies before after realm (.object id) (.object copy)

/-! ### The tree of a value -/

/-- A value tells a tree exactly if JSON can say the value, and what is planted for the tree, where
the world has nothing yet, is a copy of the value. -/
structure Pictured (world : World) (target : RealmId) (rank : Nat) (value : Value)
    (tree : Option Tree) : Prop where
  tells : Tells world rank value tree
  written : tree.isSome = world.writes value
  fits : ∀ picture ∈ tree, picture.settled.Fits
  copies : ∀ picture ∈ tree, ∀ after first last copy, world.nextSlot target ≤ first →
    Stands after target first last picture.settled copy → Copies world after target value copy

variable {world : World} {realm target : RealmId} {id : ObjectId}

theorem shown?_content_of_own (data : (world.object id).DataOnly) {key : Key} {property : Property}
    (slot : (world.object id).own? key = some property) :
    world.shown? id key = some ((world.object id).content key) := by
  rw [Object.content, slot]
  cases property with
  | data value writable enumerable configurable => exact shown?_of_own? slot
  | accessor =>
    have noAccessor := data key _ slot
    cases noAccessor

/-- A data property shows its value, and so does one that is nowhere. -/
theorem shown?_content {which : Intrinsic} (tame : world.Tame realm which id) {key : Key}
    (absent : world.search (which.id realm) key = .absent) :
    world.shown? id key = some ((world.object id).content key) := by
  cases slot : (world.object id).own? key with
  | none =>
    rw [Object.content, slot]
    exact shown?_of_prototype slot tame.prototype absent
  | some property => exact shown?_content_of_own tame.data slot

theorem not_has_of_nextSlot_le {place : Nat} (free : world.nextSlot target ≤ place) :
    ¬ world.Has ⟨target, place⟩ := Nat.not_lt.mpr free

theorem writes_object (plain : world.isCallable (.object id) = false) :
    world.writes (.object id) = true := by
  rw [World.writes, plain]
  rfl

theorem inert_of_tame {which : Intrinsic} (tame : world.Tame realm which id)
    (absent : world.search (which.id realm) (.text "toJSON") = .absent) : world.Inert id :=
  ⟨_, shown?_content tame absent, tame.noMethod⟩

/-- What is planted for a part of a container is a copy, or null where JSON cannot say the part. -/
theorem Pictured.copies_part {rank : Nat} {value copy : Value} {tree : Option Tree}
    (pictured : Pictured world target rank value tree) {after : World} {first last : Nat}
    (free : world.nextSlot target ≤ first)
    (stands : Stands after target first last (tree.getD .null).settled copy) :
    (world.writes value = true → Copies world after target value copy) ∧
      (world.writes value = false → copy = .null) := by
  rw [← pictured.written]
  cases tree with
  | none =>
    refine ⟨nofun, fun _ => ?_⟩
    cases stands
    rfl
  | some tree => exact ⟨fun _ => pictured.copies tree rfl after first last copy free stands, nofun⟩

section Arrays

variable {rank : Nat} {trees : Nat → Option Tree}

/-- The length that an array shows is that of the array. -/
theorem exists_length_of_wellFormed (wellFormed : (world.object id).WellFormedArray) :
    ∃ number, world.shown? id .length = some (.number number) ∧
      number.toLength = (world.object id).arrayLength ∧
      (world.object id).arrayLength ≤ maxLength := by
  obtain ⟨length, bound, hasLength, _⟩ := wellFormed.length
  have counted := hasLength.arrayLength bound
  obtain ⟨number, writable, slot, whole⟩ := hasLength
  refine ⟨number, shown?_of_own? slot, ?_, counted ▸ bound⟩
  rw [counted, Number.toLength_of_integer? whole]
  exact Nat.min_eq_left (Nat.le_trans bound (by decide))

theorem copies_array (isArray : (world.object id).isArray = true)
    (bound : (world.object id).arrayLength ≤ maxLength)
    (below : ∀ index < (world.object id).arrayLength,
      Pictured world target rank ((world.object id).content (.ofIndex index)) (trees index))
    {after : World} {first last : Nat} {copy : Value} (free : world.nextSlot target ≤ first)
    (stands : Stands after target first last
      (.array ((List.range (world.object id).arrayLength).map fun index =>
        ((trees index).getD .null).settled)) copy) :
    Copies world after target (.object id) copy := by
  have plain := stands.isCallable_eq_false
  cases stands with
  | @array _ place _ values consecutive made object =>
    have length : values.length = (world.object id).arrayLength := by
      rw [consecutive.length_eq, List.length_map, List.length_range]
    have new := not_has_of_nextSlot_le (Nat.le_trans free consecutive.forward)
    have shape : (after.object ⟨target, place⟩).IsArrayOf target values :=
      object ▸ Object.isArrayOf_createdAll target values (length ▸ bound)
    have part : ∀ index, (inside : index < values.length) →
        (world.writes ((world.object id).content (.ofIndex index)) = true →
          Copies world after target ((world.object id).content (.ofIndex index)) values[index]) ∧
        (world.writes ((world.object id).content (.ofIndex index)) = false →
          values[index] = .null) := by
      intro index inside
      obtain ⟨tree, same, start, stop, stand, later, _⟩ :=
        consecutive.part (List.getElem?_eq_getElem inside)
      rw [List.getElem?_map, List.getElem?_range (length ▸ inside)] at same
      cases same
      exact (below index (length ▸ inside)).copies_part (Nat.le_trans free later) stand
    exact .array isArray made new plain shape length (fun index inside => (part index inside).1)
      fun index inside => (part index inside).2

theorem pictured_array (unhooked : world.Unhooked realm)
    (wellFormed : (world.object id).WellFormedArray)
    (tame : world.Tame realm .arrayPrototype id)
    (below : ∀ index < (world.object id).arrayLength,
      Pictured world target rank ((world.object id).content (.ofIndex index)) (trees index)) :
    Pictured world target (rank + 1) (.object id)
      (some (.array ((List.range (world.object id).arrayLength).map fun index =>
        (trees index).getD .null))) := by
  obtain ⟨number, shownLength, counted, bound⟩ := exists_length_of_wellFormed wellFormed
  constructor
  case tells =>
    have shown : ∀ index < number.toLength, world.shown? id (.ofIndex index) =
        some ((world.object id).content (.ofIndex index)) := by
      intro index inside
      rw [counted] at inside
      refine shown?_content tame (unhooked.noElement index ?_)
      exact Nat.le_of_lt_succ (Nat.lt_of_lt_of_le inside bound)
    have tells := Tells.array (inert_of_tame tame unhooked.array) tame.plain wellFormed.isArray
      shownLength shown fun index inside => (below index (counted ▸ inside)).tells
    rwa [counted] at tells
  case written => rw [writes_object tame.plain]; rfl
  case fits =>
    rintro picture ⟨⟩
    rw [Tree.settled, elementsSettled_eq_map, Tree.Fits, List.length_map, List.length_map,
      List.length_range]
    refine ⟨bound, elementsFit_iff.mpr ?_⟩
    simp only [List.forall_mem_map, List.mem_range]
    intro index inside
    cases told : trees index with
    | none => trivial
    | some tree => exact (below index inside).fits tree told
  case copies =>
    rintro picture ⟨⟩ after first last copy free stands
    rw [Tree.settled, elementsSettled_eq_map, List.map_map] at stands
    exact copies_array wellFormed.isArray bound below free stands

end Arrays

section Objects

variable {rank : Nat} {trees : Key → Option Tree}

theorem inOrder_writtenKeys (world : World) (id : ObjectId) :
    Key.InOrder (world.writtenKeys id) :=
  ((world.object id).inOrder_ownKeys.filter _).filter _

theorem mem_enumerableKeys_of_written {key : Key} (member : key ∈ world.writtenKeys id) :
    key ∈ (world.object id).enumerableKeys := (List.mem_filter.mp member).1

/-- The members that conversion writes are those that JSON can say, as far as their names stay
apart. -/
theorem mergedMembers_writtenKeys (written : ∀ key ∈ (world.object id).enumerableKeys,
      (trees key).isSome = world.writes ((world.object id).content key)) :
    mergedMembers ((world.object id).enumerableKeys.map fun key =>
        (trees key).map fun tree => (repaired key.units, tree)) =
      mergedMembers (((world.writtenKeys id).map fun key =>
        (repaired key.units, (trees key).getD .null)).map some) := by
  have each : ∀ key ∈ (world.object id).enumerableKeys,
      ((trees key).map fun tree => (repaired key.units, tree)) =
        if world.writes ((world.object id).content key) then
          some (repaired key.units, (trees key).getD .null) else none := by
    intro key member
    rw [← written key member]
    cases trees key <;> rfl
  rw [List.map_congr_left each, mergedMembers_filter, List.map_map]
  rfl

theorem nodup_units_writtenKeys (world : World) (id : ObjectId) :
    ((world.writtenKeys id).map Key.units).Nodup := by
  refine (inOrder_writtenKeys world id).nodup.map fun first second same => ?_
  rw [← Key.ofUnits_units first, ← Key.ofUnits_units second, same]

/-- Names without a lone surrogate stay apart, each with a member of its own. -/
theorem mergedMembers_written (wellFormed : ∀ key ∈ (world.object id).enumerableKeys,
      WellFormed key.units)
    (written : ∀ key ∈ (world.object id).enumerableKeys,
      (trees key).isSome = world.writes ((world.object id).content key)) :
    mergedMembers ((world.object id).enumerableKeys.map fun key =>
        (trees key).map fun tree => (repaired key.units, tree)) =
      (world.writtenKeys id).map fun key => (key.units, (trees key).getD .null) := by
  have unchanged : ((world.writtenKeys id).map fun key =>
      (repaired key.units, (trees key).getD .null)) =
        (world.writtenKeys id).map fun key => (key.units, (trees key).getD .null) :=
    List.map_congr_left fun key member => by
      rw [repaired_of_wellFormed (wellFormed key (mem_enumerableKeys_of_written member))]
  rw [mergedMembers_writtenKeys written, unchanged, mergedMembers_of_nodup]
  rw [List.map_map]
  exact nodup_units_writtenKeys world id

theorem copies_object (kind : (world.object id).kind = .ordinary)
    (below : ∀ key ∈ (world.object id).enumerableKeys,
      Pictured world target rank ((world.object id).content key) (trees key))
    {after : World} {first last : Nat} {copy : Value} (free : world.nextSlot target ≤ first)
    (stands : Stands after target first last
      (.object ((world.writtenKeys id).map fun key =>
        (key.units, ((trees key).getD .null).settled))) copy) :
    Copies world after target (.object id) copy := by
  have plain := stands.isCallable_eq_false
  cases stands with
  | @object _ place _ entries names consecutive made object =>
    have new := not_has_of_nextSlot_le (Nat.le_trans free consecutive.forward)
    have shape : (after.object ⟨target, place⟩).IsRecordOf target entries :=
      object ▸ Object.isRecordOf_createdAll target entries
    have keys : entries.map Prod.fst = world.writtenKeys id := by
      rw [names, List.map_map]
      exact (List.map_congr_left fun key _ => Key.ofUnits_units key).trans (List.map_id' _)
    have ordered : Key.InOrder (entries.map Prod.fst) := keys ▸ inOrder_writtenKeys world id
    have entryOf : ∀ key ∈ world.writtenKeys id, ∃ value, (key, value) ∈ entries ∧
        ∃ start stop, first ≤ start ∧
          Stands after target start stop ((trees key).getD .null).settled value := by
      intro key member
      rw [← keys] at member
      obtain ⟨entry, present, rfl⟩ := List.mem_map.mp member
      obtain ⟨index, inside, rfl⟩ := List.getElem_of_mem present
      have here : (entries.map Prod.snd)[index]? = some entries[index].2 := by
        rw [List.getElem?_map, List.getElem?_eq_getElem inside, Option.map_some]
      obtain ⟨tree, same, start, stop, stand, later, _⟩ := consecutive.part here
      rw [List.map_map, ← keys, List.map_map, List.getElem?_map,
        List.getElem?_eq_getElem inside] at same
      cases same
      exact ⟨entries[index].2, present, start, stop, later, stand⟩
    have own : ∀ key ∈ world.writtenKeys id, (after.object ⟨target, place⟩).own? key =
        some (.plain ((lastValue? key entries).getD .undefined)) := by
      intro key member
      obtain ⟨value, present, _⟩ := entryOf key member
      rw [Object.lastValue?_of_mem ordered.nodup present]
      exact shape.own_of_mem ordered.nodup present
    have written : ∀ key ∈ world.writtenKeys id, Copies world after target
        ((world.object id).content key) ((lastValue? key entries).getD .undefined) := by
      intro key member
      obtain ⟨value, present, start, stop, later, stand⟩ := entryOf key member
      rw [Object.lastValue?_of_mem ordered.nodup present]
      exact ((below key (mem_enumerableKeys_of_written member)).copies_part
        (Nat.le_trans free later) stand).1 (List.mem_filter.mp member).2
    exact .object kind made new plain shape.kind shape.prototype shape.extensible
      ((shape.ownKeys_eq ordered).trans keys) own written

theorem pictured_object (unhooked : world.Unhooked realm)
    (kind : (world.object id).kind = .ordinary) (tame : world.Tame realm .objectPrototype id)
    (wellFormed : ∀ key ∈ (world.object id).enumerableKeys, WellFormed key.units)
    (below : ∀ key ∈ (world.object id).enumerableKeys,
      Pictured world target rank ((world.object id).content key) (trees key)) :
    Pictured world target (rank + 1) (.object id)
      (some (.object ((world.writtenKeys id).map fun key =>
        (key.units, (trees key).getD .null)))) := by
  constructor
  case tells =>
    have noArray : world.isArray (.object id) = false := by
      rw [World.isArray, Object.isArray, kind]
      rfl
    have shown : ∀ key ∈ (world.object id).enumerableKeys, world.shown? id key =
        some ((world.object id).content key) := by
      intro key member
      have owned := Object.mem_ownKeys.mp (List.mem_filter.mp member).1
      obtain ⟨property, slot⟩ := Option.isSome_iff_exists.mp owned
      exact shown?_content_of_own tame.data slot
    have tells := Tells.object (inert_of_tame tame unhooked.object) tame.plain noArray shown
      fun key member => (below key member).tells
    rwa [mergedMembers_written wellFormed fun key member => (below key member).written] at tells
  case written => rw [writes_object tame.plain]; rfl
  case fits =>
    rintro picture ⟨⟩
    rw [Tree.settled, membersSettled_eq_map, Tree.Fits, membersFit_iff]
    simp only [List.forall_mem_map]
    intro key member
    have pictured := below key (mem_enumerableKeys_of_written member)
    cases told : trees key with
    | none => trivial
    | some tree => exact pictured.fits tree told
  case copies =>
    rintro picture ⟨⟩ after first last copy free stands
    rw [Tree.settled, membersSettled_eq_map, List.map_map] at stands
    exact copies_object kind below free stands

end Objects

/-- A portable value has a tree that pictures it. -/
theorem Portable.exists_pictured (unhooked : world.Unhooked realm) (target : RealmId) {rank : Nat}
    {value : Value} (portable : Portable world realm rank value) :
    ∃ tree, Pictured world target rank value tree := by
  induction portable with
  | undefined rank => exact ⟨none, .undefined rank, rfl, nofun, nofun⟩
  | null rank =>
    refine ⟨some .null, .null rank, rfl, ?_, ?_⟩
    · rintro picture ⟨⟩
      trivial
    · rintro picture ⟨⟩ after first last copy free stands
      cases stands
      exact .null
  | boolean rank flag =>
    refine ⟨some (.boolean flag), .boolean rank flag, rfl, ?_, ?_⟩
    · rintro picture ⟨⟩
      trivial
    · rintro picture ⟨⟩ after first last copy free stands
      cases stands
      exact .boolean flag
  | number rank number =>
    refine ⟨some (.ofNumber number), .number rank number, rfl, ?_, ?_⟩
    · rintro picture ⟨⟩
      unfold Tree.ofNumber
      split <;> trivial
    · rintro picture ⟨⟩ after first last copy free stands
      unfold Tree.ofNumber at stands
      split at stands
      · rename_i finite
        cases stands
        exact .finite finite
      · rename_i notFinite
        cases stands
        exact .notFinite (Bool.eq_false_iff.mpr notFinite)
  | @string rank units wellFormed =>
    refine ⟨_, .string rank units, rfl, ?_, ?_⟩
    · rintro picture ⟨⟩
      trivial
    · rintro picture ⟨⟩ after first last copy free stands
      rw [repaired_of_wellFormed wellFormed] at stands
      cases stands
      exact .string units
  | function rank callable inert =>
    refine ⟨none, .function rank inert callable, ?_, nofun, nofun⟩
    rw [World.writes, callable]
    rfl
  | array wellFormed tame below inductionHypothesis =>
    choose! trees pictured using inductionHypothesis
    exact ⟨_, pictured_array unhooked wellFormed tame pictured⟩
  | object kind tame wellFormed below inductionHypothesis =>
    choose! trees pictured using inductionHypothesis
    exact ⟨_, pictured_object unhooked kind tame wellFormed pictured⟩

/-! ### The round trip -/

/-- A tree that a value tells is one that conversion makes. -/
theorem Tells.sound {rank : Nat} {value : Value} {tree : Tree}
    (tells : Tells world rank value (some tree)) {room : Nat} (atMost : rank ≤ room) :
    Sound room tree := by
  have converts := (converts_treeWithin (fun _ _ _ _ => Run.cutOff) 0 room [] value).follows world
    trivial
  have outermost : ∀ other ∈ ([] : List ObjectId), ∀ told,
      ¬ Tells world rank (.object other) told := fun _ member => absurd member List.not_mem_nil
  exact converts.goal_of_done (tells.outcome_treeWithin _ 0 atMost outermost) tree rfl

/-- A value that JSON can say and that nests at most 512 deep is written without a call, and what is
written parses to a copy of the value in which nothing is shared. -/
theorem stringify_readValue_copies (writer reader : Caller) {world : World}
    {home realm target : RealmId} (made : world.HasRealm target)
    (unhooked : world.Unhooked realm) {value : Value} (portable : Portable world realm 512 value)
    (written : world.writes value = true) :
    ∃ text copy after, (stringify writer home value).outcome world = .done (some text) world ∧
      (readValue reader target text).outcome world = .done copy after ∧ after.Extends world ∧
      Copies world after target value copy ∧ after.Unshared copy := by
  obtain ⟨tree, pictured⟩ := portable.exists_pictured unhooked target
  obtain ⟨tree, rfl⟩ := Option.isSome_iff_exists.mp (pictured.written.trans written)
  have sound := pictured.tells.sound (Nat.le_refl 512)
  have parsed : parse tree.compact = .ok tree.settled :=
    parse_ok_iff.mpr ⟨sound.tidy.document_compact, tree.depth_settled ▸ sound.shallow⟩
  obtain ⟨copy, after, last, done, extended, stands⟩ := stands_readValue reader made parsed
  exact ⟨tree.compact, copy, after, pictured.tells.outcome_stringify writer home (Nat.le_refl 512),
    done, extended, pictured.copies tree rfl after _ last copy (Nat.le_refl _) stands,
    stands.unshared (pictured.fits tree rfl)⟩

/-- An array in which the same object occurs before and after a hole. The object has a negative zero
and a function. -/
def sharingWorld : World :=
  ((World.fresh 1).add 0 ((Object.plain 0).createdAll
      [(.text "x", .number (.finite true 0 0 Number.canonical_zero)),
        (.text "f", Intrinsic.value (.function .object) 0)])).add 0
    ((Object.emptyArray 0).createdAll
      [(.ofIndex 0, .object ⟨0, 20⟩), (.ofIndex 2, .object ⟨0, 20⟩)])

theorem tame_sharingWorld :
    sharingWorld.Tame 0 .objectPrototype ⟨0, 20⟩ ∧ sharingWorld.Tame 0 .arrayPrototype ⟨0, 21⟩ :=
  ⟨⟨by decide +kernel, by decide +kernel, by decide +kernel, by decide +kernel⟩,
    ⟨by decide +kernel, by decide +kernel, by decide +kernel, by decide +kernel⟩⟩

theorem wellFormedArray_sharingWorld : (sharingWorld.object ⟨0, 21⟩).WellFormedArray := by
  have slot : (sharingWorld.object ⟨0, 21⟩).own? .length = some (lengthSlot 3) := by decide +kernel
  have listed : (sharingWorld.object ⟨0, 21⟩).ownKeys = [.ofIndex 0, .ofIndex 2, .length] := by
    decide +kernel
  have small : ∀ key ∈ [Key.ofIndex 0, .ofIndex 2, .length], key.arrayIndex?.all (· < 3) = true := by
    decide +kernel
  refine ⟨by decide +kernel, 3, by decide, ⟨_, _, slot, Number.integer?_ofNat_of_le (by decide)⟩, ?_⟩
  intro key index owned spelled
  have below := small key (listed ▸ Object.mem_ownKeys.mpr owned)
  rw [spelled] at below
  exact of_decide_eq_true below

theorem portable_sharingWorld (rank : Nat) :
    Portable sharingWorld 0 (rank + 2) (.object ⟨0, 21⟩) := by
  have inner : Portable sharingWorld 0 (rank + 1) (.object ⟨0, 20⟩) := by
    have keys : (sharingWorld.object ⟨0, 20⟩).enumerableKeys = [.text "x", .text "f"] := by
      decide +kernel
    have zero : (sharingWorld.object ⟨0, 20⟩).content (.text "x") =
        .number (.finite true 0 0 Number.canonical_zero) := by decide +kernel
    have function : (sharingWorld.object ⟨0, 20⟩).content (.text "f") =
        Intrinsic.value (.function .object) 0 := by decide +kernel
    refine .object (by decide +kernel) tame_sharingWorld.1 ?_ ?_
    · rw [keys]
      decide +kernel
    · rw [keys, List.forall_mem_cons, List.forall_mem_singleton, zero, function]
      exact ⟨.number rank _, .function rank (by decide +kernel) ⟨.undefined, by decide +kernel, rfl⟩⟩
  have length : (sharingWorld.object ⟨0, 21⟩).arrayLength = 3 := by decide +kernel
  have elements : ∀ index < 3, (sharingWorld.object ⟨0, 21⟩).content (.ofIndex index) =
      if index = 1 then .undefined else .object ⟨0, 20⟩ := by decide +kernel
  refine .array wellFormedArray_sharingWorld tame_sharingWorld.2 fun index inside => ?_
  rw [elements index (length ▸ inside)]
  split
  · exact .undefined _
  · exact inner

/-- The hole becomes null and the object is copied twice. -/
theorem stringify_readValue_copies_sharing :
    ∃ text copy after, (stringify (callWithin 1) 0 (.object ⟨0, 21⟩)).outcome sharingWorld =
        .done (some text) sharingWorld ∧
      (readValue (callWithin 1) 0 text).outcome sharingWorld = .done copy after ∧
      Copies sharingWorld after 0 (.object ⟨0, 21⟩) copy ∧ after.Unshared copy := by
  have unhooked : sharingWorld.Unhooked 0 := World.unhooked_of_chain (by decide +kernel)
    (by decide +kernel) (by decide +kernel) (by decide +kernel)
  have writes : sharingWorld.writes (.object ⟨0, 21⟩) = true := by decide +kernel
  have made : sharingWorld.HasRealm 0 := (World.extends_add _ 0 _).hasRealm 0
    ((World.extends_add _ 0 _).hasRealm 0 (World.hasRealm_fresh Nat.zero_lt_one))
  obtain ⟨text, copy, after, written, read, _, copies, unshared⟩ :=
    stringify_readValue_copies (callWithin 1) (callWithin 1) made unhooked
      (portable_sharingWorld 510) writes
  exact ⟨text, copy, after, written, read, copies, unshared⟩

end Json

end EcmaCore
