/-
This file describes finished objects by what they show: the array of given values, and
the ordinary object of given entries, in which a later entry under the same key has
replaced the value of an earlier one. Creating the properties one after another on a
new object makes exactly these, and a longer list of entries does to the object of the
shorter one what its last entry asks for.
-/

import EcmaCore.Proofs.Number.Integers
import EcmaCore.Proofs.Object.Creation
import EcmaCore.Proofs.Object.Listing
import Mathlib.Data.List.Induction

namespace EcmaCore

/-- The value of the last entry under a key. -/
def lastValue? (key : Key) (entries : List (Key × Value)) : Option Value :=
  valueAt key entries.reverse

namespace Object

/-- The object is the array of the given values: its length is their number, and it has no other
element and no further property. -/
structure IsArrayOf (realm : RealmId) (values : List Value) (object : Object) : Prop where
  kind : object.kind = .array
  prototype : object.prototype = some (Intrinsic.arrayPrototype.id realm)
  extensible : object.extensible = true
  length : object.own? .length = some (lengthSlot values.length)
  element : ∀ index, (inside : index < values.length) →
    object.own? (.ofIndex index) = some (.plain values[index])
  listed : object.ownKeys = (List.range values.length).map .ofIndex ++ [.length]

/-- The object has a plain property for each key of the entries, with the value of the last entry,
and no further property. Indices are listed in ascending order, and after them the other keys in
the order of their first entries. -/
structure IsRecordOf (realm : RealmId) (entries : List (Key × Value)) (object : Object) :
    Prop where
  kind : object.kind = .ordinary
  prototype : object.prototype = some (Intrinsic.objectPrototype.id realm)
  extensible : object.extensible = true
  own : ∀ key, object.own? key = (lastValue? key entries).map .plain
  listed : ∃ indices : List Nat, indices.Pairwise (· < ·) ∧
    (∀ index, index ∈ indices ↔
      index ≤ maxArrayIndex ∧ .ofIndex index ∈ entries.map Prod.fst) ∧
    object.ownKeys = indices.map .ofIndex ++
      (entries.map Prod.fst).eraseDups.filter fun key => key.arrayIndex?.isNone

/-! ### One entry more -/

theorem createdAll_concat (object : Object) (entries : List (Key × Value)) (key : Key)
    (value : Value) :
    object.createdAll (entries ++ [(key, value)]) =
      (object.createdAll entries).created key value := by
  rw [createdAll, List.foldl_append, ← createdAll]
  rfl

theorem withLength_frame (object : Object) (length : Nat) :
    object.withLength length = { object with table := (object.withLength length).table } := by
  unfold withLength
  split <;> rfl

/-- Creation changes nothing about an object but its properties. -/
theorem created_frame (object : Object) (key : Key) (value : Value) :
    object.created key value = { object with table := (object.created key value).table } := by
  unfold created
  split
  · split
    · rw [withLength_frame]
      rfl
    · rfl
  · rfl

theorem createdAll_frame (object : Object) (entries : List (Key × Value)) :
    object.createdAll entries = { object with table := (object.createdAll entries).table } := by
  induction entries using List.reverseRecOn with
  | nil => rfl
  | append_singleton entries entry inductionHypothesis =>
    rw [createdAll_concat, created_frame, inductionHypothesis]

/-! ### Ordinary objects -/

theorem lastValue?_concat (asked key : Key) (value : Value) (entries : List (Key × Value)) :
    lastValue? asked (entries ++ [(key, value)]) =
      if key = asked then some value else lastValue? asked entries := by
  rw [lastValue?, List.reverse_append]
  rfl

theorem isSome_lastValue? {key : Key} {entries : List (Key × Value)} :
    (lastValue? key entries).isSome ↔ key ∈ entries.map Prod.fst := by
  rw [Option.isSome_iff_ne_none, Ne, lastValue?, Table.valueAt_eq_none, Decidable.not_not,
    List.map_reverse, List.mem_reverse]

/-- What is repeated is counted at its first place only. -/
theorem eraseDups_concat {α : Type} [BEq α] [LawfulBEq α] (values : List α) (value : α) :
    (values ++ [value]).eraseDups =
      if value ∈ values then values.eraseDups else values.eraseDups ++ [value] := by
  rw [List.eraseDups_append]
  split
  · rename_i member
    simp [List.removeAll, member]
  · rename_i absent
    simp [List.removeAll, absent, List.eraseDups_cons]

theorem eraseDups_of_nodup {α : Type} [BEq α] [LawfulBEq α] {values : List α}
    (distinct : values.Nodup) : values.eraseDups = values := by
  induction values using List.reverseRecOn with
  | nil => rfl
  | append_singleton values value inductionHypothesis =>
    obtain ⟨front, _, apart⟩ := List.nodup_append.mp distinct
    have new : value ∉ values := fun member =>
      apart value member value (List.mem_singleton_self value) rfl
    rw [eraseDups_concat, if_neg new, inductionHypothesis front]

theorem isArray_createdAll_plain (realm : RealmId) (entries : List (Key × Value)) :
    ((plain realm).createdAll entries).isArray = false := by
  rw [isArray, createdAll_frame]
  rfl

theorem own?_createdAll_plain (realm : RealmId) (entries : List (Key × Value)) (asked : Key) :
    ((plain realm).createdAll entries).own? asked = (lastValue? asked entries).map .plain := by
  induction entries using List.reverseRecOn with
  | nil => rfl
  | append_singleton entries entry inductionHypothesis =>
    obtain ⟨key, value⟩ := entry
    rw [createdAll_concat, created_of_noElement value
        (fun array => by rw [isArray_createdAll_plain] at array; cases array),
      own?_put, lastValue?_concat, inductionHypothesis]
    by_cases same : asked = key
    · rw [if_pos same, if_pos same.symm, Option.map_some]
    · rw [if_neg same, if_neg (Ne.symm same)]

theorem keys_createdAll_plain (realm : RealmId) (entries : List (Key × Value)) :
    ((plain realm).createdAll entries).table.keys = (entries.map Prod.fst).eraseDups := by
  induction entries using List.reverseRecOn with
  | nil => rfl
  | append_singleton entries entry inductionHypothesis =>
    obtain ⟨key, value⟩ := entry
    rw [createdAll_concat, created_of_noElement value
        (fun array => by rw [isArray_createdAll_plain] at array; cases array),
      keys_put, inductionHypothesis, List.map_append, List.map_singleton, eraseDups_concat]
    simp only [own?_createdAll_plain, Option.isSome_map, isSome_lastValue?]

/-- Creating entries on a new ordinary object makes the object of these entries. -/
theorem isRecordOf_createdAll (realm : RealmId) (entries : List (Key × Value)) :
    ((plain realm).createdAll entries).IsRecordOf realm entries where
  kind := congrArg Object.kind (createdAll_frame (plain realm) entries)
  prototype := congrArg Object.prototype (createdAll_frame (plain realm) entries)
  extensible := congrArg Object.extensible (createdAll_frame (plain realm) entries)
  own := own?_createdAll_plain realm entries
  listed := by
    obtain ⟨indices, ordered, members, listed⟩ := ownKeys_parts ((plain realm).createdAll entries)
    refine ⟨indices, ordered, fun index => ?_, ?_⟩
    · rw [members, own?_createdAll_plain, Option.isSome_map, isSome_lastValue?]
    · rw [listed, keys_createdAll_plain]

/-- Entries whose keys are in the order of listing are listed in their own order. -/
theorem IsRecordOf.ownKeys_eq {realm : RealmId} {entries : List (Key × Value)} {object : Object}
    (shape : object.IsRecordOf realm entries) (ordered : Key.InOrder (entries.map Prod.fst)) :
    object.ownKeys = entries.map Prod.fst := by
  obtain ⟨indices, ascending, members, listed⟩ := shape.listed
  rw [listed, eraseDups_of_nodup ordered.nodup, ordered.parts ascending members]

section DistinctKeys

variable {realm : RealmId} {entries : List (Key × Value)} {object : Object}
  {entry : Key × Value}

/-- A key of one entry only has the value of the entry. -/
theorem lastValue?_of_mem (distinct : (entries.map Prod.fst).Nodup) (member : entry ∈ entries) :
    lastValue? entry.1 entries = some entry.2 := by
  refine Table.valueAt_of_mem ?_ (List.mem_reverse.mpr member)
  rw [List.map_reverse]
  exact List.nodup_reverse.mpr distinct

theorem IsRecordOf.own_of_mem (shape : object.IsRecordOf realm entries)
    (distinct : (entries.map Prod.fst).Nodup) (member : entry ∈ entries) :
    object.own? entry.1 = some (.plain entry.2) := by
  rw [shape.own, lastValue?_of_mem distinct member]
  rfl

/-- All own keys of a record are enumerable. -/
theorem IsRecordOf.enumerableKeys_eq (shape : object.IsRecordOf realm entries) :
    object.enumerableKeys = object.ownKeys := by
  refine List.filter_eq_self.mpr fun key listed => ?_
  obtain ⟨property, slot⟩ := Option.isSome_iff_exists.mp (mem_ownKeys.mp listed)
  rw [isEnumerable, slot]
  rw [shape.own] at slot
  obtain ⟨value, _, rfl⟩ := Option.map_eq_some_iff.mp slot
  rfl

end DistinctKeys

/-! ### Arrays -/

theorem indexed_concat (values : List Value) (value : Value) :
    indexed (values ++ [value]) = indexed values ++ [(.ofIndex values.length, value)] := by
  simp [indexed, List.zipIdx_append]

theorem arrayLength_of_slot {object : Object} {length : Nat} (bound : length ≤ maxLength)
    (slot : object.own? .length = some (lengthSlot length)) : object.arrayLength = length := by
  rw [arrayLength, slot]
  exact Number.clampedUint32_of_integer? (Number.integer?_ofNat_of_le bound) bound

/-- Creation writes one slot, and else at most that of a length. -/
theorem own?_created (object : Object) (value : Value) {key other : Key}
    (noLength : other ≠ .length) : (object.created key value).own? other =
      if other = key then some (.plain value) else object.own? other := by
  rw [← own?_put, Object.created]
  split
  · split
    · exact withLength_own?_of_ne noLength _ _
    · rfl
  · rfl

/-- Elements that are created in order are there under their positions, however many they are. -/
theorem own?_createdAll_indexed (object : Object) (values : List Value) (index : Nat)
    (inside : index < values.length) :
    (object.createdAll (indexed values)).own? (.ofIndex index) = some (.plain values[index]) := by
  induction values using List.reverseRecOn with
  | nil => exact absurd inside (Nat.not_lt_zero index)
  | append_singleton values value inductionHypothesis =>
    rw [indexed_concat, createdAll_concat, own?_created _ value (Key.ofIndex_ne_length index)]
    rw [List.length_append, List.length_singleton] at inside
    rcases Nat.lt_succ_iff_lt_or_eq.mp inside with below | rfl
    · have different : Key.ofIndex index ≠ .ofIndex values.length := fun equal =>
        Nat.ne_of_lt below (Key.ofIndex_injective equal)
      rw [if_neg different, inductionHypothesis below, List.getElem_append_left below]
    · rw [if_pos rfl, List.getElem_concat_length rfl]

/-- What the table of an array holds while it is filled from the front. -/
structure FilledWith (values : List Value) (object : Object) : Prop where
  isArray : object.isArray = true
  length : object.own? .length = some (lengthSlot values.length)
  element : ∀ index, (inside : index < values.length) →
    object.own? (.ofIndex index) = some (.plain values[index])
  keys : object.table.keys = .length :: (List.range values.length).map .ofIndex

theorem FilledWith.created {object : Object} {values : List Value}
    (filled : object.FilledWith values) (bound : values.length + 1 ≤ maxLength) (value : Value) :
    (object.created (.ofIndex values.length) value).FilledWith (values ++ [value]) := by
  have index : (Key.ofIndex values.length).arrayIndex? = some values.length :=
    Key.arrayIndex?_ofIndex (Nat.le_of_succ_le_succ bound)
  have new : object.own? (.ofIndex values.length) = none := by
    have absent : Key.ofIndex values.length ∉ object.table.keys := by
      rw [filled.keys, List.mem_cons, List.mem_map]
      rintro (equal | ⟨other, member, equal⟩)
      · exact Key.ofIndex_ne_length _ equal
      · rw [Key.ofIndex_injective equal] at member
        exact List.not_mem_range_self member
    rwa [mem_table_keys, Bool.not_eq_true, Option.isSome_eq_false_iff,
      Option.isNone_iff_eq_none] at absent
  have slot : (object.put (.ofIndex values.length) (.plain value)).own? .length =
      some (lengthSlot values.length) := by
    rw [own?_put_of_ne _ (Key.ofIndex_ne_length _).symm, filled.length]
  have grown : object.created (.ofIndex values.length) value =
      (object.put (.ofIndex values.length) (.plain value)).put .length
        (lengthSlot (values.length + 1)) := by
    rw [Object.created, filled.isArray, index]
    dsimp only
    rw [arrayLength_of_slot (Nat.le_of_succ_le bound) filled.length, if_pos (Nat.le_refl _),
      withLength_of_own? slot]
    rfl
  rw [grown]
  refine ⟨filled.isArray, ?_, fun other inside => ?_, ?_⟩
  · rw [own?_put_self, List.length_append, List.length_singleton]
  · rw [own?_put_of_ne _ (Key.ofIndex_ne_length other), own?_put]
    rw [List.length_append, List.length_singleton] at inside
    rcases Nat.lt_succ_iff_lt_or_eq.mp inside with below | rfl
    · have different : Key.ofIndex other ≠ .ofIndex values.length := fun equal =>
        Nat.ne_of_lt below (Key.ofIndex_injective equal)
      rw [if_neg different, filled.element other below, List.getElem_append_left below]
    · rw [if_pos rfl, List.getElem_concat_length rfl]
  · rw [keys_put, slot, if_pos (by rfl), keys_put, new, if_neg (by simp), filled.keys,
      List.length_append, List.length_singleton, List.range_succ, List.map_append]
    rfl

theorem filledWith_createdAll (realm : RealmId) (values : List Value)
    (bound : values.length ≤ maxLength) :
    ((emptyArray realm).createdAll (indexed values)).FilledWith values := by
  induction values using List.reverseRecOn with
  | nil =>
    exact ⟨rfl, own?_put_self _ _ _, fun index inside => absurd inside (Nat.not_lt_zero index), rfl⟩
  | append_singleton values value inductionHypothesis =>
    rw [List.length_append, List.length_singleton] at bound
    rw [indexed_concat, createdAll_concat]
    exact (inductionHypothesis (Nat.le_of_succ_le bound)).created bound value

theorem FilledWith.listed {object : Object} {values : List Value}
    (filled : object.FilledWith values) (bound : values.length ≤ maxLength) :
    object.ownKeys = (List.range values.length).map .ofIndex ++ [.length] :=
  ownKeys_of_keys filled.keys List.pairwise_lt_range fun _ member =>
    Nat.le_of_lt_succ (Nat.lt_of_lt_of_le (List.mem_range.mp member) bound)

/-- Creating elements on a new array makes the array of these elements. -/
theorem isArrayOf_createdAll (realm : RealmId) (values : List Value)
    (bound : values.length ≤ maxLength) :
    ((emptyArray realm).createdAll (indexed values)).IsArrayOf realm values where
  kind := congrArg Object.kind (createdAll_frame (emptyArray realm) (indexed values))
  prototype := congrArg Object.prototype (createdAll_frame (emptyArray realm) (indexed values))
  extensible := congrArg Object.extensible (createdAll_frame (emptyArray realm) (indexed values))
  length := (filledWith_createdAll realm values bound).length
  element := (filledWith_createdAll realm values bound).element
  listed := (filledWith_createdAll realm values bound).listed bound

/-- An array of values has its length and the elements below it, and no other key. -/
theorem IsArrayOf.key_of_own {realm : RealmId} {values : List Value} {object : Object}
    (shape : object.IsArrayOf realm values) {key : Key} (owned : (object.own? key).isSome) :
    key = .length ∨ ∃ index < values.length, key = .ofIndex index := by
  have listed := mem_ownKeys.mpr owned
  rw [shape.listed, List.mem_append, List.mem_singleton, List.mem_map] at listed
  rcases listed with ⟨index, member, rfl⟩ | same
  · exact Or.inr ⟨index, List.mem_range.mp member, rfl⟩
  · exact Or.inl same

/-- The indices are enumerable and the length is not. -/
theorem IsArrayOf.enumerableKeys_eq {realm : RealmId} {values : List Value} {object : Object}
    (shape : object.IsArrayOf realm values) :
    object.enumerableKeys = (List.range values.length).map .ofIndex := by
  have indices : ∀ key ∈ (List.range values.length).map Key.ofIndex,
      object.isEnumerable key = true := by
    intro key member
    obtain ⟨index, inside, rfl⟩ := List.mem_map.mp member
    rw [isEnumerable, shape.element index (List.mem_range.mp inside)]
    rfl
  have length : object.isEnumerable .length = false := by
    rw [isEnumerable, shape.length]
    rfl
  rw [enumerableKeys, shape.listed, List.filter_append, List.filter_eq_self.mpr indices,
    List.filter_singleton, length]
  exact List.append_nil _

theorem IsArrayOf.own?_eq_none {realm : RealmId} {values : List Value} {object : Object}
    (shape : object.IsArrayOf realm values) {key : Key} (noLength : key ≠ .length)
    (noIndex : key.arrayIndex? = none) (bound : values.length ≤ maxLength) :
    object.own? key = none := by
  refine Option.not_isSome_iff_eq_none.mp fun owned => ?_
  rcases shape.key_of_own owned with same | ⟨index, inside, rfl⟩
  · exact noLength same
  · have listed : index ≤ maxArrayIndex := Nat.le_of_lt_succ (Nat.lt_of_lt_of_le inside bound)
    rw [Key.arrayIndex?_ofIndex listed] at noIndex
    cases noIndex

end Object

end EcmaCore
