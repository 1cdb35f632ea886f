/-
This file is about objects in which results are settled, one after another and each under a
key of its own. A result takes the place of the value that stood under its key; undefined
is no result, and the property is deleted. So what became of an object can be said by its
results alone: no other property is touched, and the keys that are left keep their order.

An array is no exception. Its elements are settled below its length, which is never moved:
a deleted element leaves a hole.
-/

import EcmaCore.Proofs.Engine.Making
import EcmaCore.Proofs.Object.Requests

namespace EcmaCore

/-! ### The last of some entries -/

theorem Table.valueAt_concat {κ α : Type} [DecidableEq κ] (asked key : κ) (value : α)
    (entries : List (κ × α)) :
    valueAt asked (entries ++ [(key, value)]) =
      (valueAt asked entries).or (if key = asked then some value else none) := by
  induction entries with
  | nil => rfl
  | cons entry rest inductionHypothesis =>
    obtain ⟨other, old⟩ := entry
    rw [List.cons_append, valueAt, valueAt, inductionHypothesis]
    split <;> rfl

namespace Object

/-! ### Settling one result -/

/-- The slot that a result leaves: a plain property, or none if the result is undefined. -/
def settledSlot (result : Value) : Option Property :=
  if result = .undefined then none else some (.plain result)

/-- The object with a result settled under a key. -/
def settled (object : Object) (key : Key) (result : Value) : Object :=
  if result = .undefined then object.erased key else object.put key (.plain result)

variable {object : Object} {key other : Key}

theorem settled_frame (object : Object) (key : Key) (result : Value) :
    object.settled key result = { object with table := (object.settled key result).table } := by
  unfold settled
  split <;> rfl

theorem own?_settled (object : Object) (key other : Key) (result : Value) :
    (object.settled key result).own? other =
      if other = key then settledSlot result else object.own? other := by
  unfold settled settledSlot
  by_cases same : other = key
  · rw [if_pos same, same]
    split
    · exact own?_erased_self object key
    · exact own?_put_self object key _
  · rw [if_neg same]
    split
    · exact own?_erased_of_ne object same
    · exact own?_put_of_ne object same _

/-- Settling under a key that is there deletes the key or leaves all keys in their order. -/
theorem ownKeys_settled (owned : (object.own? key).isSome) (result : Value) :
    (object.settled key result).ownKeys =
      object.ownKeys.filter fun other => ¬ (other = key ∧ result = .undefined) := by
  unfold settled
  split
  · rename_i deleted
    refine ownKeys_of_keys_filter ((Table.keys_erase object.table key).trans ?_)
    refine List.filter_congr fun other _ => decide_eq_decide.mpr ?_
    rw [and_iff_left deleted]
  · rename_i replaced
    have same : (object.put key (.plain result)).table.keys = object.table.keys := by
      rw [keys_put, if_pos owned]
    have kept : ∀ other ∈ object.ownKeys, decide (¬ (other = key ∧ result = .undefined)) = true :=
      fun other _ => decide_eq_true fun both => replaced both.2
    rw [ownKeys_congr same, List.filter_eq_self.mpr kept]

/-- A value that is settled where it stands changes nothing. -/
theorem settled_of_own? {value : Value} (slot : object.own? key = some (.plain value))
    (defined : value ≠ .undefined) : object.settled key value = object := by
  have same : ∀ entries : List (Key × Property), valueAt key entries = some (.plain value) →
      assign key (.plain value) entries = entries := by
    intro entries found
    induction entries with
    | nil => cases found
    | cons entry rest inductionHypothesis =>
      obtain ⟨first, old⟩ := entry
      rw [valueAt] at found
      rw [assign]
      split
      · rename_i here
        rw [if_pos here] at found
        rw [Option.some.inj found]
      · rename_i elsewhere
        rw [if_neg elsewhere] at found
        rw [inductionHypothesis found]
  have table : object.table.insert key (.plain value) = object.table := by
    obtain ⟨⟨entries, distinct⟩, prototype, extensible, kind, callable⟩ := object
    simp only [Table.insert, same entries slot]
  rw [settled, if_neg defined, put, table]

/-! ### Settling all results -/

/-- The object is the old one with the results settled, each under its key. -/
structure Revived (results : List (Key × Value)) (old object : Object) : Prop where
  frame : object = { old with table := object.table }
  own : ∀ key, object.own? key = (valueAt key results).elim (old.own? key) settledSlot
  listed : object.ownKeys = old.ownKeys.filter fun key => valueAt key results ≠ some .undefined

variable {results : List (Key × Value)} {old : Object}

theorem Revived.refl (object : Object) : Revived [] object object where
  frame := rfl
  own _ := rfl
  listed := (List.filter_eq_self.mpr fun _ _ => rfl).symm

theorem Revived.own_of_not_mem (revived : Revived results old object)
    (unsettled : key ∉ results.map Prod.fst) : object.own? key = old.own? key := by
  rw [revived.own, Table.valueAt_eq_none.mpr unsettled, Option.elim_none]

theorem Revived.isArray_eq (revived : Revived results old object) :
    object.isArray = old.isArray := by
  rw [revived.frame]
  rfl

/-- A result more is settled under a key that has none yet. -/
theorem Revived.settled (revived : Revived results old object)
    (unsettled : key ∉ results.map Prod.fst) (owned : (old.own? key).isSome) (result : Value) :
    Revived (results ++ [(key, result)]) old (object.settled key result) where
  frame := by
    rw [settled_frame, revived.frame]
  own other := by
    rw [own?_settled, Table.valueAt_concat]
    by_cases same : other = key
    · rw [if_pos same, if_pos same.symm, same, Table.valueAt_eq_none.mpr unsettled]
      rfl
    · rw [if_neg same, if_neg (Ne.symm same), Option.or_none, revived.own]
  listed := by
    have ownedStill : (object.own? key).isSome := by rwa [revived.own_of_not_mem unsettled]
    rw [ownKeys_settled ownedStill, revived.listed, List.filter_filter]
    refine List.filter_congr fun other _ => ?_
    rw [← Bool.decide_and, decide_eq_decide, Table.valueAt_concat]
    by_cases same : other = key
    · rw [if_pos same.symm, same, Table.valueAt_eq_none.mpr unsettled]
      simp
    · rw [if_neg (Ne.symm same), Option.or_none]
      simp [same]

/-- The object with results settled one after another. -/
def settledAll (object : Object) (results : List (Key × Value)) : Object :=
  results.foldl (fun changed entry => changed.settled entry.1 entry.2) object

theorem settledAll_concat (object : Object) (results : List (Key × Value)) (key : Key)
    (result : Value) :
    object.settledAll (results ++ [(key, result)]) =
      (object.settledAll results).settled key result := List.foldl_append

/-- Results that are settled each under a key of its own, one that is there, are all settled. -/
theorem revived_settledAll (distinct : (results.map Prod.fst).Nodup)
    (owned : ∀ entry ∈ results, (old.own? entry.1).isSome) :
    Revived results old (old.settledAll results) := by
  induction results using List.reverseRecOn with
  | nil => exact .refl old
  | append_singleton results entry inductionHypothesis =>
    obtain ⟨key, result⟩ := entry
    rw [List.map_append, List.map_singleton] at distinct
    obtain ⟨front, _, apart⟩ := List.nodup_append.mp distinct
    have unsettled : key ∉ results.map Prod.fst := fun member =>
      apart key member key (List.mem_singleton_self key) rfl
    rw [settledAll_concat]
    exact (inductionHypothesis front fun entry member =>
      owned entry (List.mem_append_left _ member)).settled unsettled
        (owned (key, result) (List.mem_append_right _ (List.mem_singleton_self _))) result

/-- Values that are settled where they stand change nothing. -/
theorem settledAll_of_own? (same : ∀ entry ∈ results, old.own? entry.1 = some (.plain entry.2))
    (defined : ∀ entry ∈ results, entry.2 ≠ .undefined) : old.settledAll results = old := by
  induction results with
  | nil => rfl
  | cons entry rest inductionHypothesis =>
    rw [settledAll, List.foldl_cons, settled_of_own? (same entry List.mem_cons_self)
      (defined entry List.mem_cons_self), ← settledAll]
    exact inductionHypothesis (fun entry member => same entry (List.mem_cons_of_mem _ member))
      fun entry member => defined entry (List.mem_cons_of_mem _ member)

/-- Objects in which the results leave the length of an array alone stay receptive. -/
theorem Revived.receptive (revived : Revived results old object) (receptive : old.Receptive)
    (noLength : old.isArray = true → .length ∉ results.map Prod.fst) : object.Receptive where
  extensible := by
    rw [revived.frame]
    exact receptive.extensible
  configurable key property slot free := by
    rw [revived.isArray_eq] at free
    rw [revived.own] at slot
    cases found : valueAt key results with
    | none =>
      rw [found] at slot
      exact receptive.configurable key property slot free
    | some result =>
      rw [found, Option.elim_some, settledSlot] at slot
      split at slot
      · cases slot
      · cases slot
        rfl
  lengthWritable array := by
    rw [revived.isArray_eq] at array
    rw [lengthWritable, revived.own_of_not_mem (noLength array)]
    exact receptive.lengthWritable array

/-! ### Children -/

/-- The keys of what an object holds as a container: an array its elements, any other object its
enumerable properties. -/
def childKeys (object : Object) : List Key :=
  if object.isArray then (List.range object.arrayLength).map .ofIndex else object.enumerableKeys

/-- Nothing but values stands under the keys of the children, and each of them may be replaced. -/
structure Orderly (object : Object) : Prop where
  receptive : object.Receptive
  length : object.isArray = true →
    ∃ length ≤ maxLength, object.own? .length = some (lengthSlot length)
  held : ∀ key ∈ object.childKeys,
    ∃ value ≠ .undefined, object.own? key = some (.plain value)

theorem childKeys_of_array (array : object.isArray = true) :
    object.childKeys = (List.range object.arrayLength).map .ofIndex := if_pos array

theorem childKeys_of_noArray (noArray : object.isArray = false) :
    object.childKeys = object.enumerableKeys := by
  rw [childKeys, noArray]
  rfl

theorem nodup_childKeys (object : Object) : object.childKeys.Nodup := by
  unfold childKeys
  split
  · exact List.nodup_range.map Key.ofIndex_injective
  · exact object.inOrder_ownKeys.nodup.filter _

theorem ne_length_of_mem_childKeys (array : object.isArray = true)
    (child : key ∈ object.childKeys) : key ≠ .length := by
  rw [childKeys_of_array array] at child
  obtain ⟨index, _, rfl⟩ := List.mem_map.mp child
  exact Key.ofIndex_ne_length index

/-- The place of a child in an array is below the length, so creating it there moves nothing. -/
theorem created_of_child (child : object.isArray = true → key ∈ object.childKeys) (value : Value) :
    object.created key value = object.put key (.plain value) := by
  unfold created
  split
  · rename_i index array spelled
    have inside := child array
    rw [childKeys_of_array array] at inside
    obtain ⟨position, member, rfl⟩ := List.mem_map.mp inside
    rw [← Key.ofIndex_injective (Key.arrayIndex?_eq_some.mp spelled).1,
      if_neg (Nat.not_le_of_lt (List.mem_range.mp member))]
  · rfl

/-- The children of an array stay at their places while they are settled. -/
theorem Revived.childKeys_eq (revived : Revived results old object) (array : old.isArray = true)
    (noLength : .length ∉ results.map Prod.fst) : object.childKeys = old.childKeys := by
  rw [childKeys_of_array array, childKeys_of_array (revived.isArray_eq.trans array), arrayLength,
    arrayLength, revived.own_of_not_mem noLength]

/-! ### New containers -/

theorem Receptive.createdAll (receptive : object.Receptive) {entries : List (Key × Value)}
    (allowed : object.isArray = true → ∀ entry ∈ entries, entry.1 ≠ .length) :
    (object.createdAll entries).Receptive := by
  induction entries generalizing object with
  | nil => exact receptive
  | cons entry rest inductionHypothesis =>
    have first : object.isArray = true → entry.1 ≠ .length :=
      fun array => allowed array entry List.mem_cons_self
    refine inductionHypothesis (receptive.created first entry.2) fun array other member => ?_
    rw [created_isArray] at array
    exact allowed array other (List.mem_cons_of_mem _ member)

theorem orderly_record (realm : RealmId) {entries : List (Key × Value)}
    (defined : ∀ entry ∈ entries, entry.2 ≠ .undefined) :
    ((plain realm).createdAll entries).Orderly where
  receptive := (receptive_plain realm).createdAll fun array => by cases array
  length array := by
    rw [isArray_createdAll_plain] at array
    cases array
  held key child := by
    rw [childKeys_of_noArray (isArray_createdAll_plain realm entries)] at child
    have owned := mem_ownKeys.mp (List.mem_of_mem_filter child)
    rw [own?_createdAll_plain, Option.isSome_map] at owned
    obtain ⟨value, found⟩ := Option.isSome_iff_exists.mp owned
    refine ⟨value, ?_, by rw [own?_createdAll_plain, found, Option.map_some]⟩
    exact defined (key, value) (List.mem_reverse.mp (Table.mem_of_valueAt found))

theorem isArray_createdAll_indexed (realm : RealmId) (values : List Value) :
    ((emptyArray realm).createdAll (indexed values)).isArray = true := by
  rw [isArray, createdAll_frame]
  rfl

/-- The length of an array counts its elements as far as it may. -/
theorem own?_length_createdAll (realm : RealmId) (values : List Value) :
    ((emptyArray realm).createdAll (indexed values)).own? .length =
      some (lengthSlot (min values.length maxLength)) := by
  induction values using List.reverseRecOn with
  | nil => exact own?_put_self _ _ _
  | append_singleton values value inductionHypothesis =>
    have counted := arrayLength_of_slot (Nat.min_le_right values.length maxLength)
      inductionHypothesis
    have slot : (((emptyArray realm).createdAll (indexed values)).put (.ofIndex values.length)
        (.plain value)).own? .length = some (lengthSlot (min values.length maxLength)) := by
      rw [own?_put_of_ne _ (Key.ofIndex_ne_length _).symm, inductionHypothesis]
    rw [indexed_concat, createdAll_concat, List.length_append, List.length_singleton]
    rcases Nat.lt_or_ge values.length maxLength with below | beyond
    · have spelled := Key.arrayIndex?_ofIndex (Nat.le_of_lt_succ below)
      rw [Nat.min_eq_left (Nat.le_of_lt below)] at counted slot
      rw [created, isArray_createdAll_indexed, spelled]
      dsimp only
      rw [counted, if_pos (Nat.le_refl _), withLength_of_own? slot, own?_put_self,
        Nat.min_eq_left below]
      rfl
    · rw [Nat.min_eq_right beyond] at slot
      rw [created_of_noElement value fun _ => ?_, slot,
        Nat.min_eq_right (Nat.le_succ_of_le beyond)]
      cases spelled : (Key.ofIndex values.length).arrayIndex? with
      | none => rfl
      | some index =>
        obtain ⟨same, bound⟩ := Key.arrayIndex?_eq_some.mp spelled
        rw [← Key.ofIndex_injective same] at bound
        exact absurd (Nat.lt_succ_of_le bound) (Nat.not_lt_of_le beyond)

theorem childKeys_createdAll_indexed (realm : RealmId) (values : List Value) :
    ((emptyArray realm).createdAll (indexed values)).childKeys =
      (List.range (min values.length maxLength)).map .ofIndex := by
  rw [childKeys_of_array (isArray_createdAll_indexed realm values),
    arrayLength_of_slot (Nat.min_le_right _ _) (own?_length_createdAll realm values)]

theorem orderly_array (realm : RealmId) {values : List Value}
    (defined : ∀ value ∈ values, value ≠ .undefined) :
    ((emptyArray realm).createdAll (indexed values)).Orderly where
  receptive := (receptive_emptyArray realm).createdAll fun _ _ => key_of_mem_indexed
  length _ := ⟨_, Nat.min_le_right _ _, own?_length_createdAll realm values⟩
  held key child := by
    rw [childKeys_createdAll_indexed] at child
    obtain ⟨index, member, rfl⟩ := List.mem_map.mp child
    have inside : index < values.length :=
      Nat.lt_of_lt_of_le (List.mem_range.mp member) (Nat.min_le_left _ _)
    exact ⟨values[index], defined _ (List.getElem_mem inside),
      own?_createdAll_indexed _ values index inside⟩

end Object

end EcmaCore
