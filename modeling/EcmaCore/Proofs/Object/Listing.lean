/-
This file is about the order in which own keys are listed. The array indices among them
come first and strictly ascend, and the other keys keep the order of the table, in which
a key stands where it was first written. A list of keys that is in this order stays as it
is when it is made the own keys of an object and listed again.
-/

import EcmaCore.Proofs.Object.Slots
import Mathlib.Data.List.Sort

namespace EcmaCore

/-! ### Ascending numbers -/

theorem insertAscending_eq (value : Nat) (values : List Nat) :
    insertAscending value values = values.orderedInsert (· ≤ ·) value := by
  induction values with
  | nil => rfl
  | cons first rest inductionHypothesis =>
    rw [insertAscending, List.orderedInsert_cons, inductionHypothesis]

theorem ascending_eq_insertionSort (values : List Nat) :
    ascending values = values.insertionSort (· ≤ ·) := by
  induction values with
  | nil => rfl
  | cons first rest inductionHypothesis =>
    rw [ascending, List.foldr_cons, ← ascending, inductionHypothesis, insertAscending_eq,
      List.insertionSort_cons]

@[simp]
theorem mem_ascending {value : Nat} {values : List Nat} :
    value ∈ ascending values ↔ value ∈ values := by
  rw [ascending_eq_insertionSort, List.mem_insertionSort]

/-- Numbers that ascend already stay as they are. -/
theorem ascending_of_pairwise {values : List Nat} (ordered : values.Pairwise (· < ·)) :
    ascending values = values := by
  rw [ascending_eq_insertionSort]
  exact (ordered.imp Nat.le_of_lt).insertionSort_eq

/-- Numbers without repetition strictly ascend when they are put in order. -/
theorem pairwise_ascending {values : List Nat} (distinct : values.Nodup) :
    (ascending values).Pairwise (· < ·) := by
  have distinctToo : (ascending values).Nodup := by
    rw [ascending_eq_insertionSort]
    exact (List.perm_insertionSort _ values).nodup_iff.mpr distinct
  have ordered : (ascending values).Pairwise (· ≤ ·) := by
    rw [ascending_eq_insertionSort]
    exact List.pairwise_insertionSort _ values
  exact (ordered.and distinctToo).imp fun ⟨atMost, different⟩ => Nat.lt_of_le_of_ne atMost different

namespace Object

variable {object : Object}

/-! ### Keys of the table -/

theorem mem_table_keys {key : Key} : key ∈ object.table.keys ↔ (object.own? key).isSome :=
  Table.mem_keys

theorem keys_put (object : Object) (key : Key) (property : Property) :
    (object.put key property).table.keys =
      if (object.own? key).isSome then object.table.keys else object.table.keys ++ [key] := by
  rw [put, Table.keys_insert]
  simp only [mem_table_keys]

/-! ### Listed keys -/

theorem nodup_indices (object : Object) : object.indices.Nodup := by
  refine object.table.distinct.filterMap ?_
  intro first second index firstSpelled secondSpelled
  rw [(Key.arrayIndex?_eq_some.mp firstSpelled).1, (Key.arrayIndex?_eq_some.mp secondSpelled).1]

/-- The indices strictly ascend, and the other keys are those of the table in its order. -/
theorem ownKeys_parts (object : Object) :
    ∃ indices : List Nat, indices.Pairwise (· < ·) ∧
      (∀ index, index ∈ indices ↔
        index ≤ maxArrayIndex ∧ (object.own? (.ofIndex index)).isSome) ∧
      object.ownKeys = indices.map .ofIndex ++
        object.table.keys.filter fun key => key.arrayIndex?.isNone :=
  ⟨ascending object.indices, pairwise_ascending object.nodup_indices,
    fun _ => mem_ascending.trans mem_indices, rfl⟩

/-- What is listed are the keys that the object owns. -/
theorem mem_ownKeys {key : Key} : key ∈ object.ownKeys ↔ (object.own? key).isSome := by
  obtain ⟨indices, _, members, listed⟩ := object.ownKeys_parts
  rw [listed, List.mem_append, List.mem_filter, mem_table_keys]
  constructor
  · rintro (listedIndex | listedOther)
    · obtain ⟨index, member, rfl⟩ := List.mem_map.mp listedIndex
      exact ((members index).mp member).2
    · exact listedOther.1
  · intro owned
    cases spelled : key.arrayIndex? with
    | none => exact Or.inr ⟨owned, rfl⟩
    | some index =>
      obtain ⟨rfl, bound⟩ := Key.arrayIndex?_eq_some.mp spelled
      exact Or.inl (List.mem_map_of_mem ((members index).mpr ⟨bound, owned⟩))

theorem mem_enumerableKeys {key : Key} :
    key ∈ object.enumerableKeys ↔ object.isEnumerable key = true := by
  rw [enumerableKeys, List.mem_filter, mem_ownKeys, isEnumerable]
  refine ⟨And.right, fun enumerable => ⟨?_, enumerable⟩⟩
  cases slot : object.own? key with
  | some property => rfl
  | none =>
    rw [slot] at enumerable
    cases enumerable

/-- An array whose length came before its elements, and whose elements were made in ascending order,
lists its elements and then its length. -/
theorem ownKeys_of_keys {indices : List Nat}
    (keys : object.table.keys = .length :: indices.map .ofIndex)
    (ordered : indices.Pairwise (· < ·)) (small : ∀ index ∈ indices, index ≤ maxArrayIndex) :
    object.ownKeys = indices.map .ofIndex ++ [.length] := by
  have spelled : ∀ index ∈ indices, (Key.ofIndex index).arrayIndex? = some index :=
    fun index member => Key.arrayIndex?_ofIndex (small index member)
  have listed : object.indices = indices := by
    rw [Object.indices, keys, List.filterMap_cons_none Key.arrayIndex?_length, List.filterMap_map]
    exact (List.filterMap_congr spelled).trans List.filterMap_some
  have others : (object.table.keys.filter fun key => key.arrayIndex?.isNone) = [.length] := by
    rw [keys, List.filter_cons_of_pos (by rw [Key.arrayIndex?_length]; rfl),
      List.filter_eq_nil_iff.mpr]
    intro key member
    obtain ⟨index, inside, rfl⟩ := List.mem_map.mp member
    rw [spelled index inside]
    exact Bool.false_ne_true
  rw [ownKeys, listed, others, ascending_of_pairwise ordered]

end Object

/-! ### Keys in the order of listing -/

namespace Key

/-- The first key may be listed before the second: it is another key, and only a smaller index comes
before an index. -/
def Before (first second : Key) : Prop :=
  first ≠ second ∧ ∀ index, second.arrayIndex? = some index →
    ∃ smaller, first.arrayIndex? = some smaller ∧ smaller < index

/-- The keys are in the order in which an object lists its own: indices ascend and come first, and
no key is repeated. -/
def InOrder (keys : List Key) : Prop := keys.Pairwise Before

theorem before_ofIndex {first second : Nat} (less : first < second)
    (bound : first ≤ maxArrayIndex) :
    (ofIndex first).Before (ofIndex second) := by
  refine ⟨ofIndex_injective.ne (Nat.ne_of_lt less), fun index spelled => ⟨first, ?_, ?_⟩⟩
  · exact arrayIndex?_ofIndex bound
  · rwa [← ofIndex_injective (arrayIndex?_eq_some.mp spelled).1]

theorem before_of_noIndex {first second : Key} (different : first ≠ second)
    (noIndex : second.arrayIndex? = none) : first.Before second :=
  ⟨different, fun index spelled => by rw [noIndex] at spelled; cases spelled⟩

theorem inOrder_append {indices : List Nat} {others : List Key}
    (ascending : indices.Pairwise (· < ·)) (small : ∀ index ∈ indices, index ≤ maxArrayIndex)
    (distinct : others.Nodup) (noIndex : ∀ key ∈ others, key.arrayIndex? = none) :
    InOrder (indices.map .ofIndex ++ others) := by
  refine List.pairwise_append.mpr ⟨?_, ?_, ?_⟩
  · refine List.pairwise_map.mpr (ascending.imp_of_mem fun member _ less => ?_)
    exact before_ofIndex less (small _ member)
  · exact distinct.imp_of_mem fun _ member different =>
      before_of_noIndex different (noIndex _ member)
  · intro first member second otherMember
    refine before_of_noIndex ?_ (noIndex second otherMember)
    rintro rfl
    obtain ⟨index, indexMember, rfl⟩ := List.mem_map.mp member
    have none := noIndex _ otherMember
    rw [arrayIndex?_ofIndex (small index indexMember)] at none
    cases none

namespace InOrder

variable {keys : List Key}

theorem nodup (ordered : InOrder keys) : keys.Nodup := ordered.imp fun before => before.1

/-- Keys in order are ascending indices, and after them keys that are no index. -/
theorem split (ordered : InOrder keys) :
    ∃ indices : List Nat, indices.Pairwise (· < ·) ∧ (∀ index ∈ indices, index ≤ maxArrayIndex) ∧
      keys = indices.map .ofIndex ++ keys.filter fun key => key.arrayIndex?.isNone := by
  induction keys with
  | nil => exact ⟨[], .nil, nofun, rfl⟩
  | cons key keys inductionHypothesis =>
    obtain ⟨first, ordered⟩ := List.pairwise_cons.mp ordered
    obtain ⟨indices, ascending, small, parts⟩ := inductionHypothesis ordered
    cases spelled : key.arrayIndex? with
    | some index =>
      obtain ⟨rfl, bound⟩ := arrayIndex?_eq_some.mp spelled
      refine ⟨index :: indices, List.pairwise_cons.mpr ⟨fun other member => ?_, ascending⟩, ?_, ?_⟩
      · have listed : ofIndex other ∈ keys :=
          parts ▸ List.mem_append_left _ (List.mem_map_of_mem member)
        obtain ⟨smaller, same, less⟩ :=
          (first _ listed).2 other (arrayIndex?_ofIndex (small other member))
        rwa [Option.some.inj (spelled.symm.trans same)]
      · intro other member
        rcases List.mem_cons.mp member with rfl | member
        · exact bound
        · exact small other member
      · rw [List.filter_cons_of_neg (by rw [spelled]; exact Bool.false_ne_true), List.map_cons,
          List.cons_append, ← parts]
    | none =>
      have noIndex : ∀ other ∈ keys, other.arrayIndex?.isNone = true := by
        intro other member
        rw [Option.isNone_iff_eq_none]
        by_contra index
        obtain ⟨index, spelledOther⟩ := Option.ne_none_iff_exists'.mp index
        obtain ⟨smaller, same, _⟩ := (first other member).2 index spelledOther
        rw [spelled] at same
        cases same
      refine ⟨[], .nil, nofun, ?_⟩
      rw [List.filter_cons_of_pos (by rw [spelled]; rfl), List.filter_eq_self.mpr noIndex]
      rfl

/-- The index keys of a list in order, and the other keys. -/
theorem parts (ordered : InOrder keys) {indices : List Nat} (ascending : indices.Pairwise (· < ·))
    (members : ∀ index, index ∈ indices ↔ index ≤ maxArrayIndex ∧ ofIndex index ∈ keys) :
    indices.map .ofIndex ++ keys.filter (fun key => key.arrayIndex?.isNone) = keys := by
  obtain ⟨own, ownAscending, small, split⟩ := ordered.split
  have same : indices = own := by
    refine ascending.eq_of_mem_iff ownAscending fun index => ?_
    rw [members]
    constructor
    · rintro ⟨bound, member⟩
      rw [split] at member
      rcases List.mem_append.mp member with member | member
      · obtain ⟨other, otherMember, equal⟩ := List.mem_map.mp member
        rwa [← ofIndex_injective equal]
      · have none := (List.mem_filter.mp member).2
        rw [arrayIndex?_ofIndex bound] at none
        cases none
    · intro member
      exact ⟨small index member, split ▸ List.mem_append_left _ (List.mem_map_of_mem member)⟩
  rw [same, ← split]

end InOrder

end Key

theorem Object.inOrder_ownKeys (object : Object) : Key.InOrder object.ownKeys := by
  obtain ⟨indices, ascending, members, listed⟩ := object.ownKeys_parts
  rw [listed]
  refine Key.inOrder_append ascending (fun index member => ((members index).mp member).1)
    (List.Nodup.filter _ object.table.distinct) fun key member => ?_
  exact Option.isNone_iff_eq_none.mp (List.mem_filter.mp member).2

end EcmaCore
