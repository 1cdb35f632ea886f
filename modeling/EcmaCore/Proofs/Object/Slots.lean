/-
This file says which slots an object shows after each of its changes. A change of an
object writes one slot, erases one slot, or does several of these in turn, so what it
did is known from the slots alone; everything else about the object stays.

A definition or a deletion that was allowed is also taken apart here, into what was
there before, why the change was allowed and what was written.
-/

import EcmaCore.Object.Define
import EcmaCore.Proofs.Key.Index

namespace EcmaCore

/-! ### Tables -/

namespace Table

variable {κ α : Type} [DecidableEq κ]

theorem valueAt_eq_none {key : κ} {entries : List (κ × α)} :
    valueAt key entries = none ↔ key ∉ entries.map Prod.fst := by
  induction entries with
  | nil => simp [valueAt]
  | cons entry rest inductionHypothesis =>
    obtain ⟨other, value⟩ := entry
    by_cases equal : other = key
    · simp [valueAt, equal]
    · simp [valueAt, equal, inductionHypothesis, Ne.symm equal]

/-- The value of a key comes from one of its entries. -/
theorem mem_of_valueAt {key : κ} {value : α} {entries : List (κ × α)}
    (found : valueAt key entries = some value) : (key, value) ∈ entries := by
  induction entries with
  | nil => cases found
  | cons first rest inductionHypothesis =>
    obtain ⟨other, old⟩ := first
    rw [valueAt] at found
    split at found
    · rename_i same
      cases found
      rw [same]
      exact List.mem_cons_self
    · exact List.mem_cons_of_mem _ (inductionHypothesis found)

/-- A key that is not repeated has the value of its entry. -/
theorem valueAt_of_mem {entry : κ × α} {entries : List (κ × α)}
    (distinct : (entries.map Prod.fst).Nodup) (member : entry ∈ entries) :
    valueAt entry.1 entries = some entry.2 := by
  induction entries with
  | nil => cases member
  | cons first rest inductionHypothesis =>
    rw [List.map_cons, List.nodup_cons] at distinct
    rw [valueAt]
    rcases List.mem_cons.mp member with rfl | member
    · exact if_pos rfl
    · have different : first.1 ≠ entry.1 := fun equal =>
        distinct.1 (equal ▸ List.mem_map_of_mem member)
      rw [if_neg different]
      exact inductionHypothesis distinct.2 member

/-- A key is listed exactly if it has a value. -/
theorem mem_keys {table : Table κ α} {key : κ} : key ∈ table.keys ↔ (table.get? key).isSome := by
  have absent : valueAt key table.entries = none ↔ key ∉ table.entries.map Prod.fst :=
    valueAt_eq_none
  rw [get?, keys, Option.isSome_iff_ne_none, Ne, absent, Decidable.not_not]

theorem get?_erase_self (table : Table κ α) (key : κ) : (table.erase key).get? key = none := by
  have absent : key ∉ (table.erase key).keys := by
    rw [keys_erase]
    simp
  rwa [mem_keys, Bool.not_eq_true, Option.isSome_eq_false_iff, Option.isNone_iff_eq_none] at absent

theorem valueAt_filter_of_ne {key other : κ} (different : other ≠ key) (entries : List (κ × α)) :
    valueAt other (entries.filter fun entry => entry.1 ≠ key) = valueAt other entries := by
  induction entries with
  | nil => rfl
  | cons entry rest inductionHypothesis =>
    obtain ⟨first, value⟩ := entry
    by_cases erased : first = key
    · have kept : first ≠ other := fun equal => different (equal.symm.trans erased)
      rw [List.filter_cons_of_neg (by simp [erased]), inductionHypothesis, valueAt, if_neg kept]
    · rw [List.filter_cons_of_pos (by simp [erased]), valueAt, valueAt, inductionHypothesis]

theorem get?_erase_of_ne (table : Table κ α) {key other : κ} (different : other ≠ key) :
    (table.erase key).get? other = table.get? other :=
  valueAt_filter_of_ne different table.entries

end Table

namespace Object

variable {object changed : Object} {key other : Key} {property current : Property}
  {descriptor : Descriptor}

/-! ### Writing a slot -/

@[simp]
theorem own?_put_self (object : Object) (key : Key) (property : Property) :
    (object.put key property).own? key = some property :=
  Table.get?_insert_self object.table key property

theorem own?_put_of_ne (object : Object) (different : other ≠ key) (property : Property) :
    (object.put key property).own? other = object.own? other :=
  Table.get?_insert_of_ne object.table different property

theorem own?_put (object : Object) (key other : Key) (property : Property) :
    (object.put key property).own? other =
      if other = key then some property else object.own? other := by
  split
  · rename_i same
    rw [same, own?_put_self]
  · rename_i different
    exact own?_put_of_ne object different property

/-! ### Erasing a slot -/

/-- The object without a slot. -/
def erased (object : Object) (key : Key) : Object := { object with table := object.table.erase key }

theorem own?_erased_self (object : Object) (key : Key) : (object.erased key).own? key = none :=
  Table.get?_erase_self object.table key

theorem own?_erased_of_ne (object : Object) (different : other ≠ key) :
    (object.erased key).own? other = object.own? other :=
  Table.get?_erase_of_ne object.table different

/-! ### Changes that were allowed -/

/-- A definition either adds a slot to an extensible object or revises one that admits it. -/
theorem redefined?_eq_some (defined : object.redefined? key descriptor = some changed) :
    (object.own? key = none ∧ object.extensible = true ∧
      changed = object.put key descriptor.toProperty) ∨
    (∃ current, object.own? key = some current ∧ current.admits descriptor = true ∧
      changed = object.put key (current.revised descriptor)) := by
  rw [redefined?] at defined
  split at defined
  · rename_i absent
    split at defined
    · rename_i extensible
      exact Or.inl ⟨absent, extensible, (Option.some.inj defined).symm⟩
    · cases defined
  · rename_i current present
    split at defined
    · rename_i admitted
      exact Or.inr ⟨current, present, admitted, (Option.some.inj defined).symm⟩
    · cases defined

/-- A definition writes one slot. -/
theorem redefined?_eq_put (defined : object.redefined? key descriptor = some changed) :
    ∃ property, changed = object.put key property := by
  rcases redefined?_eq_some defined with ⟨_, _, written⟩ | ⟨_, _, _, written⟩
  · exact ⟨_, written⟩
  · exact ⟨_, written⟩

/-- A deletion either finds nothing or erases a configurable slot. -/
theorem deleted?_eq_some (deleted : object.deleted? key = some changed) :
    (object.own? key = none ∧ changed = object) ∨
    (∃ property, object.own? key = some property ∧ property.configurable = true ∧
      changed = object.erased key) := by
  rw [deleted?] at deleted
  split at deleted
  · rename_i absent
    exact Or.inl ⟨absent, (Option.some.inj deleted).symm⟩
  · rename_i property present
    split at deleted
    · rename_i configurable
      exact Or.inr ⟨property, present, configurable, (Option.some.inj deleted).symm⟩
    · cases deleted

/-- Writing the length of an array revises its slot in place, if that slot holds a value. -/
theorem withLength_of_own? {value : Value} {writable enumerable configurable : Bool}
    (slot : object.own? .length = some (.data value writable enumerable configurable))
    (length : Nat) :
    object.withLength length =
      object.put .length (.data (.number (.ofNat length)) writable enumerable configurable) := by
  rw [withLength, slot]

theorem lengthWritable_iff :
    object.lengthWritable = true ↔
      ∃ value enumerable configurable,
        object.own? .length = some (.data value true enumerable configurable) := by
  unfold lengthWritable
  split
  · rename_i value writable enumerable configurable slot
    rw [slot]
    simp
  · rename_i noData
    constructor
    · intro impossible
      cases impossible
    · rintro ⟨value, enumerable, configurable, slot⟩
      exact absurd slot (noData _ _ _ _)

/-! ### Indices -/

theorem mem_indices {index : Nat} :
    index ∈ object.indices ↔ index ≤ maxArrayIndex ∧ (object.own? (.ofIndex index)).isSome := by
  rw [indices, List.mem_filterMap]
  constructor
  · rintro ⟨key, member, spelled⟩
    obtain ⟨rfl, bound⟩ := Key.arrayIndex?_eq_some.mp spelled
    exact ⟨bound, Table.mem_keys.mp member⟩
  · rintro ⟨bound, present⟩
    exact ⟨.ofIndex index, Table.mem_keys.mpr present, Key.arrayIndex?_ofIndex bound⟩

end Object

end EcmaCore
