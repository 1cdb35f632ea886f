/-
This file replaces the identities that stand in an object by others: in its prototype, in
the values of its slots and in their accessors. Everything else about the object stays,
the order of its keys above all, so two objects that are equal up to a renaming differ in
nothing that a script could see apart from identities.

Creating properties does the same before a renaming as after it.
-/

import EcmaCore.Proofs.Object.Creation

namespace EcmaCore

/-! ### Tables -/

namespace Table

variable {κ α β : Type}

/-- The table with every value changed, under the same keys in the same order. -/
def mapValues (change : α → β) (table : Table κ α) : Table κ β where
  entries := table.entries.map fun entry => (entry.1, change entry.2)
  distinct := by
    rw [List.map_map]
    exact table.distinct

theorem eq_of_entries {first second : Table κ α} (same : first.entries = second.entries) :
    first = second := by
  cases first
  cases second
  cases same
  rfl

variable [DecidableEq κ]

theorem get?_mapValues (change : α → β) (table : Table κ α) (key : κ) :
    (table.mapValues change).get? key = (table.get? key).map change := by
  have entries : ∀ entries : List (κ × α),
      valueAt key (entries.map fun entry => (entry.1, change entry.2)) =
        (valueAt key entries).map change := by
    intro entries
    induction entries with
    | nil => rfl
    | cons entry rest inductionHypothesis =>
      rw [List.map_cons, valueAt, valueAt, inductionHypothesis]
      split <;> rfl
  exact entries table.entries

theorem mapValues_insert (change : α → β) (table : Table κ α) (key : κ) (value : α) :
    (table.insert key value).mapValues change =
      (table.mapValues change).insert key (change value) := by
  have entries : ∀ entries : List (κ × α),
      (assign key value entries).map (fun entry => (entry.1, change entry.2)) =
        assign key (change value) (entries.map fun entry => (entry.1, change entry.2)) := by
    intro entries
    induction entries with
    | nil => rfl
    | cons entry rest inductionHypothesis =>
      rw [assign, List.map_cons, assign]
      split
      · rfl
      · rw [List.map_cons, inductionHypothesis]
  exact eq_of_entries (entries table.entries)

end Table

/-! ### Values and properties -/

/-- The value with its identity replaced. -/
def Value.renamed (rename : ObjectId → ObjectId) : Value → Value
  | .object id => .object (rename id)
  | primitive => primitive

/-- The property with the identities in it replaced. -/
def Property.renamed (rename : ObjectId → ObjectId) : Property → Property
  | .data value writable enumerable configurable =>
    .data (value.renamed rename) writable enumerable configurable
  | .accessor getter setter enumerable configurable =>
    .accessor (getter.map (·.renamed rename)) (setter.map (·.renamed rename)) enumerable
      configurable

/-! ### Objects -/

namespace Object

/-- The object with the identities in its slots and its prototype replaced. What a call of it does
is code and stays as it is. -/
def renamed (rename : ObjectId → ObjectId) (object : Object) : Object :=
  { object with table := object.table.mapValues (·.renamed rename),
                prototype := object.prototype.map rename }

variable (rename : ObjectId → ObjectId)

theorem own?_renamed (object : Object) (key : Key) :
    (object.renamed rename).own? key = (object.own? key).map (·.renamed rename) :=
  Table.get?_mapValues _ object.table key

theorem renamed_put (object : Object) (key : Key) (property : Property) :
    (object.put key property).renamed rename =
      (object.renamed rename).put key (property.renamed rename) := by
  unfold renamed put
  rw [Table.mapValues_insert]

theorem arrayLength_renamed (object : Object) :
    (object.renamed rename).arrayLength = object.arrayLength := by
  unfold arrayLength
  rw [own?_renamed]
  cases object.own? .length with
  | none => rfl
  | some property =>
    cases property with
    | data value writable enumerable configurable => cases value <;> rfl
    | accessor getter setter enumerable configurable => rfl

theorem renamed_withLength (object : Object) (length : Nat) :
    (object.withLength length).renamed rename = (object.renamed rename).withLength length := by
  unfold withLength
  rw [own?_renamed]
  cases object.own? .length with
  | none => rfl
  | some property =>
    cases property with
    | data value writable enumerable configurable => exact renamed_put rename object .length _
    | accessor getter setter enumerable configurable => rfl

theorem renamed_created (object : Object) (key : Key) (value : Value) :
    (object.created key value).renamed rename =
      (object.renamed rename).created key (value.renamed rename) := by
  have filled : (object.put key (.plain value)).renamed rename =
      (object.renamed rename).put key (.plain (value.renamed rename)) :=
    renamed_put rename object key _
  have sameKind : (object.renamed rename).isArray = object.isArray := rfl
  unfold created
  rw [sameKind, arrayLength_renamed]
  split
  · dsimp only
    split
    · rw [renamed_withLength, filled]
    · exact filled
  · exact filled

theorem renamed_createdAll (object : Object) (entries : List (Key × Value)) :
    (object.createdAll entries).renamed rename =
      (object.renamed rename).createdAll
        (entries.map fun entry => (entry.1, entry.2.renamed rename)) := by
  induction entries generalizing object with
  | nil => rfl
  | cons entry entries inductionHypothesis =>
    rw [List.map_cons, createdAll, List.foldl_cons, ← createdAll, inductionHypothesis,
      renamed_created]
    rfl

end Object

/-- The entries of an array keep their indices. -/
theorem indexed_renamed (rename : ObjectId → ObjectId) (values : List Value) :
    indexed (values.map (·.renamed rename)) =
      (indexed values).map fun entry => (entry.1, entry.2.renamed rename) := by
  rw [indexed, indexed, List.zipIdx_map, List.map_map, List.map_map]
  rfl

end EcmaCore
