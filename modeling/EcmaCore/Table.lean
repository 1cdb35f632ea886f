/-
This file holds insertion-ordered tables. A key has at most one entry; writing an
existing key keeps its place, a new key goes to the end, and a key that was erased
and written again is new.
-/

namespace EcmaCore

variable {κ α : Type}

/-! ### Association lists -/

/-- The entries with a value written under a key: in place if the key is there, else at the end. -/
def assign [DecidableEq κ] (key : κ) (value : α) : List (κ × α) → List (κ × α)
  | [] => [(key, value)]
  | (other, old) :: rest =>
    if other = key then (other, value) :: rest else (other, old) :: assign key value rest

theorem map_fst_assign [DecidableEq κ] (key : κ) (value : α) (entries : List (κ × α)) :
    (assign key value entries).map Prod.fst =
      if key ∈ entries.map Prod.fst then entries.map Prod.fst
      else entries.map Prod.fst ++ [key] := by
  induction entries with
  | nil => rfl
  | cons entry rest inductionHypothesis =>
    obtain ⟨other, old⟩ := entry
    by_cases equal : other = key
    · simp [assign, equal]
    · simp only [assign, equal, if_false, List.map_cons, inductionHypothesis, List.mem_cons,
        Ne.symm equal, false_or]
      split <;> rfl

/-- The value of the first entry under a key. -/
def valueAt [DecidableEq κ] (key : κ) : List (κ × α) → Option α
  | [] => none
  | (other, value) :: rest => if other = key then some value else valueAt key rest

theorem valueAt_assign_self [DecidableEq κ] (key : κ) (value : α) (entries : List (κ × α)) :
    valueAt key (assign key value entries) = some value := by
  induction entries with
  | nil => simp [assign, valueAt]
  | cons entry rest inductionHypothesis =>
    obtain ⟨other, old⟩ := entry
    by_cases equal : other = key <;> simp [assign, valueAt, equal, inductionHypothesis]

theorem valueAt_assign_of_ne [DecidableEq κ] {key asked : κ} (different : asked ≠ key) (value : α)
    (entries : List (κ × α)) :
    valueAt asked (assign key value entries) = valueAt asked entries := by
  induction entries with
  | nil => simp [assign, valueAt, Ne.symm different]
  | cons entry rest inductionHypothesis =>
    obtain ⟨other, old⟩ := entry
    by_cases equal : other = key
    · subst equal
      simp [assign, valueAt, Ne.symm different]
    · simp [assign, valueAt, equal, inductionHypothesis]

/-! ### Tables -/

/-- An insertion-ordered table with at most one entry for each key. -/
structure Table (κ α : Type) where
  entries : List (κ × α)
  distinct : (entries.map Prod.fst).Nodup

namespace Table

/-- The table without entries. -/
def empty : Table κ α := ⟨[], List.nodup_nil⟩

instance : Inhabited (Table κ α) := ⟨empty⟩

/-- The keys in insertion order. -/
def keys (table : Table κ α) : List κ := table.entries.map Prod.fst

variable [DecidableEq κ]

/-- The value under a key. -/
def get? (table : Table κ α) (key : κ) : Option α := valueAt key table.entries

/-- The table with a value written under a key. -/
def insert (table : Table κ α) (key : κ) (value : α) : Table κ α where
  entries := assign key value table.entries
  distinct := by
    rw [map_fst_assign]
    split
    · exact table.distinct
    · refine List.nodup_append.mpr ⟨table.distinct, by simp, ?_⟩
      intro other member last lastMember equal
      rw [List.mem_singleton] at lastMember
      subst lastMember
      subst equal
      contradiction

/-- The table without a key's entry. -/
def erase (table : Table κ α) (key : κ) : Table κ α where
  entries := table.entries.filter fun entry => entry.1 ≠ key
  distinct := table.distinct.sublist (List.filter_sublist.map Prod.fst)

/-! ### What a table shows after a change -/

@[simp]
theorem get?_insert_self (table : Table κ α) (key : κ) (value : α) :
    (table.insert key value).get? key = some value :=
  valueAt_assign_self key value table.entries

theorem get?_insert_of_ne (table : Table κ α) {key other : κ} (different : other ≠ key)
    (value : α) : (table.insert key value).get? other = table.get? other :=
  valueAt_assign_of_ne different value table.entries

/-- Writing keeps the place of an existing key and puts a new one last. -/
theorem keys_insert (table : Table κ α) (key : κ) (value : α) :
    (table.insert key value).keys =
      if key ∈ table.keys then table.keys else table.keys ++ [key] :=
  map_fst_assign key value table.entries

/-- Erasing keeps the order of the other keys. -/
theorem keys_erase (table : Table κ α) (key : κ) :
    (table.erase key).keys = table.keys.filter (· ≠ key) := by
  simp [keys, erase, List.filter_map, Function.comp_def]

end Table

end EcmaCore
