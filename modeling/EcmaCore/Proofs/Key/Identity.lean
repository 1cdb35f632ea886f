/-
This file proves that a key is the sequence of its units and nothing else. Keys are
made from the units of a string, from a name in the program or from a name in a JSON text,
and are kept in one of two forms; but the units decide the form, so keys that
were made in different ways are equal exactly if their units are. A table that is
looked up by keys is therefore one that is looked up by units.
-/

import EcmaCore.Engine.Call
import EcmaCore.Json.Value
import EcmaCore.Proofs.Object.Slots
import EcmaCore.Proofs.Run.Outcome
import EcmaCore.Proofs.Text.Surrogates
import Mathlib.Data.List.Nodup

namespace EcmaCore

/-! ### Two forms -/

namespace Key

theorem units_injective : Function.Injective Key.units :=
  Function.LeftInverse.injective ofUnits_units

theorem ofUnits_injective : Function.Injective Key.ofUnits :=
  Function.LeftInverse.injective units_ofUnits

/-- A key is kept as text exactly if every surrogate among its units has a partner. -/
theorem exists_ofUnits_eq_text_iff (units : Units) :
    (∃ name, ofUnits units = .text name) ↔ ∀ position, ¬ Unpaired units position := by
  rw [← wellFormed_iff_forall_not_unpaired, ofUnits]
  split
  · rename_i wellFormed
    exact iff_of_true ⟨_, rfl⟩ wellFormed
  · rename_i illFormed
    refine iff_of_false ?_ illFormed
    rintro ⟨name, same⟩
    cases same

end Key

/-! ### Keys of values and of members -/

variable {call : Caller} {realm : RealmId} {world after : World}

/-- The key of a value has the units of the string that the value converts to. -/
theorem outcome_toKey_iff {value : Value} {key : Key} :
    (toKey call realm value).outcome world = .done key after ↔
      (toUnits call realm value).outcome world = .done key.units after := by
  constructor
  · intro converted
    obtain ⟨units, between, string, ended⟩ := Run.exists_of_outcome_bind converted
    cases ended
    rwa [Key.units_ofUnits]
  · intro string
    rw [toKey, Run.outcome_bind_of_done string, Key.ofUnits_units]
    rfl

/-- The keys of members have the units of their names. -/
theorem Json.units_of_plantMembers {members : List (Units × Json.Tree)}
    {entries : List (Key × Value)}
    (planted : (Json.plantMembers call realm members).outcome world = .done entries after) :
    entries.map (fun entry => entry.1.units) = members.map Prod.fst := by
  induction members generalizing entries world with
  | nil =>
    cases planted
    rfl
  | cons member members inductionHypothesis =>
    obtain ⟨value, between, -, planted⟩ := Run.exists_of_outcome_bind planted
    obtain ⟨others, last, rest, planted⟩ := Run.exists_of_outcome_bind planted
    cases planted
    rw [List.map_cons, List.map_cons, inductionHypothesis rest, Key.units_ofUnits]

/-! ### Tables -/

namespace Table

variable {α : Type} {table : Table Key α}

/-- No two entries have the same units. -/
theorem nodup_units (table : Table Key α) : (table.keys.map Key.units).Nodup :=
  List.Nodup.map Key.units_injective table.distinct

/-- A look-up finds the entry with the units that are asked for. -/
theorem get?_ofUnits_eq_some_iff {units : Units} {value : α} :
    table.get? (.ofUnits units) = some value ↔
      ∃ entry ∈ table.entries, entry.1.units = units ∧ entry.2 = value := by
  constructor
  · intro found
    exact ⟨_, mem_of_valueAt found, Key.units_ofUnits units, rfl⟩
  · rintro ⟨⟨key, other⟩, member, rfl, rfl⟩
    rw [Key.ofUnits_units]
    exact valueAt_of_mem table.distinct member

end Table

/-! ### Identity -/

/-- Keys are the sequences of units. A key has the units that it was made of, so keys are equal if
these are; it is kept as text exactly if every surrogate has its partner, and then it is the key
that the text names. The key of a value has the units of its string, the keys of a JSON object
have those of the names in the text, and in every table there is at most one entry for a
sequence of units, which is what a look-up finds. -/
theorem Key.identified_by_units (units : Units) :
    (Key.ofUnits units).units = units ∧
      (∀ other, Key.ofUnits units = Key.ofUnits other ↔ units = other) ∧
      ((∃ name, Key.ofUnits units = .text name) ↔ ∀ position, ¬ Unpaired units position) ∧
      (∀ name, Key.ofUnits (unitsOf name) = .text name) ∧
      (∀ call realm world value key after,
        (toKey call realm value).outcome world = .done key after ↔
          (toUnits call realm value).outcome world = .done key.units after) ∧
      (∀ call realm world members entries after,
        (Json.plantMembers call realm members).outcome world = .done entries after →
          entries.map (fun entry => entry.1.units) = members.map Prod.fst) ∧
      ∀ (α : Type) (table : Table Key α), (table.keys.map Key.units).Nodup ∧
        ∀ value, table.get? (.ofUnits units) = some value ↔
          ∃ entry ∈ table.entries, entry.1.units = units ∧ entry.2 = value := by
  refine ⟨units_ofUnits units, fun other => ofUnits_injective.eq_iff,
    exists_ofUnits_eq_text_iff units, fun name => ofUnits_units (.text name), ?_, ?_, ?_⟩
  · intro call realm world value key after
    exact outcome_toKey_iff
  · intro call realm world members entries after planted
    exact Json.units_of_plantMembers planted
  · intro α table
    exact ⟨table.nodup_units, fun value => Table.get?_ofUnits_eq_some_iff⟩

/-- Two members whose names are different high surrogates have different keys, though the names
would be repaired to the same text. -/
theorem Key.identified_by_units_of_surrogates :
    let members : List (Units × Json.Tree) := [([0xD800], .null), ([0xD801], .null)]
    ∃ entries,
      (Json.plantMembers (callWithin 0) 0 members).outcome (.fresh 1) =
          .done entries (.fresh 1) ∧
        entries.map (fun entry => entry.1.units) = [[0xD800], [0xD801]] ∧
        Key.ofUnits [0xD800] ≠ Key.ofUnits [0xD801] ∧ lossy [0xD800] = lossy [0xD801] := by
  intro members
  obtain ⟨-, different, -, -, -, planted, -⟩ := Key.identified_by_units [0xD800]
  have done : (Json.plantMembers (callWithin 0) 0 members).outcome (.fresh 1) =
      .done [(.ofUnits [0xD800], .null), (.ofUnits [0xD801], .null)] (.fresh 1) := rfl
  exact ⟨_, done, planted _ _ _ _ _ _ done, fun same => absurd ((different _).mp same) (by decide),
    by decide⟩

end EcmaCore
