/-
This file says what the box of a string shows. Each unit has its own property, under the
index of its place and with a string of that unit alone as the value, and the length is the
number of units. A box has nothing else, and all that it has is its own.
-/

import EcmaCore.Engine.Convert
import EcmaCore.Proofs.Object.Slots
import Mathlib.Data.List.Nodup

namespace EcmaCore.Object

variable {object : Object} {key : Key} {property : Property} {entries : List (Key × Property)}

/-! ### Many slots -/

/-- What is not among the entries stays as it was. -/
theorem own?_putAll_of_not_mem (missing : key ∉ entries.map Prod.fst) :
    (object.putAll entries).own? key = object.own? key := by
  unfold putAll
  induction entries generalizing object with
  | nil => rfl
  | cons entry rest inductionHypothesis =>
    rw [List.map_cons, List.mem_cons, not_or] at missing
    rw [List.foldl_cons, inductionHypothesis missing.2, own?_put_of_ne _ missing.1]

/-- Entries with different keys are all there. -/
theorem own?_putAll_of_mem (distinct : (entries.map Prod.fst).Nodup)
    (member : (key, property) ∈ entries) :
    (object.putAll entries).own? key = some property := by
  induction entries generalizing object with
  | nil => cases member
  | cons entry rest inductionHypothesis =>
    rw [List.map_cons, List.nodup_cons] at distinct
    rcases List.mem_cons.mp member with rfl | later
    · have first : ((object.put key property).putAll rest).own? key = some property := by
        rw [own?_putAll_of_not_mem distinct.1, own?_put_self]
      exact first
    · exact inductionHypothesis distinct.2 later

/-! ### Boxes -/

/-- The slots of the units of a string. -/
def unitEntries (units : Units) : List (Key × Property) :=
  units.zipIdx.map fun (unit, index) => (.ofIndex index, unitSlot unit)

/-- The slot of the length of a box. -/
def boxLength (units : Units) : Property := .data (.number (.ofNat units.length)) false false false

theorem keys_unitEntries (units : Units) :
    (unitEntries units).map Prod.fst = (List.range units.length).map .ofIndex := by
  have indices : units.zipIdx.map Prod.snd = List.range units.length := by
    rw [List.zipIdx_map_snd, List.range_eq_range']
  rw [← indices, unitEntries, List.map_map, List.map_map]
  rfl

theorem nodup_boxKeys (units : Units) :
    ((unitEntries units ++ [(Key.length, boxLength units)]).map Prod.fst).Nodup := by
  rw [List.map_append, keys_unitEntries, List.map_singleton, List.nodup_append]
  refine ⟨List.nodup_range.map Key.ofIndex_injective, List.nodup_singleton _, ?_⟩
  intro key member other last
  obtain ⟨index, _, rfl⟩ := List.mem_map.mp member
  obtain rfl := List.mem_singleton.mp last
  exact Key.ofIndex_ne_length index

theorem own?_length_ofString (realm : RealmId) (units : Units) :
    (ofString realm units).own? .length = some (boxLength units) :=
  own?_putAll_of_mem (nodup_boxKeys units)
    (List.mem_append_right _ (List.mem_singleton_self _))

theorem own?_index_ofString (realm : RealmId) {units : Units} {index : Nat}
    (inside : index < units.length) :
    (ofString realm units).own? (.ofIndex index) = some (unitSlot units[index]) := by
  refine own?_putAll_of_mem (nodup_boxKeys units) (List.mem_append_left _ ?_)
  refine List.mem_map.mpr ⟨(units[index], index), ?_, rfl⟩
  exact List.mk_mem_zipIdx_iff_getElem?.mpr (List.getElem?_eq_getElem inside)

end EcmaCore.Object
