/-
This file is about objects on which creating a plain property cannot fail. Such an
object is extensible, each of its slots is configurable, and the one slot that never
is, the length of an array, is at least writable. Creation keeps all of this, so it
may be repeated without end. A new object of either class starts out this way.
-/

import EcmaCore.Engine.Array
import EcmaCore.Proofs.Object.Slots

namespace EcmaCore.Object

variable {object : Object}

/-- Any plain property may be created, except in the place of an array's length. -/
structure Receptive (object : Object) : Prop where
  extensible : object.extensible = true
  configurable : ∀ key property, object.own? key = some property →
    (object.isArray = true → key ≠ .length) → property.configurable = true
  lengthWritable : object.isArray = true → object.lengthWritable = true

/-- The object with a plain property created. An element at or above the length of an array moves
the length up. -/
def created (object : Object) (key : Key) (value : Value) : Object :=
  let filled := object.put key (.plain value)
  match object.isArray, key.arrayIndex? with
  | true, some index => if object.arrayLength ≤ index then filled.withLength (index + 1) else filled
  | _, _ => filled

/-- The object with plain properties created one after another. -/
def createdAll (object : Object) (entries : List (Key × Value)) : Object :=
  entries.foldl (fun filled entry => filled.created entry.1 entry.2) object

/-! ### Creation keeps what it needs -/

@[simp]
theorem withLength_isArray (object : Object) (length : Nat) :
    (object.withLength length).isArray = object.isArray := by
  unfold withLength
  split <;> rfl

@[simp]
theorem withLength_extensible (object : Object) (length : Nat) :
    (object.withLength length).extensible = object.extensible := by
  unfold withLength
  split <;> rfl

@[simp]
theorem withLength_prototype (object : Object) (length : Nat) :
    (object.withLength length).prototype = object.prototype := by
  unfold withLength
  split <;> rfl

theorem withLength_own?_of_ne {key : Key} (different : key ≠ .length) (object : Object)
    (length : Nat) : (object.withLength length).own? key = object.own? key := by
  unfold withLength
  split
  · exact own?_put_of_ne object different _
  · rfl

theorem lengthWritable_withLength (writable : object.lengthWritable = true) (length : Nat) :
    (object.withLength length).lengthWritable = true := by
  obtain ⟨value, enumerable, configurable, slot⟩ := lengthWritable_iff.mp writable
  rw [withLength_of_own? slot]
  exact lengthWritable_iff.mpr ⟨_, _, _, own?_put_self _ _ _⟩

theorem lengthWritable_put {key : Key} (different : key ≠ .length)
    (writable : object.lengthWritable = true) (property : Property) :
    (object.put key property).lengthWritable = true := by
  obtain ⟨value, enumerable, configurable, slot⟩ := lengthWritable_iff.mp writable
  exact lengthWritable_iff.mpr
    ⟨value, enumerable, configurable, by rwa [own?_put_of_ne object different.symm]⟩

@[simp]
theorem created_isArray (object : Object) (key : Key) (value : Value) :
    (object.created key value).isArray = object.isArray := by
  unfold created
  split
  · split
    · exact withLength_isArray _ _
    · rfl
  · rfl

theorem Receptive.put (receptive : object.Receptive) {key : Key}
    (allowed : object.isArray = true → key ≠ .length) (value : Value) :
    (object.put key (.plain value)).Receptive where
  extensible := receptive.extensible
  configurable other property slot free := by
    rw [own?_put] at slot
    split at slot
    · cases slot
      rfl
    · exact receptive.configurable other property slot free
  lengthWritable array := lengthWritable_put (allowed array) (receptive.lengthWritable array) _

theorem Receptive.withLength (receptive : object.Receptive) (array : object.isArray = true)
    (length : Nat) : (object.withLength length).Receptive where
  extensible := by rw [withLength_extensible, receptive.extensible]
  configurable key property slot free := by
    have different : key ≠ .length := free (by rwa [withLength_isArray])
    rw [withLength_own?_of_ne different] at slot
    exact receptive.configurable key property slot fun _ => different
  lengthWritable _ := lengthWritable_withLength (receptive.lengthWritable array) length

theorem Receptive.created (receptive : object.Receptive) {key : Key}
    (allowed : object.isArray = true → key ≠ .length) (value : Value) :
    (object.created key value).Receptive := by
  unfold Object.created
  split
  · rename_i array _
    split
    · exact (receptive.put allowed value).withLength array _
    · exact receptive.put allowed value
  · exact receptive.put allowed value

/-! ### Creation succeeds -/

/-- A plain property takes the place of any configurable one, whatever kind that was. -/
theorem revised_plain (current : Property) (value : Value) :
    current.revised (.data value true true true) = .plain value := by
  cases current <;> rfl

theorem Receptive.redefined? (receptive : object.Receptive) {key : Key}
    (allowed : object.isArray = true → key ≠ .length) (value : Value) :
    object.redefined? key (.data value true true true) = some (object.put key (.plain value)) := by
  unfold Object.redefined?
  split
  · rw [if_pos receptive.extensible]
    rfl
  · rename_i current slot
    have admitted : current.admits (.data value true true true) = true := by
      rw [Property.admits, receptive.configurable key current slot allowed, Bool.true_or]
    rw [if_pos admitted, revised_plain]

theorem Receptive.elementDefined? (receptive : object.Receptive) (array : object.isArray = true)
    {key : Key} {index : Nat} (spelled : key.arrayIndex? = some index) (value : Value) :
    object.elementDefined? index (.data value true true true) =
      some (object.created key value) := by
  obtain ⟨rfl, bound⟩ := Key.arrayIndex?_eq_some.mp spelled
  have free : ¬ (object.arrayLength ≤ index ∧ object.lengthWritable = false) := by
    rw [receptive.lengthWritable array]
    simp
  rw [Object.elementDefined?, if_neg free,
    receptive.redefined? (fun _ => Key.ofIndex_ne_length index), Object.created, array, spelled,
    Option.map_some]

theorem created_of_noElement {key : Key} (value : Value)
    (other : object.isArray = true → key.arrayIndex? = none) :
    object.created key value = object.put key (.plain value) := by
  unfold created
  split
  · rename_i index array spelled
    rw [other array] at spelled
    cases spelled
  · rfl

/-! ### New objects -/

/-- An object without properties is receptive unless it is an array. -/
theorem receptive_of_empty (empty : ∀ key, object.own? key = none)
    (ordinary : object.isArray = false)
    (extensible : object.extensible = true) : object.Receptive where
  extensible := extensible
  configurable key property slot _ := by
    rw [empty] at slot
    cases slot
  lengthWritable array := by
    rw [ordinary] at array
    cases array

theorem receptive_plain (realm : RealmId) : (plain realm).Receptive :=
  receptive_of_empty (fun _ => rfl) rfl rfl

theorem receptive_default : (default : Object).Receptive :=
  receptive_of_empty (fun _ => rfl) rfl rfl

theorem receptive_emptyArray (realm : RealmId) : (emptyArray realm).Receptive where
  extensible := rfl
  configurable key property slot free := by
    rw [emptyArray, own?_put_of_ne _ (free rfl)] at slot
    cases slot
  lengthWritable _ := lengthWritable_iff.mpr ⟨_, _, _, own?_put_self _ _ _⟩

end EcmaCore.Object
