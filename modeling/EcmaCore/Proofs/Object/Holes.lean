/-
This file describes arrays with holes: the elements are listed with nothing in the place of
a hole. Such an array gets its length first and is then filled from the front, and an index
that is passed over stays a hole. Its length is not moved by this, since every index is
below it, and nothing that the array inherits matters to what it owns.
-/

import EcmaCore.Proofs.Object.Shapes

namespace EcmaCore

/-- The indices at which there is an element, in ascending order. -/
def presentIndices (elements : List (Option Value)) : List Nat :=
  (List.range elements.length).filter fun index => (elements.getD index none).isSome

section

variable {elements : List (Option Value)} {element : Option Value}

theorem getD_concat (index : Nat) :
    (elements ++ [element]).getD index none =
      if index = elements.length then element else elements.getD index none := by
  rw [List.getD_eq_getElem?_getD, List.getD_eq_getElem?_getD]
  rcases Nat.lt_trichotomy index elements.length with below | same | above
  · rw [List.getElem?_append_left below, if_neg (Nat.ne_of_lt below)]
  · rw [if_pos same, same, List.getElem?_concat_length, Option.getD_some]
  · have outside : elements.length + [element].length ≤ index := above
    rw [← List.length_append] at outside
    rw [List.getElem?_eq_none outside, if_neg (Nat.ne_of_gt above),
      List.getElem?_eq_none (Nat.le_of_lt above)]

theorem getD_of_length_le {index : Nat} (outside : elements.length ≤ index) :
    elements.getD index none = none := by
  rw [List.getD_eq_getElem?_getD, List.getElem?_eq_none outside]
  rfl

theorem presentIndices_concat :
    presentIndices (elements ++ [element]) =
      presentIndices elements ++ if element.isSome then [elements.length] else [] := by
  have same : ∀ index ∈ List.range elements.length,
      ((elements ++ [element]).getD index none).isSome = (elements.getD index none).isSome := by
    intro index member
    rw [getD_concat, if_neg (Nat.ne_of_lt (List.mem_range.mp member))]
  rw [presentIndices, List.length_append, List.length_singleton, List.range_succ,
    List.filter_append, List.filter_congr same, ← presentIndices, List.filter_singleton,
    getD_concat, if_pos rfl, cond_eq_ite]

/-- Without a hole all indices are present. -/
theorem presentIndices_some (values : List Value) :
    presentIndices (values.map some) = List.range values.length := by
  rw [presentIndices, List.length_map]
  refine List.filter_eq_self.mpr fun index member => ?_
  have inside : index < (values.map some).length := by
    rw [List.length_map]
    exact List.mem_range.mp member
  rw [List.getD_eq_getElem?_getD, List.getElem?_eq_getElem inside, List.getElem_map]
  rfl

theorem lt_of_mem_presentIndices {index : Nat} (member : index ∈ presentIndices elements) :
    index < elements.length :=
  List.mem_range.mp (List.mem_filter.mp member).1

end

namespace Object

/-- The object is the array of the given elements, with a hole wherever there is none: it has its
length, a plain property for each element and no further property. -/
structure IsArrayWithHoles (realm : RealmId) (elements : List (Option Value)) (object : Object) :
    Prop where
  kind : object.kind = .array
  prototype : object.prototype = some (Intrinsic.arrayPrototype.id realm)
  extensible : object.extensible = true
  length : object.own? .length = some (lengthSlot elements.length)
  element : ∀ index,
    object.own? (.ofIndex index) = (elements.getD index none).map .plain
  listed : object.ownKeys = (presentIndices elements).map .ofIndex ++ [.length]

/-- An array without a hole is the array of its elements. -/
theorem IsArrayWithHoles.isArrayOf {realm : RealmId} {values : List Value} {object : Object}
    (shape : object.IsArrayWithHoles realm (values.map some)) : object.IsArrayOf realm values where
  kind := shape.kind
  prototype := shape.prototype
  extensible := shape.extensible
  length := by rw [shape.length, List.length_map]
  element index inside := by
    rw [shape.element, List.getD_eq_getElem?_getD, List.getElem?_map,
      List.getElem?_eq_getElem inside]
    rfl
  listed := by rw [shape.listed, presentIndices_some]

/-- An array of the realm that has a length and no elements. -/
def sparseArray (realm : RealmId) (length : Nat) : Object :=
  (emptyArray realm).put .length (lengthSlot length)

/-- The array has a length from the start, and so far it was filled with the given elements. -/
structure PartlyFilled (realm : RealmId) (length : Nat) (elements : List (Option Value))
    (object : Object) : Prop where
  frame : object = { emptyArray realm with table := object.table }
  length : object.own? .length = some (lengthSlot length)
  element : ∀ index, object.own? (.ofIndex index) = (elements.getD index none).map .plain
  keys : object.table.keys = .length :: (presentIndices elements).map .ofIndex

theorem partlyFilled_sparseArray (realm : RealmId) (length : Nat) :
    (sparseArray realm length).PartlyFilled realm length [] where
  frame := rfl
  length := own?_put_self _ _ _
  element index := by
    rw [sparseArray, own?_put_of_ne _ (Key.ofIndex_ne_length index), emptyArray,
      own?_put_of_ne _ (Key.ofIndex_ne_length index)]
    rfl
  keys := rfl

namespace PartlyFilled

variable {realm : RealmId} {length : Nat} {elements : List (Option Value)} {object : Object}

theorem isArray (filled : object.PartlyFilled realm length elements) : object.isArray = true := by
  rw [filled.frame]
  rfl

/-- An index that is passed over stays a hole. -/
theorem hole (filled : object.PartlyFilled realm length elements) :
    object.PartlyFilled realm length (elements ++ [none]) where
  frame := filled.frame
  length := filled.length
  element index := by
    rw [filled.element, getD_concat]
    split
    · rename_i last
      rw [last, getD_of_length_le (Nat.le_refl _)]
    · rfl
  keys := by
    rw [filled.keys, presentIndices_concat]
    exact congrArg _ (congrArg _ (List.append_nil _).symm)

/-- The next element is a new property, which comes last in the table. -/
theorem put (filled : object.PartlyFilled realm length elements) (value : Value) :
    (object.put (.ofIndex elements.length) (.plain value)).PartlyFilled realm length
      (elements ++ [some value]) where
  frame := congrArg (·.put (.ofIndex elements.length) (.plain value)) filled.frame
  length := by rw [own?_put_of_ne _ (Key.ofIndex_ne_length _).symm, filled.length]
  element index := by
    rw [own?_put, getD_concat, filled.element]
    by_cases last : index = elements.length
    · rw [if_pos last, if_pos (congrArg Key.ofIndex last), Option.map_some]
    · rw [if_neg last, if_neg fun same => last (Key.ofIndex_injective same)]
  keys := by
    have new : object.own? (.ofIndex elements.length) = none := by
      rw [filled.element, getD_of_length_le (Nat.le_refl _), Option.map_none]
    rw [keys_put, new, if_neg (by simp), filled.keys, presentIndices_concat,
      if_pos Option.isSome_some, List.map_append]
    rfl

/-- Creating an element below the length writes a slot and leaves the length alone. -/
theorem created_eq (filled : object.PartlyFilled realm length elements)
    (inside : elements.length < length) (bound : length ≤ maxLength) (value : Value) :
    object.created (.ofIndex elements.length) value =
      object.put (.ofIndex elements.length) (.plain value) := by
  have index : (Key.ofIndex elements.length).arrayIndex? = some elements.length :=
    Key.arrayIndex?_ofIndex (Nat.le_of_lt_succ (Nat.lt_of_lt_of_le inside bound))
  rw [created, filled.isArray, index]
  dsimp only
  rw [arrayLength_of_slot bound filled.length, if_neg (Nat.not_le_of_lt inside)]

/-- Elements may be created freely: those that are there can be replaced, and the length is
writable. -/
theorem receptive (filled : object.PartlyFilled realm length elements) : object.Receptive where
  extensible := by
    rw [filled.frame]
    rfl
  configurable key property slot free := by
    have listed : key ∈ object.table.keys := mem_table_keys.mpr (by rw [slot]; rfl)
    rw [filled.keys] at listed
    rcases List.mem_cons.mp listed with same | member
    · exact absurd same (free filled.isArray)
    · obtain ⟨index, _, rfl⟩ := List.mem_map.mp member
      rw [filled.element] at slot
      obtain ⟨value, _, rfl⟩ := Option.map_eq_some_iff.mp slot
      rfl
  lengthWritable _ := lengthWritable_iff.mpr ⟨_, _, _, filled.length⟩

theorem listed (filled : object.PartlyFilled realm length elements)
    (bound : elements.length ≤ maxLength) :
    object.ownKeys = (presentIndices elements).map .ofIndex ++ [.length] := by
  refine ownKeys_of_keys filled.keys (List.Pairwise.filter _ List.pairwise_lt_range) ?_
  intro index member
  exact Nat.le_of_lt_succ (Nat.lt_of_lt_of_le (lt_of_mem_presentIndices member) bound)

/-- An array that was filled up to its length is the array of its elements. -/
theorem isArrayWithHoles (filled : object.PartlyFilled realm elements.length elements)
    (bound : elements.length ≤ maxLength) : object.IsArrayWithHoles realm elements where
  kind := congrArg Object.kind filled.frame
  prototype := congrArg Object.prototype filled.frame
  extensible := congrArg Object.extensible filled.frame
  length := filled.length
  element := filled.element
  listed := filled.listed bound

end PartlyFilled

end Object

end EcmaCore
