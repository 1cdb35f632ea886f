/-
This file holds how one object changes when a property is defined or deleted. All of
it is a function of the object alone: no other object is read, and nothing is called.
A refused change is `none`, so a refusal cannot leave a trace.

The one definition that may be refused and still change the object is a shorter
array length. Elements go from the top down, and the first that may not be deleted
stops the rest; what was deleted before it stays deleted.
-/

import EcmaCore.Object.Basic

namespace EcmaCore.Object

/-- The object after a property is defined by the rules that all objects share. -/
def redefined? (object : Object) (key : Key) (descriptor : Descriptor) : Option Object :=
  match object.own? key with
  | none => if object.extensible then some (object.put key descriptor.toProperty) else none
  | some current =>
    if current.admits descriptor then some (object.put key (current.revised descriptor)) else none

/-- The object after a property is deleted. A property that is not there counts as deleted. -/
def deleted? (object : Object) (key : Key) : Option Object :=
  match object.own? key with
  | none => some object
  | some property =>
    if property.configurable then some { object with table := object.table.erase key } else none

/-! ### Array length -/

/-- The length that an array's slot says, zero if the slot holds no number. -/
def arrayLength (object : Object) : Nat :=
  match object.own? .length with
  | some (.data (.number value) _ _ _) => value.clampedUint32
  | _ => 0

/-- The length of the array may be changed. -/
def lengthWritable (object : Object) : Bool :=
  match object.own? .length with
  | some (.data _ writable _ _) => writable
  | _ => false

/-- The object with another value in the slot of its length. -/
def withLength (object : Object) (length : Nat) : Object :=
  match object.own? .length with
  | some (.data _ writable enumerable configurable) =>
    object.put .length (.data (.number (.ofNat length)) writable enumerable configurable)
  | _ => object

/-- The object with its length made read-only, if it can be. -/
def lengthLocked (object : Object) : Object :=
  (object.redefined? .length { writable := some false }).getD object

/-- Deletes elements in the order given, up to the first that may not be deleted. -/
def deleteIndices (object : Object) : List Nat → Object × Option Nat
  | [] => (object, none)
  | index :: rest =>
    match object.deleted? (.ofIndex index) with
    | some smaller => smaller.deleteIndices rest
    | none => (object, some index)

/-- The array indices from a length on, the largest first. -/
def indicesFrom (object : Object) (length : Nat) : List Nat :=
  (ascending (object.indices.filter (length ≤ ·))).reverse

/-- The array after its length is defined, and whether all of the request was met. A request to
make the length read-only waits until the elements are gone. -/
def lengthDefined (object : Object) (length : Nat) (descriptor : Descriptor) : Object × Bool :=
  let request := { descriptor with value := some (.number (.ofNat length)) }
  let attempt (request : Descriptor) : Object × Bool :=
    match object.redefined? .length request with
    | some changed => (changed, true)
    | none => (object, false)
  if object.arrayLength ≤ length then attempt request
  else if !object.lengthWritable then (object, false)
  else
    let locks := request.writable == some false
    let finish (shortened : Object) := if locks then shortened.lengthLocked else shortened
    match object.redefined? .length { request with writable := some true } with
    | none => (object, false)
    | some shorter =>
      match shorter.deleteIndices (shorter.indicesFrom length) with
      | (emptied, none) => (finish emptied, true)
      | (stuck, some index) => (finish (stuck.withLength (index + 1)), false)

/-- The array after an element is defined. An element at or above the length moves the length up,
which a read-only length forbids. -/
def elementDefined? (object : Object) (index : Nat) (descriptor : Descriptor) : Option Object :=
  if object.arrayLength ≤ index ∧ object.lengthWritable = false then none
  else
    (object.redefined? (.ofIndex index) descriptor).map fun changed =>
      if object.arrayLength ≤ index then changed.withLength (index + 1) else changed

end EcmaCore.Object
