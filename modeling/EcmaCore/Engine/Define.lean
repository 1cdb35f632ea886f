/-
This file holds definitions and assignments on the objects of a world. A definition
changes one object and calls nothing, with one exception: a value given for an
array's length is converted to a number first, and that may call scripts, which may
change the very array. So the length is read again after the conversion.
-/

import EcmaCore.Engine.Convert
import EcmaCore.Object.Define

namespace EcmaCore

/-! ### Definitions -/

/-- Changes an object if the change is allowed, and says whether it was. -/
def Run.changeObject (id : ObjectId) (change : Object → Option Object) : Run Bool := do
  match change (← Run.object id) with
  | some changed => do Run.modifyObject id fun _ => changed; return true
  | none => pure false

/-- Defines the length of an array. Only the integers up to `2 ^ 32 - 1` are lengths. -/
def defineLength (call : Caller) (realm : RealmId) (id : ObjectId) (descriptor : Descriptor) :
    Run Bool :=
  match descriptor.value with
  | none => Run.changeObject id (·.redefined? .length descriptor)
  | some value => do
    let number ← toNumber call realm value
    if (Number.ofNat number.toUint32).equals number then do
      let (changed, met) := (← Run.object id).lengthDefined number.toUint32 descriptor
      Run.modifyObject id fun _ => changed
      return met
    else Run.throw .invalidLength

/-- Defines an own property and says whether the object allowed it. -/
def define (call : Caller) (realm : RealmId) (id : ObjectId) (key : Key)
    (descriptor : Descriptor) : Run Bool := do
  if (← Run.object id).isArray then
    if key = .length then defineLength call realm id descriptor
    else match key.arrayIndex? with
      | some index => Run.changeObject id (·.elementDefined? index descriptor)
      | none => Run.changeObject id (·.redefined? key descriptor)
  else Run.changeObject id (·.redefined? key descriptor)

/-- Defines an own property; a refusal is an error. -/
def defineOrThrow (call : Caller) (realm : RealmId) (id : ObjectId) (key : Key)
    (descriptor : Descriptor) : Run Unit := do
  if ← define call realm id key descriptor then pure () else Run.throw (.notRedefinable key)

/-- Defines a plain data property and says whether the object allowed it. Setters are never asked,
own or inherited. -/
def create (call : Caller) (realm : RealmId) (id : ObjectId) (key : Key) (value : Value) :
    Run Bool :=
  define call realm id key (.data value true true true)

/-- Defines a plain data property; a refusal is an error. -/
def createOrThrow (call : Caller) (realm : RealmId) (id : ObjectId) (key : Key) (value : Value) :
    Run Unit := do
  if ← create call realm id key value then pure () else Run.throw (.notExtensible key)

/-- Defines plain data properties, one after another. -/
def createAll (call : Caller) (realm : RealmId) (id : ObjectId) : List (Key × Value) → Run Unit
  | [] => pure ()
  | (key, value) :: rest => do
    createOrThrow call realm id key value
    createAll call realm id rest

/-- Makes an object of the realm with plain data properties. -/
def objectOf (call : Caller) (realm : RealmId) (entries : List (Key × Value)) : Run ObjectId := do
  let id ← Run.allocate realm (.plain realm)
  createAll call realm id entries
  return id

/-- Deletes an own property and says whether the object allowed it. -/
def delete (id : ObjectId) (key : Key) : Run Bool := Run.changeObject id (·.deleted? key)

/-! ### Assignment -/

/-- Writes a value to a data property of the receiver, which is changed in place or created. -/
def writeTo (call : Caller) (realm : RealmId) (receiver : Value) (key : Key) (value : Value) :
    Run Bool :=
  match receiver with
  | .object target => do
    match (← Run.object target).own? key with
    | some (.accessor ..) => pure false
    | some (.data _ false _ _) => pure false
    | some (.data _ true _ _) => define call realm target key { value := some value }
    | none => create call realm target key value
  | _ => pure false

/-- Assigns to a property on behalf of a receiver. The nearest holder of the key decides: a setter
is called, a read-only property refuses, and else the receiver is written. -/
def setFor (call : Caller) (realm : RealmId) (id : ObjectId) (key : Key) (value receiver : Value) :
    Run Bool := do
  match ← Run.search id key with
  | some (.accessor _ (some setter) _ _) => do
    let _ ← call realm setter receiver [value]
    return true
  | some (.accessor _ none _ _) => pure false
  | some (.data _ false _ _) => pure false
  | some (.data _ true _ _) => writeTo call realm receiver key value
  | none => writeTo call realm receiver key value

/-- Assigns to a property of an object; a refusal is an error. -/
def set (call : Caller) (realm : RealmId) (id : ObjectId) (key : Key) (value : Value) :
    Run Unit := do
  if ← setFor call realm id key value (.object id) then pure () else Run.throw (.readOnly key)

end EcmaCore
