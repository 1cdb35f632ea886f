/-
This file holds arrays: how they are made, mapped and joined. An array starts empty and
is filled by definition, so no setter that it inherits is ever asked. Mapping reads the
source as any script would. Joining remembers the arrays whose join is running in the
realm; one that is reached again contributes nothing, so a cycle comes to an end.
-/

import EcmaCore.Engine.Define
import EcmaCore.World.Loop

namespace EcmaCore

/-- The largest length of an array. -/
def maxLength : Nat := Nat.pow 2 32 - 1

/-! ### Making arrays -/

/-- The elements under their indices. -/
def indexed (elements : List Value) : List (Key × Value) :=
  elements.zipIdx.map fun (element, index) => (.ofIndex index, element)

/-- Makes an array with the given elements. -/
def arrayOf (call : Caller) (realm : RealmId) (elements : List Value) : Run ObjectId := do
  let id ← Run.allocate realm (.emptyArray realm)
  createAll call realm id (indexed elements)
  return id

/-- Makes an array that has a length and no elements. -/
def arrayOfLength (call : Caller) (realm : RealmId) (length : Number) : Run ObjectId := do
  let id ← Run.allocate realm (.emptyArray realm)
  set call realm id .length (.number length)
  return id

/-- What the array constructor makes of its arguments: a single number is a length, anything else
is the list of elements. -/
def constructArray (call : Caller) (realm : RealmId) (arguments : List Value) : Run ObjectId :=
  match arguments with
  | [.number length] =>
    match length.integer? with
    | some integer =>
      if 0 ≤ integer ∧ integer ≤ maxLength then arrayOfLength call realm length
      else Run.throw .invalidLength
    | none => Run.throw .invalidLength
  | elements => arrayOf call realm elements

/-! ### Mapping -/

/-- Maps one element. A key that the source does not have stays a hole. -/
def mapElement (call : Caller) (realm : RealmId) (source result : ObjectId)
    (callback receiver : Value) (index : Nat) : Run Unit := do
  let key := Key.ofIndex index
  if ← Run.has source key then
    let element ← get call realm source key
    let mapped ← call realm callback receiver [element, .number (.ofNat index), .object source]
    createOrThrow call realm result key mapped

/-- The array of what a callback returns for each element of a value that has a length. -/
def mapArray (call : Caller) (realm : RealmId) (source callback receiver : Value) : Run Value := do
  let id ← toObject realm source
  let length ← lengthOf call realm id
  if ← Run.isCallable callback then
    if length ≤ maxLength then
      let result ← arrayOfLength call realm (.ofNat length)
      let _ ← Run.collect length (mapElement call realm id result callback receiver)
      return .object result
    else Run.throw .invalidLength
  else Run.throw (.notCallable (← Run.display callback))

/-! ### Joining -/

/-- The text of one element: nothing for undefined and null. -/
def elementText (call : Caller) (realm : RealmId) (id : ObjectId) (index : Nat) : Run Units := do
  match ← get call realm id (.ofIndex index) with
  | .undefined => pure []
  | .null => pure []
  | element => toUnits call realm element

/-- The texts of the elements with a separator between them. -/
def joinElements (call : Caller) (realm : RealmId) (id : ObjectId) (separator : Units) :
    Run Units := do
  let length ← lengthOf call realm id
  return separator.intercalate (← Run.collect length (elementText call realm id))

/-- Notes that the elements of an object are being joined in a realm. -/
def World.enterJoin (world : World) (realm : RealmId) (id : ObjectId) : World :=
  world.modifyRealm realm fun region => { region with joining := id :: region.joining }

/-- Forgets the innermost join of a realm. -/
def World.leaveJoin (world : World) (realm : RealmId) : World :=
  world.modifyRealm realm fun region => { region with joining := region.joining.tail }

/-- The joined text of a value that has a length. -/
def joinArray (call : Caller) (realm : RealmId) (source : Value) (separator : Units) :
    Run Units := do
  let id ← toObject realm source
  if id ∈ (← Run.read fun world => (world.realm realm).joining) then pure []
  else do
    Run.modify (·.enterJoin realm id)
    (joinElements call realm id separator).followedBy (·.leaveJoin realm)

end EcmaCore
