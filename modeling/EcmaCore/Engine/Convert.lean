/-
This file holds reading a property and converting a value. Both may call scripts: a
getter when a property is read, the methods `valueOf` and `toString` when an object
is to become a primitive value. A primitive that is asked for a property is boxed; a
string's box shows its units under their indices.
-/

import EcmaCore.Number.Literal
import EcmaCore.World.Lookup

namespace EcmaCore

/-! ### Boxes -/

/-- The slot of one unit in a string's box. -/
def unitSlot (unit : CodeUnit) : Property := .data (.string [unit]) false true false

/-- The box of a string: a read-only property for each unit, and its length. -/
def Object.ofString (realm : RealmId) (units : Units) : Object :=
  (Object.plain realm).putAll
    (units.zipIdx.map (fun (unit, index) => (.ofIndex index, unitSlot unit)) ++
      [(.length, .data (.number (.ofNat units.length)) false false false)])

/-- The object that a value is or is boxed as. Undefined and null have none. -/
def toObject (realm : RealmId) : Value → Run ObjectId
  | .object id => pure id
  | .string units => Run.allocate realm (.ofString realm units)
  | .boolean _ => Run.allocate realm (.plain realm)
  | .number _ => Run.allocate realm (.plain realm)
  | empty => do Run.throw (.notCoercible (← Run.display empty))

/-! ### Reading properties -/

/-- The value of a property, own or inherited. A getter is called on the receiver. -/
def getFor (call : Caller) (realm : RealmId) (id : ObjectId) (key : Key) (receiver : Value) :
    Run Value := do
  match ← Run.search id key with
  | some (.data value _ _ _) => pure value
  | some (.accessor (some getter) _ _ _) => call realm getter receiver []
  | some (.accessor none _ _ _) => pure .undefined
  | none => pure .undefined

/-- The value of a property with the object itself as the receiver. -/
def get (call : Caller) (realm : RealmId) (id : ObjectId) (key : Key) : Run Value :=
  getFor call realm id key (.object id)

/-- The value of a property of any value. A box is searched, but a getter is called on the value
itself. -/
def getOf (call : Caller) (realm : RealmId) (base : Value) (key : Key) : Run Value := do
  getFor call realm (← toObject realm base) key base

/-! ### Primitive values -/

/-- The number that a primitive value converts to. -/
def Value.primitiveNumber : Value → Number
  | .null => .zero
  | .boolean flag => .ofNat flag.toNat
  | .number value => value
  | .string units => .ofText (lossyChars units)
  | _ => .nan

/-- The string that a primitive value converts to. -/
def Value.primitiveUnits : Value → Units
  | .undefined => unitsOf "undefined"
  | .null => unitsOf "null"
  | .boolean flag => unitsOf (if flag then "true" else "false")
  | .number value => unitsOf value.text
  | .string units => units
  | .object _ => []

/-- The first primitive value that the named methods of an object return. A name that leads to no
function is passed over. -/
def firstPrimitive (call : Caller) (realm : RealmId) (id : ObjectId) : List String → Run Value
  | [] => Run.throw .noPrimitive
  | name :: rest => do
    let method ← get call realm id (.text name)
    if ← Run.isCallable method then
      match ← call realm method (.object id) [] with
      | .object _ => firstPrimitive call realm id rest
      | primitive => pure primitive
    else firstPrimitive call realm id rest

/-- The number that a value converts to; an object is asked for its value first. -/
def toNumber (call : Caller) (realm : RealmId) : Value → Run Number
  | .object id => do return (← firstPrimitive call realm id ["valueOf", "toString"]).primitiveNumber
  | primitive => pure primitive.primitiveNumber

/-- The string that a value converts to; an object is asked for its string first. -/
def toUnits (call : Caller) (realm : RealmId) : Value → Run Units
  | .object id => do return (← firstPrimitive call realm id ["toString", "valueOf"]).primitiveUnits
  | primitive => pure primitive.primitiveUnits

/-- The property key that a value converts to. -/
def toKey (call : Caller) (realm : RealmId) (value : Value) : Run Key := do
  return .ofUnits (← toUnits call realm value)

/-- The length that a value converts to. -/
def toLength (call : Caller) (realm : RealmId) (value : Value) : Run Nat := do
  return (← toNumber call realm value).toLength

/-- The length that an object says it has. -/
def lengthOf (call : Caller) (realm : RealmId) (id : ObjectId) : Run Nat := do
  toLength call realm (← get call realm id .length)

end EcmaCore
