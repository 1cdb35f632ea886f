/-
This file holds script values. An object is known by its identity: the realm that
made it and its place among the objects of that realm. Two realms never give out the
same identity, so what one realm makes never depends on how much another has made.
-/

import EcmaCore.Number.Layout
import EcmaCore.Text.Quoted
import EcmaCore.Text.Units

namespace EcmaCore

/-- A realm, by its place in the world. -/
abbrev RealmId := Nat

/-- The identity of an object. -/
structure ObjectId where
  realm : RealmId
  slot : Nat
deriving DecidableEq, Repr

/-- A script value. Numbers are canonical, so Lean equality of values is SameValue. -/
inductive Value
  | undefined
  | null
  | boolean (flag : Bool)
  | number (number : Number)
  | string (units : Units)
  | object (id : ObjectId)
deriving DecidableEq

instance : Inhabited Value := ⟨.undefined⟩

namespace Value

/-- The string of a text. -/
def ofText (text : String) : Value := .string (unitsOf text)

/-- The object that the value is. -/
def object? : Value → Option ObjectId
  | .object id => some id
  | _ => none

/-- How a condition takes the value. -/
def truthy : Value → Bool
  | .undefined => false
  | .null => false
  | .boolean flag => flag
  | .number value => !(value == .nan || value.isZero)
  | .string units => !units.isEmpty
  | .object _ => true

/-- SameValue: NaN is itself and the zeros differ. -/
def same (left right : Value) : Bool := left == right

/-- Strict equality: NaN is not itself and the zeros are equal. -/
def strictlyEquals : Value → Value → Bool
  | .number left, .number right => left.equals right
  | left, right => left == right

/-- The value as it stands in a message, a string as its text. An object has no such form, since
what it shows depends on the world. -/
def primitiveText? : Value → Option String
  | .undefined => some "undefined"
  | .null => some "null"
  | .boolean flag => some (if flag then "true" else "false")
  | .number value => some value.text
  | .string units => some (displayed units)
  | .object _ => none

/-- The value as a reader of diagnostics sees it, a string in quotes. -/
def primitiveDebug? : Value → Option String
  | .string units => some (quoted (displayed units))
  | value => value.primitiveText?

end Value

end EcmaCore
