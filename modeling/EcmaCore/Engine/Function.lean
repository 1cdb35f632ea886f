/-
This file holds the builtin functions: what each does with its receiver and its
arguments. Calling a function value is an argument of all of them; so is the bound on
the depth of a walk that a script can make as deep as it likes.
-/

import EcmaCore.Engine.Description
import EcmaCore.Json.Value

namespace EcmaCore

/-- The argument at a position, undefined if the call has fewer. -/
def argumentAt (arguments : List Value) (index : Nat) : Value := arguments.getD index .undefined

/-! ### Objects -/

/-- What the object constructor makes of its argument. -/
def constructObject (realm : RealmId) (argument : Value) : Run ObjectId :=
  match argument with
  | .undefined => Run.allocate realm (.plain realm)
  | .null => Run.allocate realm (.plain realm)
  | value => toObject realm value

/-- An array of the enumerable own keys of a value. -/
def keysOf (call : Caller) (realm : RealmId) (value : Value) : Run ObjectId := do
  let id ← toObject realm value
  let keys := (← Run.object id).enumerableKeys
  arrayOf call realm (keys.map fun key => .string key.units)

/-- The value has an own property under a key. The key is converted before the value. -/
def hasOwn (call : Caller) (realm : RealmId) (receiver key : Value) : Run Bool := do
  let key ← toKey call realm key
  let id ← toObject realm receiver
  return ((← Run.object id).own? key).isSome

/-- The tag that a value shows by default. -/
def tagOf (realm : RealmId) (value : Value) : Run String :=
  match value with
  | .undefined => pure "Undefined"
  | .null => pure "Null"
  | other => do
    let id ← toObject realm other
    return (← Run.object id).kind.tag

/-- The prototype of a value, null if there is none. -/
def prototypeValue (realm : RealmId) (value : Value) : Run Value := do
  let id ← toObject realm value
  return ((← Run.object id).prototype.map Value.object).getD .null

/-! ### Arrays and JSON -/

/-- The separator that an argument of `join` asks for: a comma if it is undefined. -/
def separatorOf (call : Caller) (realm : RealmId) (argument : Value) : Run Units :=
  match argument with
  | .undefined => pure (unitsOf ",")
  | value => toUnits call realm value

/-- Parses the text that a value converts to, and walks the result with a reviver if there is
one. -/
def parseWith (call : Caller) (depth : Nat) (realm : RealmId) (text reviver : Value) :
    Run Value := do
  let value ← Json.readValue call realm (← toUnits call realm text)
  if ← Run.isCallable reviver then Json.reviveRoot call realm depth value reviver
  else pure value

/-! ### Calls -/

/-- What a call of a builtin function does. -/
def Builtin.run (call : Caller) (depth : Nat) (realm : RealmId) (receiver : Value)
    (arguments : List Value) : Builtin → Run Value
  | .functionPrototype => pure .undefined
  | .object => do return .object (← constructObject realm (argumentAt arguments 0))
  | .objectDefineProperty =>
    defineProperty call realm (argumentAt arguments 0) (argumentAt arguments 1)
      (argumentAt arguments 2)
  | .objectGetOwnPropertyDescriptor =>
    ownDescription call realm (argumentAt arguments 0) (argumentAt arguments 1)
  | .objectGetPrototypeOf => prototypeValue realm (argumentAt arguments 0)
  | .objectKeys => do return .object (← keysOf call realm (argumentAt arguments 0))
  | .objectHasOwnProperty => do
    return .boolean (← hasOwn call realm receiver (argumentAt arguments 0))
  | .objectToString => do return .ofText ("[object " ++ (← tagOf realm receiver) ++ "]")
  | .objectValueOf => do return .object (← toObject realm receiver)
  | .array => do return .object (← constructArray call realm arguments)
  | .arrayIsArray => do return .boolean (← Run.isArray (argumentAt arguments 0))
  | .arrayMap => mapArray call realm receiver (argumentAt arguments 0) (argumentAt arguments 1)
  | .arrayJoin => do
    let separator ← separatorOf call realm (argumentAt arguments 0)
    return .string (← joinArray call realm receiver separator)
  | .arrayToString => do return .string (← joinArray call realm receiver (unitsOf ","))
  | .jsonParse => parseWith call depth realm (argumentAt arguments 0) (argumentAt arguments 1)
  | .jsonStringify => do
    return ((← Json.stringify call realm (argumentAt arguments 0)).map Value.string).getD .undefined

/-- Shows a value in a warning. It is converted to a string for that, which may call scripts; where
warnings are not shown nothing is converted. -/
def warnOf (call : Caller) (realm : RealmId) (warns : Bool) (value : Value) : Run Unit :=
  if warns then do
    let _ ← toUnits call realm value
    return ()
  else pure ()

/-- What a call of a planted function does. A call is counted after the warning of it, so one of
which the warning fails is not. -/
def Probe.run (call : Caller) (realm : RealmId) (callee : ObjectId) (receiver : Value)
    (arguments : List Value) : Probe → Run Value
  | .greet => pure (.ofText "hello")
  | .count warns => do
    warnOf call realm warns (argumentAt arguments 0)
    Run.log ⟨callee, receiver, arguments, .counted⟩
    return .undefined
  | .double => do
    return .number ((← toNumber call realm (argumentAt arguments 0)).mul (.ofNat 2))

/-- Calls a method of a value. -/
def invoke (call : Caller) (realm : RealmId) (receiver : Value) (method : String)
    (arguments : List Value) : Run Value := do
  let function ← getOf call realm receiver (.text method)
  call realm function receiver arguments

/-- The value of a property of a realm's global object. -/
def globalGet (call : Caller) (realm : RealmId) (name : String) : Run Value :=
  get call realm (Intrinsic.global.id realm) (.text name)

end EcmaCore
