/-
This file lists the functions that every realm is made with, under the names and
arities that a script sees, and the small functions that a conformance check plants.
They are named here and defined where their behaviour is.
-/

namespace EcmaCore

/-- A function that every realm has from the start. -/
inductive Builtin
  | functionPrototype
  | object
  | objectDefineProperty
  | objectGetOwnPropertyDescriptor
  | objectGetPrototypeOf
  | objectKeys
  | objectHasOwnProperty
  | objectToString
  | objectValueOf
  | array
  | arrayIsArray
  | arrayMap
  | arrayJoin
  | arrayToString
  | jsonParse
  | jsonStringify
deriving DecidableEq, Repr

namespace Builtin

/-- The name that the function was made with. -/
def name : Builtin → String
  | functionPrototype => ""
  | object => "Object"
  | objectDefineProperty => "defineProperty"
  | objectGetOwnPropertyDescriptor => "getOwnPropertyDescriptor"
  | objectGetPrototypeOf => "getPrototypeOf"
  | objectKeys => "keys"
  | objectHasOwnProperty => "hasOwnProperty"
  | objectToString => "toString"
  | objectValueOf => "valueOf"
  | array => "Array"
  | arrayIsArray => "isArray"
  | arrayMap => "map"
  | arrayJoin => "join"
  | arrayToString => "toString"
  | jsonParse => "parse"
  | jsonStringify => "stringify"

/-- The number of arguments that the function says it takes. -/
def arity : Builtin → Nat
  | functionPrototype => 0
  | object => 1
  | objectDefineProperty => 3
  | objectGetOwnPropertyDescriptor => 2
  | objectGetPrototypeOf => 1
  | objectKeys => 1
  | objectHasOwnProperty => 1
  | objectToString => 0
  | objectValueOf => 0
  | array => 1
  | arrayIsArray => 1
  | arrayMap => 1
  | arrayJoin => 1
  | arrayToString => 0
  | jsonParse => 2
  | jsonStringify => 3

end Builtin

/-- A function that a conformance check plants: a getter that always greets, a setter that counts its
calls and says of each in a warning with what it was called, if warnings are shown, and a callback
that doubles its argument. -/
inductive Probe
  | greet
  | count (warns : Bool)
  | double
deriving DecidableEq, Repr

end EcmaCore
