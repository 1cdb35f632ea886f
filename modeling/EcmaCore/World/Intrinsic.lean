/-
This file holds the objects that a realm is made with. Each has a fixed slot, so an
intrinsic keeps its identity whatever scripts do to the properties that lead to it.
The initial objects are written down as they are: their tables, in the order in which
keys are listed, their prototypes and their functions.
-/

import EcmaCore.Object.Basic

namespace EcmaCore

/-- An object that every realm has from the start. -/
inductive Intrinsic
  | global
  | objectPrototype
  | arrayPrototype
  | json
  | function (which : Builtin)
deriving DecidableEq, Repr

namespace Intrinsic

/-- The intrinsics in the order of their slots. -/
def all : List Intrinsic :=
  [global, objectPrototype, arrayPrototype, json, function .functionPrototype, function .object,
    function .objectDefineProperty, function .objectGetOwnPropertyDescriptor,
    function .objectGetPrototypeOf, function .objectKeys, function .objectHasOwnProperty,
    function .objectToString, function .objectValueOf, function .array, function .arrayIsArray,
    function .arrayMap, function .arrayJoin, function .arrayToString, function .jsonParse,
    function .jsonStringify]

/-- The identity of an intrinsic in a realm. -/
def id (which : Intrinsic) (realm : RealmId) : ObjectId := ⟨realm, all.idxOf which⟩

/-- An intrinsic as a value. -/
def value (which : Intrinsic) (realm : RealmId) : Value := .object (which.id realm)

end Intrinsic

/-- A table entry with a text as its key. -/
def named (name : String) (property : Property) : Key × Property := (.text name, property)

/-- The slot that says what a function is called or how many arguments it takes. -/
def functionSlot (value : Value) : Property := .data value false false true

/-- The entries that a function object is made with. -/
def functionEntries (name : String) (arity : Nat) : List (Key × Property) :=
  [named "length" (functionSlot (.number (.ofNat arity))),
    named "name" (functionSlot (.ofText name))]

/-- A function object as it is made. -/
def Object.ofCallable (realm : RealmId) (name : String) (arity : Nat) (behaviour : Behaviour) :
    Object :=
  Object.putAll
    { prototype := some ((Intrinsic.function .functionPrototype).id realm), kind := .function,
      callable := some ⟨name, behaviour⟩ }
    (functionEntries name arity)

/-- The slot of a new array's length. -/
def lengthSlot (length : Nat) : Property := .data (.number (.ofNat length)) true false false

/-- An array of the realm without elements. -/
def Object.emptyArray (realm : RealmId) : Object :=
  Object.put { prototype := some (Intrinsic.arrayPrototype.id realm), kind := .array } .length
    (lengthSlot 0)

/-- An ordinary object of the realm without properties. -/
def Object.plain (realm : RealmId) : Object :=
  { prototype := some (Intrinsic.objectPrototype.id realm) }

namespace Intrinsic

/-- A builtin function under its own name, as it is installed. -/
def method (realm : RealmId) (which : Builtin) : Key × Property :=
  named which.name (.hidden ((function which).value realm))

/-- The entry that leads from a constructor to the prototype of what it makes, or back. -/
def link (realm : RealmId) (name : String) (which : Intrinsic) : Key × Property :=
  named name (.hidden (which.value realm))

/-- The properties of a builtin function beyond its name and arity. -/
def statics (realm : RealmId) : Builtin → List (Key × Property)
  | .object =>
    [link realm "prototype" objectPrototype, method realm .objectDefineProperty,
      method realm .objectGetOwnPropertyDescriptor, method realm .objectGetPrototypeOf,
      method realm .objectKeys]
  | .array => [link realm "prototype" arrayPrototype, method realm .arrayIsArray]
  | _ => []

/-- The object that an intrinsic is in a new realm. -/
def object (realm : RealmId) : Intrinsic → Object
  | global =>
    (Object.plain realm).putAll
      [method realm .object, method realm .array, link realm "JSON" json]
  | objectPrototype =>
    Object.putAll {}
      [link realm "constructor" (function .object), method realm .objectHasOwnProperty,
        method realm .objectToString, method realm .objectValueOf]
  | arrayPrototype =>
    Object.putAll { prototype := some (objectPrototype.id realm), kind := .array }
      [(.length, lengthSlot 0), link realm "constructor" (function .array),
        method realm .arrayMap, method realm .arrayJoin, method realm .arrayToString]
  | json => (Object.plain realm).putAll [method realm .jsonParse, method realm .jsonStringify]
  | function .functionPrototype =>
    { prototype := some (objectPrototype.id realm), kind := .function,
      callable := some ⟨"", .builtin .functionPrototype⟩ }
  | function which =>
    (Object.ofCallable realm which.name which.arity (.builtin which)).putAll (statics realm which)

end Intrinsic

end EcmaCore
