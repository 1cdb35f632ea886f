/-
This file holds objects: a table of own properties, a prototype, whether properties
may be added, a class, and what a call does. The order in which own keys are listed
is a function of the table: array indices in ascending order first, then the other
keys as they were created.
-/

import EcmaCore.Object.Builtin
import EcmaCore.Program
import EcmaCore.Table

namespace EcmaCore

/-- The list with a number put before the first that is not smaller. -/
def insertAscending (value : Nat) : List Nat → List Nat
  | [] => [value]
  | first :: rest =>
    if value ≤ first then value :: first :: rest else first :: insertAscending value rest

/-- The numbers in ascending order. -/
def ascending (values : List Nat) : List Nat := values.foldr insertAscending []

/-- What a call of a function object does. -/
inductive Behaviour
  | builtin (which : Builtin)
  | probe (which : Probe)
  | host (body : Body)

/-- The callable side of a function object. -/
structure Callable where
  name : String
  behaviour : Behaviour

/-- An object. -/
structure Object where
  table : Table Key Property := .empty
  prototype : Option ObjectId := none
  extensible : Bool := true
  kind : ObjectClass := .ordinary
  callable : Option Callable := none

namespace Object

instance : Inhabited Object := ⟨{}⟩

/-- The own property under a key. -/
def own? (object : Object) (key : Key) : Option Property := object.table.get? key

/-- The object is an array. -/
def isArray (object : Object) : Bool := object.kind == .array

/-- The object with a slot written, whatever stood there. -/
def put (object : Object) (key : Key) (property : Property) : Object :=
  { object with table := object.table.insert key property }

/-- The object with a plain data property written for each entry. -/
def putAll (object : Object) (entries : List (Key × Property)) : Object :=
  entries.foldl (fun filled entry => filled.put entry.1 entry.2) object

/-! ### Own keys -/

/-- The array indices among the own keys, in the order of the table. -/
def indices (object : Object) : List Nat := object.table.keys.filterMap Key.arrayIndex?

/-- The own keys: array indices in ascending order, then the others in order of creation. -/
def ownKeys (object : Object) : List Key :=
  (ascending object.indices).map Key.ofIndex ++
    object.table.keys.filter fun key => key.arrayIndex?.isNone

/-- The own key takes part in enumeration. -/
def isEnumerable (object : Object) (key : Key) : Bool :=
  (object.own? key).any Property.enumerable

/-- The own keys that take part in enumeration. -/
def enumerableKeys (object : Object) : List Key := object.ownKeys.filter object.isEnumerable

end Object

end EcmaCore
