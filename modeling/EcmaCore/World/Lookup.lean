/-
This file holds what can be seen of properties without calling anything: the nearest
holder of a key on a prototype chain, and the keys that an enumeration visits. A
chain that is longer than the number of objects returns to itself, so a walk with one
step for each object tells an endless chain from a finite one.
-/

import EcmaCore.World.Basic

namespace EcmaCore

/-- The outcome of a walk along a prototype chain. -/
inductive Search
  | found (holder : ObjectId) (property : Property)
  | absent
  | endless
deriving DecidableEq

namespace World

/-- The nearest property under a key, within a number of steps. -/
def searchWithin (world : World) (key : Key) : Nat → ObjectId → Search
  | 0, _ => .endless
  | steps + 1, id =>
    match (world.object id).own? key with
    | some property => .found id property
    | none =>
      match (world.object id).prototype with
      | some parent => world.searchWithin key steps parent
      | none => .absent

/-- The nearest property under a key, own or inherited. -/
def search (world : World) (id : ObjectId) (key : Key) : Search :=
  world.searchWithin key (world.population + 1) id

/-- The objects of a prototype chain from an object on, within a number of steps. -/
def chainWithin (world : World) : Nat → ObjectId → Option (List ObjectId)
  | 0, _ => none
  | steps + 1, id =>
    match (world.object id).prototype with
    | some parent => (world.chainWithin steps parent).map (id :: ·)
    | none => some [id]

/-- The prototype chain of an object, none if it returns to itself. -/
def chain? (world : World) (id : ObjectId) : Option (List ObjectId) :=
  world.chainWithin (world.population + 1) id

/-- The keys that enumeration visits on a chain. A key is visited at its first owner only, and only
if it is enumerable there. -/
def enumerated (world : World) (visited : List Key) : List ObjectId → List Key
  | [] => []
  | id :: rest =>
    let new := (world.object id).ownKeys.filter (· ∉ visited)
    new.filter (world.object id).isEnumerable ++ world.enumerated (visited ++ new) rest

/-- The value is a function. -/
def isCallable (world : World) : Value → Bool
  | .object id => (world.object id).callable.isSome
  | _ => false

/-- The value is an array. -/
def isArray (world : World) : Value → Bool
  | .object id => (world.object id).isArray
  | _ => false

/-- The value as it stands in a message. -/
def display (world : World) (value : Value) : String :=
  match value with
  | .object id =>
    match (world.object id).callable with
    | some callable => "function " ++ callable.name ++ "() \x7b [native code] \x7d"
    | none => "[object " ++ (world.object id).kind.tag ++ "]"
  | primitive => primitive.primitiveText?.getD ""

end World

namespace Run

/-- The nearest property under a key. A search without end cuts the run off. -/
def search (id : ObjectId) (key : Key) : Run (Option Property) := do
  match ← read (·.search id key) with
  | .found _ property => pure (some property)
  | .absent => pure none
  | .endless => cutOff

/-- The key is there, own or inherited. -/
def has (id : ObjectId) (key : Key) : Run Bool := do return (← search id key).isSome

/-- The keys that enumeration visits on an object and its prototypes. -/
def forInKeys (id : ObjectId) : Run (List Key) := do
  match ← read (·.chain? id) with
  | some chain => read (·.enumerated [] chain)
  | none => cutOff

/-- The value is a function. -/
def isCallable (value : Value) : Run Bool := read (·.isCallable value)

/-- The value is an array. -/
def isArray (value : Value) : Run Bool := read (·.isArray value)

/-- The value as it stands in a message. -/
def display (value : Value) : Run String := read (·.display value)

end Run

end EcmaCore
