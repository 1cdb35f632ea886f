/-
This file holds the state that operations act on and the runs that act on it. A world
is a sequence of realms, each with the objects it has made, and a log of calls. An
object is never removed, so an identity once given out stays good.

A run goes on in steps, of which each looks at the world or changes it, so it is known
not only where a run ends but which worlds it passes through. It ends in a value or an
error, each with the world it leaves, or it is cut off. It is cut off where it could
not end by itself: a prototype chain that returns to itself, or calls nested beyond
every bound. A cut-off run has no answer and no world.
-/

import EcmaCore.World.Intrinsic

namespace EcmaCore

/-- What is noted of a call: that it began, and later that the function has counted it. Only a setter
that a conformance check plants counts its calls. -/
inductive Stage
  | begun
  | counted
deriving DecidableEq, Repr

/-- A note of a call: which function, on what, with what. -/
structure Call where
  callee : ObjectId
  receiver : Value
  arguments : List Value
  stage : Stage := .begun
deriving DecidableEq

/-- What an object was at some moment, apart from its class and its callable side. -/
structure Snapshot where
  target : ObjectId
  table : Table Key Property
  prototype : Option ObjectId
  extensible : Bool

/-- What the host functions of a realm keep for themselves between calls. -/
structure Memory where
  bindings : Table String Value := .empty
  snapshots : Table String Snapshot := .empty

/-- The objects that a realm has made, the arrays whose elements are being joined in it, innermost
first, and the memory of its host functions. -/
structure Realm where
  objects : Array Object
  joining : List ObjectId := []
  memory : Memory := {}

/-- A realm with its intrinsics and nothing else. -/
def Realm.initial (realm : RealmId) : Realm :=
  { objects := (Intrinsic.all.map (Intrinsic.object realm)).toArray }

instance : Inhabited Realm := ⟨{ objects := #[] }⟩

/-- All realms, and the notes of every call so far, in the order in which they were made. -/
structure World where
  realms : Array Realm := #[]
  log : Array Call := #[]

namespace World

/-- A world of so many new realms. -/
def fresh (count : Nat) : World := { realms := ((List.range count).map Realm.initial).toArray }

/-- The realm of an identity. An identity never given out names an empty one. -/
def realm (world : World) (id : RealmId) : Realm := world.realms.getD id default

/-- The object of an identity. One never given out names an object without properties. -/
def object (world : World) (id : ObjectId) : Object :=
  (world.realm id.realm).objects.getD id.slot default

/-- The identity was given out. -/
def Has (world : World) (id : ObjectId) : Prop := id.slot < (world.realm id.realm).objects.size

instance (world : World) (id : ObjectId) : Decidable (world.Has id) :=
  inferInstanceAs (Decidable (_ < _))

/-- The world with one realm changed. -/
def modifyRealm (world : World) (id : RealmId) (change : Realm → Realm) : World :=
  { world with realms := world.realms.modify id change }

/-- The world with one object changed. -/
def modifyObject (world : World) (id : ObjectId) (change : Object → Object) : World :=
  world.modifyRealm id.realm fun realm =>
    { realm with objects := realm.objects.modify id.slot change }

/-- The identity that the next object of a realm gets. -/
def nextId (world : World) (realm : RealmId) : ObjectId :=
  ⟨realm, (world.realm realm).objects.size⟩

/-- The world with a new object in a realm, under the next identity. -/
def add (world : World) (realm : RealmId) (object : Object) : World :=
  world.modifyRealm realm fun region => { region with objects := region.objects.push object }

/-- The number of objects in all realms. -/
def population (world : World) : Nat :=
  world.realms.foldl (fun count realm => count + realm.objects.size) 0

end World

/-! ### Runs -/

/-- How a run ends. -/
inductive Outcome (α : Type)
  | done (value : α) (world : World)
  | threw (error : Error) (world : World)
  | cutOff

/-- An action on the world, one step after another: it looks at the world, or changes it, and goes
on; or it ends. -/
inductive Run (α : Type)
  | done (value : α)
  | threw (error : Error)
  | cutOff
  | look (next : World → Run α)
  | change (update : World → World) (next : Unit → Run α)

namespace Run

variable {α β : Type}

/-- How the run ends from a world on. -/
def outcome : Run α → World → Outcome α
  | .done value, world => .done value world
  | .threw error, world => .threw error world
  | .cutOff, _ => .cutOff
  | .look next, world => (next world).outcome world
  | .change update next, world => (next ()).outcome (update world)

/-- Goes on with the value of a run; an error or a cut-off ends the whole. -/
def andThen : Run α → (α → Run β) → Run β
  | .done value, continuation => continuation value
  | .threw error, _ => .threw error
  | .cutOff, _ => .cutOff
  | .look next, continuation => .look fun world => (next world).andThen continuation
  | .change update next, continuation => .change update fun _ => (next ()).andThen continuation

instance : Monad Run where
  pure := .done
  bind := andThen

/-- Fails with an error. -/
def throw (error : Error) : Run α := .threw error

/-- The run with its error as a value. A cut-off stays one. -/
def attempt : Run α → Run (Except Error α)
  | .done value => .done (.ok value)
  | .threw error => .done (.error error)
  | .cutOff => .cutOff
  | .look next => .look fun world => (next world).attempt
  | .change update next => .change update fun _ => (next ()).attempt

/-- The run, and after it a change of the world whether it ended in a value or an error. -/
def followedBy (run : Run α) (last : World → World) : Run α :=
  match run with
  | .done value => .change last fun _ => .done value
  | .threw error => .change last fun _ => .threw error
  | .cutOff => .cutOff
  | .look next => .look fun world => (next world).followedBy last
  | .change update next => .change update fun _ => (next ()).followedBy last

/-- What the world shows now. -/
def read (view : World → α) : Run α := .look fun world => .done (view world)

/-- Changes the world. -/
def modify (update : World → World) : Run Unit := .change update fun _ => .done ()

/-- The object of an identity. -/
def object (id : ObjectId) : Run Object := read (·.object id)

/-- Changes an object. -/
def modifyObject (id : ObjectId) (update : Object → Object) : Run Unit :=
  modify (·.modifyObject id update)

/-- Makes an object in a realm. -/
def allocate (realm : RealmId) (object : Object) : Run ObjectId := do
  let id ← read (·.nextId realm)
  modify (·.add realm object)
  return id

/-- Writes a call to the log. -/
def log (call : Call) : Run Unit :=
  modify fun world => { world with log := world.log.push call }

end Run

/-- How a function value is called: the realm of the call, the function, its receiver and its
arguments. Operations that call scripts take the way to do so as an argument. -/
abbrev Caller := RealmId → Value → Value → List Value → Run Value

end EcmaCore
