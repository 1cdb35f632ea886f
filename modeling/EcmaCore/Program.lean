/-
This file holds host functions as data. The body of a host function is a program: a
tree that ends in a value or an error, or performs an operation and goes on with
every reply that the operation may have. Anything at all may be computed between two
operations, so a program stands for an arbitrary native function, yet what it can do
to the objects of the engine is the list of operations and nothing else.

`Script` is the comfortable way to write a program: a monad in which operations are
performed one after another and an error ends the rest unless it is caught.
-/

import EcmaCore.Operation

namespace EcmaCore

/-- What a function is called with. -/
structure Invocation where
  realm : RealmId
  receiver : Value
  arguments : List Value

/-- The body of a host function after its call. -/
inductive Program
  | finish (value : Value)
  | raise (error : Error)
  | perform {shape : Shape} (realm : RealmId) (operation : Operation shape)
      (next : Except Error shape.Reply → Program)
  | makeFunction (realm : RealmId) (name : String) (arity : Nat) (body : Invocation → Program)
      (next : ObjectId → Program)

/-- A host function: what each call does. -/
abbrev Body := Invocation → Program

/-! ### Scripts -/

/-- A program still to be continued with its result. -/
def Script (α : Type) := (Except Error α → Program) → Program

namespace Script

instance : Monad Script where
  pure value := fun next => next (.ok value)
  bind script continuation := fun next => script fun
    | .ok value => continuation value next
    | .error error => next (.error error)

/-- A script that fails. -/
def fail {α : Type} (error : Error) : Script α := fun next => next (.error error)

/-- Performs an operation with the intrinsics of a realm. -/
def perform {shape : Shape} (realm : RealmId) (operation : Operation shape) :
    Script shape.Reply :=
  fun next => .perform realm operation next

/-- Makes a host function. -/
def makeFunction (realm : RealmId) (name : String) (arity : Nat) (body : Body) :
    Script ObjectId :=
  fun next => .makeFunction realm name arity body fun id => next (.ok id)

/-- The program that a script with a value as its result is. -/
def toProgram (script : Script Value) : Program :=
  script fun
    | .ok value => .finish value
    | .error error => .raise error

end Script

end EcmaCore
