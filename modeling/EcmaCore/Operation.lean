/-
This file lists what host code may ask of the engine. Each operation says what kind
of reply it has, so a program that performs it goes on with a reply of that kind, or
with an error. The list is the whole surface: a host function has no other way to
reach an object.

Two groups stand apart. `setExtensible` and `setPrototype` write a field of an object
without asking anyone, and `release` puts an object back to an earlier state; the
other operations keep the promises that an object has made.
-/

import EcmaCore.Conformance.Verdict
import EcmaCore.Property

namespace EcmaCore

/-- What an object is, apart from its properties. -/
inductive ObjectClass
  | ordinary
  | array
  | function
  | error
deriving DecidableEq, Repr

/-- The tag that an object shows by default. -/
def ObjectClass.tag : ObjectClass → String
  | .ordinary => "Object"
  | .array => "Array"
  | .function => "Function"
  | .error => "Error"

/-- The kinds of reply. -/
inductive Shape
  | unit
  | flag
  | natural
  | maybeNatural
  | number
  | units
  | maybeUnits
  | text
  | value
  | object
  | maybeObject
  | key
  | keys
  | maybeProperty
  | descriptor
  | verdict
deriving DecidableEq, Repr

/-- The type of the replies of one kind. -/
abbrev Shape.Reply : Shape → Type
  | .unit => Unit
  | .flag => Bool
  | .natural => Nat
  | .maybeNatural => Option Nat
  | .number => Number
  | .units => Units
  | .maybeUnits => Option Units
  | .text => String
  | .value => Value
  | .object => ObjectId
  | .maybeObject => Option ObjectId
  | .key => Key
  | .keys => List Key
  | .maybeProperty => Option Property
  | .descriptor => Descriptor
  | .verdict => Verdict

/-- A request to the engine. -/
inductive Operation : Shape → Type
  /- Making objects. -/
  | makeObject (prototype : Option ObjectId) (kind : ObjectClass) : Operation .object
  | makeArray : Operation .object
  | arrayOf (elements : List Value) : Operation .object
  /- Reading and writing properties. -/
  | get (object : ObjectId) (key : Key) (receiver : Value) : Operation .value
  | getOf (base : Value) (key : Key) : Operation .value
  | set (object : ObjectId) (key : Key) (value : Value) : Operation .unit
  | setFor (object : ObjectId) (key : Key) (value receiver : Value) : Operation .flag
  | define (object : ObjectId) (key : Key) (descriptor : Descriptor) : Operation .flag
  | defineOrThrow (object : ObjectId) (key : Key) (descriptor : Descriptor) : Operation .unit
  | create (object : ObjectId) (key : Key) (value : Value) : Operation .flag
  | createOrThrow (object : ObjectId) (key : Key) (value : Value) : Operation .unit
  | delete (object : ObjectId) (key : Key) : Operation .flag
  | has (object : ObjectId) (key : Key) : Operation .flag
  | ownProperty (object : ObjectId) (key : Key) : Operation .maybeProperty
  | ownKeys (object : ObjectId) : Operation .keys
  | forInKeys (object : ObjectId) : Operation .keys
  | prototypeOf (object : ObjectId) : Operation .maybeObject
  | defineProperty (target key attributes : Value) : Operation .value
  | ownDescription (target key : Value) : Operation .value
  | readDescription (attributes : Value) : Operation .descriptor
  | describe (descriptor : Descriptor) : Operation .value
  /- Asking about values and converting them. -/
  | isArray (value : Value) : Operation .flag
  | isCallable (value : Value) : Operation .flag
  | arrayLength (object : ObjectId) : Operation .maybeNatural
  | toNumber (value : Value) : Operation .number
  | toUnits (value : Value) : Operation .units
  | toObject (value : Value) : Operation .object
  | toLength (value : Value) : Operation .natural
  | toKey (value : Value) : Operation .key
  | display (value : Value) : Operation .text
  /- Calls. -/
  | call (function receiver : Value) (arguments : List Value) : Operation .value
  | invoke (receiver : Value) (method : String) (arguments : List Value) : Operation .value
  | globalGet (name : String) : Operation .value
  | arrayMap (source callback receiver : Value) : Operation .value
  /- JSON. -/
  | parse (text : Units) : Operation .value
  | stringify (value : Value) : Operation .maybeUnits
  /- Conformance checks. -/
  | checkInvalid (text : String) : Operation .verdict
  | checkValid (text : String) : Operation .verdict
  | checkMap (warns : Bool := false) : Operation .verdict
  /- What host code keeps between calls. -/
  | load (name : String) : Operation .value
  | store (name : String) (value : Value) : Operation .unit
  | hold (name : String) (object : ObjectId) : Operation .unit
  | release (name : String) : Operation .unit
  /- Direct writes. -/
  | setExtensible (object : ObjectId) (extensible : Bool) : Operation .unit
  | setPrototype (object : ObjectId) (prototype : Option ObjectId) : Operation .unit

end EcmaCore
