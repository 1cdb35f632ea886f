/-
This file holds descriptors as scripts write and read them: objects with up to six
fields. Reading one asks for each field in a fixed order, may call getters, and checks
the result; so whatever is read names either a value or accessors, and accessors that
can be called.
-/

import EcmaCore.Engine.Define

namespace EcmaCore

/-- The value of a field that the object has, own or inherited. -/
def field (call : Caller) (realm : RealmId) (id : ObjectId) (name : String) :
    Run (Option Value) := do
  if ← Run.has id (.text name) then return some (← get call realm id (.text name))
  else pure none

/-- Fails unless the field is absent, undefined or a function. -/
def requireCallable (given : Option Value) (complaint : String → Error) : Run Unit :=
  match Descriptor.half given with
  | none => pure ()
  | some value => do
    if ← Run.isCallable value then pure ()
    else Run.throw (complaint (← Run.display value))

/-- The descriptor that an object describes. -/
def readDescription (call : Caller) (realm : RealmId) (attributes : Value) : Run Descriptor := do
  match attributes with
  | .object id =>
    let enumerable ← field call realm id "enumerable"
    let configurable ← field call realm id "configurable"
    let value ← field call realm id "value"
    let writable ← field call realm id "writable"
    let getter ← field call realm id "get"
    let setter ← field call realm id "set"
    let descriptor : Descriptor :=
      { value := value, writable := writable.map Value.truthy, getter := getter, setter := setter,
        enumerable := enumerable.map Value.truthy,
        configurable := configurable.map Value.truthy }
    requireCallable getter .getterNotCallable
    requireCallable setter .setterNotCallable
    if descriptor.isAccessor && descriptor.isData then Run.throw .mixedDescription
    else pure descriptor
  | primitive => Run.throw (.descriptionNotObject (← Run.display primitive))

/-- The fields that a descriptor gives, under the names that scripts use. -/
def Descriptor.fields (descriptor : Descriptor) : List (Key × Value) :=
  [("value", descriptor.value), ("writable", descriptor.writable.map .boolean),
    ("get", descriptor.getter), ("set", descriptor.setter),
    ("enumerable", descriptor.enumerable.map .boolean),
    ("configurable", descriptor.configurable.map .boolean)].filterMap fun (name, given) =>
      given.map fun value => (.text name, value)

/-- Makes an object that describes a descriptor. -/
def describe (call : Caller) (realm : RealmId) (descriptor : Descriptor) : Run ObjectId :=
  objectOf call realm descriptor.fields

/-- Defines a property of an object as an attributes object asks. -/
def defineProperty (call : Caller) (realm : RealmId) (target key attributes : Value) :
    Run Value :=
  match target with
  | .object id => do
    let key ← toKey call realm key
    let descriptor ← readDescription call realm attributes
    defineOrThrow call realm id key descriptor
    return target
  | _ => Run.throw .definitionOnPrimitive

/-- Describes an own property of a value, or undefined if there is none. -/
def ownDescription (call : Caller) (realm : RealmId) (target key : Value) : Run Value := do
  let id ← toObject realm target
  let key ← toKey call realm key
  match (← Run.object id).own? key with
  | some property => return .object (← describe call realm (.ofProperty property))
  | none => pure .undefined

end EcmaCore
