/-
This file ties the knot of calls. A call of a function value looks up what the
function does and does it, with calls from inside going the same way one level
deeper. The number of levels is bounded, which is what makes the engine total; a call
beyond the bound is cut off and has no answer, so no statement about answers depends
on the bound.
-/

import EcmaCore.Conformance.Check
import EcmaCore.World.Memory

namespace EcmaCore

/-- Performs one operation with the intrinsics of a realm. -/
def Operation.run (call : Caller) (realm : RealmId) : {shape : Shape} → Operation shape →
    Run shape.Reply
  | _, .makeObject prototype kind =>
    Run.allocate realm { prototype := prototype, kind := kind }
  | _, .makeArray => Run.allocate realm (.emptyArray realm)
  | _, .arrayOf elements => EcmaCore.arrayOf call realm elements
  | _, .get object key receiver => getFor call realm object key receiver
  | _, .getOf base key => EcmaCore.getOf call realm base key
  | _, .set object key value => EcmaCore.set call realm object key value
  | _, .setFor object key value receiver => EcmaCore.setFor call realm object key value receiver
  | _, .define object key descriptor => EcmaCore.define call realm object key descriptor
  | _, .defineOrThrow object key descriptor =>
    EcmaCore.defineOrThrow call realm object key descriptor
  | _, .create object key value => EcmaCore.create call realm object key value
  | _, .createOrThrow object key value => EcmaCore.createOrThrow call realm object key value
  | _, .delete object key => EcmaCore.delete object key
  | _, .has object key => Run.has object key
  | _, .ownProperty object key => Run.read fun world => (world.object object).own? key
  | _, .ownKeys object => Run.read fun world => (world.object object).ownKeys
  | _, .forInKeys object => Run.forInKeys object
  | _, .prototypeOf object => Run.read fun world => (world.object object).prototype
  | _, .defineProperty target key attributes =>
    EcmaCore.defineProperty call realm target key attributes
  | _, .ownDescription target key => EcmaCore.ownDescription call realm target key
  | _, .readDescription attributes => EcmaCore.readDescription call realm attributes
  | _, .describe descriptor => do return .object (← EcmaCore.describe call realm descriptor)
  | _, .isArray value => Run.isArray value
  | _, .isCallable value => Run.isCallable value
  | _, .arrayLength object => Run.read fun world =>
    if (world.object object).isArray then some (world.object object).arrayLength else none
  | _, .toNumber value => EcmaCore.toNumber call realm value
  | _, .toUnits value => EcmaCore.toUnits call realm value
  | _, .toObject value => EcmaCore.toObject realm value
  | _, .toLength value => EcmaCore.toLength call realm value
  | _, .toKey value => EcmaCore.toKey call realm value
  | _, .display value => Run.display value
  | _, .call function receiver arguments => call realm function receiver arguments
  | _, .invoke receiver method arguments => EcmaCore.invoke call realm receiver method arguments
  | _, .globalGet name => EcmaCore.globalGet call realm name
  | _, .arrayMap source callback receiver => mapArray call realm source callback receiver
  | _, .parse text => Json.readValue call realm text
  | _, .stringify value => Json.stringify call realm value
  | _, .checkInvalid text => EcmaCore.checkInvalid call realm text
  | _, .checkValid text => EcmaCore.checkValid call realm text
  | _, .checkMap warns => EcmaCore.checkMap call realm warns
  | _, .load name => Run.read (·.load realm name)
  | _, .store name value => Run.modify (·.store realm name value)
  | _, .hold name object => Run.modify (·.hold realm name object)
  | _, .release name => Run.modify (·.release realm name)
  | _, .setExtensible object extensible =>
    Run.modifyObject object fun old => { old with extensible := extensible }
  | _, .setPrototype object prototype =>
    Run.modifyObject object fun old => { old with prototype := prototype }

/-- Makes a host function. -/
def makeFunction (realm : RealmId) (name : String) (arity : Nat) (body : Body) : Run ObjectId :=
  Run.allocate realm (.ofCallable realm name arity (.host body))

/-- Runs a program to its end. -/
def Program.run (call : Caller) : Program → Run Value
  | .finish value => pure value
  | .raise error => Run.throw error
  | .perform realm operation next => do
    let reply ← (operation.run call realm).attempt
    (next reply).run call
  | .makeFunction realm name arity body next => do
    let id ← EcmaCore.makeFunction realm name arity body
    (next id).run call

/-- What a call of a function does. -/
def Behaviour.run (call : Caller) (depth : Nat) (realm : RealmId) (callee : ObjectId)
    (receiver : Value) (arguments : List Value) : Behaviour → Run Value
  | .builtin which => which.run call depth realm receiver arguments
  | .probe which => which.run call realm callee receiver arguments
  | .host body => (body ⟨realm, receiver, arguments⟩).run call

/-- Calls a function value, with at most `depth` levels of calls. -/
def callWithin : Nat → Caller
  | 0, _, _, _, _ => Run.cutOff
  | depth + 1, realm, function, receiver, arguments =>
    match function with
    | .object id => do
      match (← Run.object id).callable with
      | some callable => do
        Run.log ⟨id, receiver, arguments, .begun⟩
        callable.behaviour.run (callWithin depth) depth realm id receiver arguments
      | none => Run.throw (.notCallable (← Run.display function))
    | primitive => do Run.throw (.notCallable (← Run.display primitive))

end EcmaCore
