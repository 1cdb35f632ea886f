/-
This file joins JSON trees and script values. A tree becomes new objects without a
call and without a look at any object that was there before. A value becomes a tree
by reading it as a script would: `toJSON` methods and getters may be called and may
change anything on the way, while the containers that enclose the current value are
remembered, so that a cycle is found and the depth is bounded.
-/

import EcmaCore.Engine.Array
import EcmaCore.Json.Reader

namespace EcmaCore.Json

/-! ### From trees to values -/

mutual

/-- Makes the value that a tree says, with new objects for its arrays and objects. -/
def plant (call : Caller) (realm : RealmId) : Tree → Run Value
  | .null => pure .null
  | .boolean flag => pure (.boolean flag)
  | .number value => pure (.number value)
  | .string units => pure (.string units)
  | .array elements => do
    let values ← plantElements call realm elements
    return .object (← arrayOf call realm values)
  | .object members => do
    let entries ← plantMembers call realm members
    return .object (← objectOf call realm entries)

/-- Makes the values of elements, in order. -/
def plantElements (call : Caller) (realm : RealmId) : List Tree → Run (List Value)
  | [] => pure []
  | element :: rest => do
    let value ← plant call realm element
    return value :: (← plantElements call realm rest)

/-- Makes the values of members under their keys, in order. A repeated key is defined again when
they become properties, so its last value counts and its first place. -/
def plantMembers (call : Caller) (realm : RealmId) :
    List (Units × Tree) → Run (List (Key × Value))
  | [] => pure []
  | (key, member) :: rest => do
    let value ← plant call realm member
    return (.ofUnits key, value) :: (← plantMembers call realm rest)

end

/-- The value that a text says. -/
def readValue (call : Caller) (realm : RealmId) (text : Units) : Run Value :=
  match parse text with
  | .ok tree => plant call realm tree
  | .error fault => Run.throw (.json fault)

/-! ### From values to trees -/

/-- The value that stands for another in JSON: what the `toJSON` method of an object returns. -/
def replacement (call : Caller) (realm : RealmId) (value : Value) : Run Value :=
  match value with
  | .object id => do
    let method ← get call realm id (.text "toJSON")
    if ← Run.isCallable method then call realm method value [] else pure value
  | primitive => pure primitive

/-- The tree of a number; JSON has none for NaN and the infinities. -/
def Tree.ofNumber (value : Number) : Tree := if value.isFinite then .number value else .null

/-- The units with every lone surrogate replaced, as they are when the text leaves the engine. -/
def repaired (units : Units) : Units := unitsOf (lossy units)

/-- The tree of a member, unless the key has stopped being an enumerable own key. -/
def memberTree (call : Caller) (realm : RealmId) (inner : Value → Run (Option Tree))
    (id : ObjectId) (key : Key) : Run (Option (Units × Tree)) := do
  if (← Run.object id).isEnumerable key then
    let tree ← inner (← get call realm id key)
    return tree.map fun tree => (repaired key.units, tree)
  else pure none

/-- The tree of an array: an element without a tree of its own is null. -/
def arrayTree (call : Caller) (realm : RealmId) (inner : Value → Run (Option Tree))
    (id : ObjectId) : Run Tree := do
  let length ← lengthOf call realm id
  let elements ← Run.collect length fun index => do
    return (← inner (← get call realm id (.ofIndex index))).getD .null
  return .array elements

/-- The members that are there, written one after another: a key that occurs again keeps its first
place and takes the later tree. -/
def mergedMembers (members : List (Option (Units × Tree))) : List (Units × Tree) :=
  members.foldl
    (fun written member => member.elim written fun (key, tree) => assign key tree written) []

/-- The tree of any other object. Keys that became equal when they were repaired share one
member. -/
def objectTree (call : Caller) (realm : RealmId) (inner : Value → Run (Option Tree))
    (id : ObjectId) : Run Tree := do
  return .object (mergedMembers
    (← Run.traverse (← Run.object id).ownKeys (memberTree call realm inner id)))

/-- The tree of a value inside the given containers, of which there may be `room` more. Undefined
and functions have none. -/
def treeWithin (call : Caller) (realm : RealmId) (room : Nat) (enclosing : List ObjectId)
    (value : Value) : Run (Option Tree) := do
  match ← replacement call realm value with
  | .undefined => pure none
  | .null => pure (some .null)
  | .boolean flag => pure (some (.boolean flag))
  | .number value => pure (some (.ofNumber value))
  | .string units => pure (some (.string (repaired units)))
  | .object id =>
    if ← Run.isCallable (.object id) then pure none
    else if id ∈ enclosing then Run.throw .circular
    else match room with
      | 0 => Run.throw (.json .tooDeep)
      | inside + 1 =>
        let inner := treeWithin call realm inside (id :: enclosing)
        if ← Run.isArray (.object id) then return some (← arrayTree call realm inner id)
        else return some (← objectTree call realm inner id)

/-- The JSON text of a value, none for undefined and functions. -/
def stringify (call : Caller) (realm : RealmId) (value : Value) : Run (Option Units) := do
  return (← treeWithin call realm maxDepth [] value).map Tree.compact

/-! ### Reviving -/

/-- Puts the result of a reviver in the place of a child, or deletes the child if the result is
undefined. A refusal is passed over. -/
def replaceChild (call : Caller) (realm : RealmId) (id : ObjectId) (key : Key) (result : Value) :
    Run Unit := do
  if result = .undefined then
    let _ ← delete id key
  else
    let _ ← create call realm id key result

/-- Revives the value that a holder has under a key: its children first, then the value itself. A
walk deeper than its bound is cut off. -/
def revive (call : Caller) (realm : RealmId) (reviver : Value) :
    Nat → ObjectId → Key → Run Value
  | 0, _, _ => Run.cutOff
  | depth + 1, holder, key => do
    let value ← get call realm holder key
    match value with
    | .object id =>
      let child (key : Key) : Run Unit := do
        replaceChild call realm id key (← revive call realm reviver depth id key)
      if ← Run.isArray value then
        let _ ← Run.collect (← lengthOf call realm id) fun index => child (.ofIndex index)
      else
        let _ ← Run.traverse (← Run.object id).enumerableKeys child
    | _ => pure ()
    call realm reviver (.object holder) [.string key.units, value]

/-- Revives a whole value under the empty key of a new holder. -/
def reviveRoot (call : Caller) (realm : RealmId) (depth : Nat) (value reviver : Value) :
    Run Value := do
  let root ← objectOf call realm [(.text "", value)]
  revive call realm reviver depth root (.text "")

end EcmaCore.Json
