/-
This file holds the checks of JSON parsing and array mapping. Each goes the way a
script would, through the global object, so it judges whatever functions the realm has
there now. The mapping check plants an accessor on the array prototype, which it puts
back whatever happens. The setter of the accessor warns of its calls; whether warnings are
shown is a parameter, as to show one may call scripts.
-/

import EcmaCore.Engine.Function
import EcmaCore.World.Snapshot

namespace EcmaCore

/-! ### JSON -/

/-- Parses a text with the function that the global object leads to. -/
def parseByGlobal (call : Caller) (realm : RealmId) (text : String) : Run Value := do
  let json ← globalGet call realm "JSON"
  invoke call realm json "parse" [.ofText text]

/-- The text must be refused as misspelled. -/
def checkInvalid (call : Caller) (realm : RealmId) (text : String) : Run Verdict := do
  match ← (parseByGlobal call realm text).attempt with
  | .ok _ => pure (.failed ("should have thrown SyntaxError for JSON.parse on " ++ text))
  | .error error =>
    if error.isSyntaxError then pure .passed
    else pure (.failed ("Expected SyntaxError, but got " ++ error.report))

/-- The text must be accepted. -/
def checkValid (call : Caller) (realm : RealmId) (text : String) : Run Verdict := do
  match ← (parseByGlobal call realm text).attempt with
  | .ok _ => pure .passed
  | .error error =>
    pure (.failed ("JSON.parse rejected valid input " ++ text ++ ": " ++ error.report))

/-! ### Mapping -/

/-- Makes a planted function. -/
def plantProbe (realm : RealmId) (name : String) (arity : Nat) (probe : Probe) : Run Value := do
  return .object (← Run.allocate realm (.ofCallable realm name arity (.probe probe)))

/-- Plants an enumerable accessor under the first index of the array prototype. The result is the
setter. -/
def plantAccessor (call : Caller) (realm : RealmId) (warns : Bool) : Run Value := do
  let getter ← plantProbe realm "get" 0 .greet
  let setter ← plantProbe realm "set" 1 (.count warns)
  let attributes ← objectOf call realm
    [(.text "get", getter), (.text "set", setter), (.text "enumerable", .boolean true)]
  let constructor ← globalGet call realm "Object"
  let _ ← invoke call realm constructor "defineProperty"
    [Intrinsic.arrayPrototype.value realm, .ofText "0", .object attributes]
  return setter

/-- The first of the keys whose value in the result is not twice that in the source. -/
def firstMismatch (call : Caller) (realm : RealmId) (result source : ObjectId) :
    List Key → Run (Option Key)
  | [] => pure none
  | key :: rest => do
    let actual ← get call realm result key
    let original ← get call realm source key
    let expected := (Number.ofNat 2).mul (← toNumber call realm original)
    if actual.strictlyEquals (.number expected) then firstMismatch call realm result source rest
    else pure (some key)

/-- How many calls of a function value have come to a stage. -/
def World.callsOf (world : World) (stage : Stage) (function : Value) : Nat :=
  world.log.toList.countP fun entry =>
    entry.stage == stage && Value.object entry.callee == function

/-- Judges the result of mapping the source to its doubles. -/
def judgeMapped (call : Caller) (realm : RealmId) (source : ObjectId) (result setter : Value) :
    Run Verdict :=
  match result with
  | .object mapped => do
    let length ← getOf call realm result .length
    let expected ← getOf call realm (.object source) .length
    if length.strictlyEquals expected then
      match ← firstMismatch call realm mapped source (← Run.forInKeys mapped) with
      | some key =>
        pure (.failed ("map res[" ++ key.display ++ "] does not have right value"))
      | none =>
        let calls ← Run.read (·.callsOf .counted setter)
        if calls = 0 then pure .passed
        else
          pure (.failed
            ("map invoked the inherited setter for '0' " ++ toString calls ++ " time(s)"))
    else pure (.failed "map result array is not of right length")
  | other => do
    pure (.failed ("map returned a non-object: " ++ (← Run.display other)))

/-- Maps `[1, 2, 3]` to its doubles while the array prototype has an accessor under the first index,
and judges the result. -/
def checkMapping (call : Caller) (realm : RealmId) (warns : Bool) : Run Verdict := do
  let source ← arrayOf call realm [.number (.ofNat 1), .number (.ofNat 2), .number (.ofNat 3)]
  Run.preserving (Intrinsic.arrayPrototype.id realm) do
    let setter ← plantAccessor call realm warns
    let double ← plantProbe realm "" 3 .double
    let result ← invoke call realm (.object source) "map" [double]
    judgeMapped call realm source result setter

/-- Mapping must not be disturbed by an accessor that the result inherits. An error on the way is a
finding of its own. -/
def checkMap (call : Caller) (realm : RealmId) (warns : Bool) : Run Verdict := do
  match ← (checkMapping call realm warns).attempt with
  | .ok verdict => pure verdict
  | .error error => pure (.broken error)

end EcmaCore
