/-
This file follows mapping where every element is there as data and the callback turns it into
another value without doing anything. Nothing that the source or the result inherits is
asked then, so mapping comes to its end in a new array of the values that the callback
returns, and all that it did besides is to call.
-/

import EcmaCore.Proofs.Engine.Calling
import EcmaCore.Proofs.Engine.Mapping

namespace EcmaCore

/-- A call that is given the value first returns another value, and does nothing. -/
def Behaviour.Turns (behaviour : Behaviour) (value turned : Value) : Prop :=
  ∀ (depth bound : Nat) (realm : RealmId) (callee : ObjectId) (receiver : Value)
    (rest : List Value) (world : World),
    (behaviour.run (callWithin depth) bound realm callee receiver (value :: rest)).outcome world =
      .done turned world

/-- The values are there as data under their indices. -/
def Object.HoldsData (object : Object) (values : List Value) : Prop :=
  ∀ index, (inside : index < values.length) → ∃ writable enumerable configurable,
    object.own? (.ofIndex index) =
      some (.data values[index] writable enumerable configurable)

theorem Object.IsArrayOf.holdsData {object : Object} {realm : RealmId} {values : List Value}
    (array : object.IsArrayOf realm values) : object.HoldsData values := fun index inside =>
  ⟨true, true, true, array.element index inside⟩

/-- An object with values, the callback that turns them, and an array that is being filled with what
becomes of the first of them. -/
structure Turning (realm : RealmId) (values : List Value) (turn : Value → Value)
    (source callback result : ObjectId) (before : List Value) (world : World) : Prop where
  hasSource : world.Has source
  hasCallback : world.Has callback
  hasResult : world.Has result
  sourceApart : source ≠ result
  callbackApart : callback ≠ result
  source : (world.object source).HoldsData values
  callback : ∃ callable, (world.object callback).callable = some callable ∧
    ∀ value ∈ values, callable.behaviour.Turns value (turn value)
  filled : (world.object result).PartlyFilled realm values.length ((before.map turn).map some)

namespace Turning

variable {realm : RealmId} {values before : List Value} {turn : Value → Value}
  {source callback result : ObjectId} {world : World}

/-- What changes nothing and calls something leaves all of it as it is. -/
theorem of_spends (turning : Turning realm values turn source callback result before world)
    {called : List ObjectId} {after : World} (spends : world.Spends [] called after) :
    Turning realm values turn source callback result before after where
  hasSource := spends.has _ turning.hasSource
  hasCallback := spends.has _ turning.hasCallback
  hasResult := spends.has _ turning.hasResult
  sourceApart := turning.sourceApart
  callbackApart := turning.callbackApart
  source := by rw [spends.object _ turning.hasSource nofun]; exact turning.source
  callback := by rw [spends.object _ turning.hasCallback nofun]; exact turning.callback
  filled := by rw [spends.object _ turning.hasResult nofun]; exact turning.filled

/-- What became of the next value is written to the result. -/
theorem outcome_write (turning : Turning realm values turn source callback result before world)
    (inside : before.length < values.length) (bound : values.length ≤ maxLength) (call : Caller)
    (value : Value) :
    ∃ after, (createOrThrow call realm result (.ofIndex before.length) (turn value)).outcome
        world = .done () after ∧ world.Spends [result] [] after ∧
      Turning realm values turn source callback result (before ++ [value]) after := by
  have length : ((before.map turn).map some).length = before.length := by
    rw [List.length_map, List.length_map]
  have put := turning.filled.put (turn value)
  rw [← turning.filled.created_eq (by rwa [length]) bound, length] at put
  refine ⟨_, outcome_createOrThrow call realm turning.filled.receptive
    (fun _ => Key.ofIndex_ne_length before.length) _,
    World.spends_modifyObject (List.mem_singleton_self _) _,
    (World.has_modifyObject _ _).mpr turning.hasSource,
    (World.has_modifyObject _ _).mpr turning.hasCallback,
    (World.has_modifyObject _ _).mpr turning.hasResult, turning.sourceApart,
    turning.callbackApart, ?_, ?_, ?_⟩
  · rw [World.object_modifyObject_of_ne turning.sourceApart]
    exact turning.source
  · rw [World.object_modifyObject_of_ne turning.callbackApart]
    exact turning.callback
  · rw [World.object_modifyObject_self turning.hasResult, List.map_append, List.map_append]
    exact put

/-- The callback turns the next value, and the result is written. -/
theorem outcome_mapElement
    (turning : Turning realm values turn source callback result before world) {value : Value}
    {rest : List Value} (next : values = before ++ value :: rest)
    (bound : values.length ≤ maxLength) (depth : Nat) (receiver : Value) :
    ∃ after, (mapElement (callWithin (depth + 1)) realm source result (.object callback) receiver
        before.length).outcome world = .done () after ∧
      world.Spends [result] [callback] after ∧
      Turning realm values turn source callback result (before ++ [value]) after := by
  have inside : before.length < values.length := by simp [next]
  obtain ⟨writable, enumerable, configurable, slot⟩ := turning.source before.length inside
  have here : values[before.length] = value := by simp [next]
  rw [here] at slot
  have found := World.search_of_own? slot
  have got : (get (callWithin (depth + 1)) realm source (.ofIndex before.length)).outcome world =
      .done value world := outcome_getFor_of_found _ realm _ found
  obtain ⟨callable, callee, turns⟩ := turning.callback
  have called : (callWithin (depth + 1) realm (.object callback) receiver
      [value, .number (.ofNat before.length), .object source]).outcome world =
      .done (turn value) (world.logged ⟨callback, receiver, _, .begun⟩) :=
    (outcome_callWithin depth realm _ _ callee).trans
      (turns value (by simp [next]) depth depth realm callback receiver _ _)
  have spends : world.Spends [] [callback] (world.logged ⟨callback, receiver,
      [value, .number (.ofNat before.length), .object source], .begun⟩) :=
    World.spends_logged (List.mem_singleton_self _) _ _
  obtain ⟨after, written, changes, turning⟩ :=
    (turning.of_spends spends).outcome_write inside bound (callWithin (depth + 1)) value
  refine ⟨after, ?_, ?_, turning⟩
  · rw [outcome_mapElement_of_found _ _ _ _ _ found, got, Outcome.andThen_done, called,
      Outcome.andThen_done, written]
  · exact (spends.mono (List.nil_subset _) (List.Subset.refl _)).trans
      (changes.mono (List.Subset.refl _) (List.nil_subset _))

/-- All values that are left are turned, one after another. -/
theorem outcome_collectFrom
    (turning : Turning realm values turn source callback result before world)
    {rest : List Value} (left : values = before ++ rest) (bound : values.length ≤ maxLength)
    (depth : Nat) (receiver : Value) (collected : List Unit) :
    ∃ results after, (Run.collectFrom (mapElement (callWithin (depth + 1)) realm source result
        (.object callback) receiver) collected before.length rest.length).outcome world =
          .done results after ∧
      world.Spends [result] [callback] after ∧
      Turning realm values turn source callback result values after := by
  induction rest generalizing before world collected with
  | nil =>
    rw [List.append_nil] at left
    exact ⟨_, world, rfl, .refl world, left ▸ turning⟩
  | cons value rest inductionHypothesis =>
    obtain ⟨between, stepped, spends, later⟩ := turning.outcome_mapElement left bound depth receiver
    obtain ⟨results, after, ended, spendsLater, last⟩ :=
      inductionHypothesis later (by simp [left]) (() :: collected)
    rw [List.length_append, List.length_singleton] at ended
    refine ⟨results, after, ?_, spends.trans spendsLater, last⟩
    rw [List.length_cons, Run.collectFrom, Run.outcome_bind_of_done stepped, ended]

end Turning

section

variable {realm : RealmId} {world measured : World} {values : List Value} {turn : Value → Value}
  {source : Value} {id callback : ObjectId} {callable : Callable} {depth : Nat}

/-- Mapping values that are there as data makes a new array of what becomes of them. -/
theorem MapStart.outcome_of_turns
    (start : MapStart (callWithin (depth + 1)) realm source world id values.length measured)
    (hasRealm : measured.HasRealm realm) (hasSource : measured.Has id)
    (holds : (measured.object id).HoldsData values)
    (found : (measured.object callback).callable = some callable)
    (turns : ∀ value ∈ values, callable.behaviour.Turns value (turn value))
    (bound : values.length ≤ maxLength) (receiver : Value) :
    ∃ after, (mapArray (callWithin (depth + 1)) realm source (.object callback) receiver).outcome
        world = .done (.object (measured.nextId realm)) after ∧
      measured.Spends [] [callback] after ∧ after.Has (measured.nextId realm) ∧
      (after.object (measured.nextId realm)).IsArrayOf realm (values.map turn) := by
  have hasCallback : measured.Has callback := World.has_of_callable found
  have isCallable : measured.isCallable (.object callback) = true := by
    rw [World.isCallable, found]
    rfl
  have turning : Turning realm values turn id callback (measured.nextId realm) []
      (measured.add realm (.sparseArray realm values.length)) :=
    { hasSource := hasSource.add _ _
      hasCallback := hasCallback.add _ _
      hasResult := World.has_add_nextId hasRealm _
      sourceApart := hasSource.ne_nextId
      callbackApart := hasCallback.ne_nextId
      source := by rwa [World.object_add_of_ne hasSource.ne_nextId]
      callback := ⟨callable, by rwa [World.object_add_of_ne hasCallback.ne_nextId], turns⟩
      filled := by
        rw [World.object_add_nextId hasRealm]
        exact Object.partlyFilled_sparseArray realm values.length }
  obtain ⟨results, after, ended, spends, last⟩ :=
    turning.outcome_collectFrom rfl bound depth receiver []
  refine ⟨after, ?_, ?_, last.hasResult, ?_⟩
  · rw [List.length_nil] at ended
    rw [start.outcome_of_callable hasRealm isCallable bound, Run.collect, ended]
    rfl
  · exact (World.spends_add _ _ _).of_new World.not_has_nextId spends
  · have length : ((values.map turn).map some).length = values.length := by
      rw [List.length_map, List.length_map]
    have filled := last.filled
    rw [← length] at filled bound
    exact (filled.isArrayWithHoles bound).isArrayOf

end

end EcmaCore
