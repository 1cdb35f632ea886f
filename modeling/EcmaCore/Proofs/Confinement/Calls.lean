/-
This file ties the knot: calls of function values are confined, with any number of levels
left. A builtin function goes on by operations that are confined if calls one level deeper
are, and a host function runs a program that was found in an object of the territory, so
the program stays within it.

What a program within a territory can bring about is therefore what the confinement allows
it, whatever functions the program redefines and however it ends.
-/

import EcmaCore.Proofs.Confinement.Containers

namespace EcmaCore

open Run

variable {territory : Territory} {confinement : Confinement territory} {call : Caller}
  {realm : RealmId} {id : ObjectId} {value : Value}

/-- An argument of a call with nothing foreign is not foreign. -/
theorem Territory.within_argumentAt {arguments : List Value} (held : territory.OwnsAll arguments)
    (index : Nat) : (argumentAt arguments index).Within territory := by
  rw [argumentAt, List.getD_eq_getElem?_getD]
  cases found : arguments[index]? with
  | none => exact Value.within_undefined
  | some value => exact held value (List.mem_of_getElem? found)

/-! ### Builtin functions -/

section

variable (governed : territory.governs realm) (within : value.Within territory)
include governed within

theorem confined_constructObject :
    (constructObject realm value).Confined confinement territory.owns := by
  unfold constructObject
  split
  · exact confined_allocate governed (Object.within_plain governed)
  · exact confined_allocate governed (Object.within_plain governed)
  · exact confined_toObject governed within

theorem contained_tagOf : (tagOf realm value).Contained confinement := by
  cases value with
  | undefined => exact contained_pure _
  | null => exact contained_pure _
  | _ =>
    refine (confined_toObject governed within).bind fun id owned => ?_
    exact (confined_object owned).contained.bind fun _ => contained_pure _

theorem confined_prototypeValue :
    (prototypeValue realm value).Confined confinement (Value.Within territory) := by
  refine (confined_toObject governed within).bind fun id owned => ?_
  refine (confined_object owned).bind fun object withinObject => confined_pure ?_
  cases next : object.prototype with
  | none => exact Value.within_of_primitive rfl
  | some parent => exact Value.within_object.mpr (withinObject.prototype parent next)

end

section

variable (caller : call.Confined confinement) (governed : territory.governs realm)
include caller governed

theorem confined_keysOf (within : value.Within territory) :
    (keysOf call realm value).Confined confinement territory.owns := by
  refine (confined_toObject governed within).bind fun id owned => ?_
  refine (confined_object owned).contained.bind fun object => confined_arrayOf caller governed ?_
  intro text member
  obtain ⟨key, _, rfl⟩ := List.mem_map.mp member
  exact Value.within_of_primitive rfl

theorem contained_hasOwn {receiver key : Value} (within : receiver.Within territory)
    (withinKey : key.Within territory) :
    (hasOwn call realm receiver key).Contained confinement := by
  refine (contained_toKey caller governed withinKey).bind fun key => ?_
  refine (confined_toObject governed within).bind fun id owned => ?_
  exact (confined_object owned).contained.bind fun _ => contained_pure _

theorem contained_separatorOf (within : value.Within territory) :
    (separatorOf call realm value).Contained confinement := by
  unfold separatorOf
  split
  · exact contained_pure _
  · exact contained_toUnits caller governed within

theorem confined_parseWith (depth : Nat) {text reviver : Value} (within : text.Within territory)
    (withinReviver : reviver.Within territory) :
    (parseWith call depth realm text reviver).Confined confinement (Value.Within territory) := by
  refine (contained_toUnits caller governed within).bind fun units => ?_
  refine (Json.confined_readValue caller governed units).bind fun value withinValue => ?_
  refine (contained_isCallable withinReviver).bind fun callable => ?_
  cases callable with
  | true => exact Json.confined_reviveRoot caller governed depth withinValue withinReviver
  | false => exact confined_pure withinValue

theorem confined_builtin (depth : Nat) {receiver : Value} {arguments : List Value}
    (held : territory.OwnsAll (receiver :: arguments)) (which : Builtin) :
    (which.run call depth realm receiver arguments).Confined confinement
      (Value.Within territory) := by
  obtain ⟨within, heldArguments⟩ := Territory.ownsAll_cons.mp held
  have argument := Territory.within_argumentAt heldArguments
  cases which with
  | functionPrototype => exact confined_pure Value.within_undefined
  | object => exact (confined_constructObject governed (argument 0)).asValue
  | objectDefineProperty =>
    exact confined_defineProperty caller governed (by simp [argument])
  | objectGetOwnPropertyDescriptor =>
    exact confined_ownDescription caller governed (argument 0) (argument 1)
  | objectGetPrototypeOf => exact confined_prototypeValue governed (argument 0)
  | objectKeys => exact (confined_keysOf caller governed (argument 0)).asValue
  | objectHasOwnProperty =>
    exact (contained_hasOwn caller governed within (argument 0)).bind fun _ =>
      confined_pure (Value.within_of_primitive rfl)
  | objectToString =>
    exact (contained_tagOf governed within).bind fun _ =>
      confined_pure (Value.within_of_primitive rfl)
  | objectValueOf => exact (confined_toObject governed within).asValue
  | array => exact (confined_constructArray caller governed heldArguments).asValue
  | arrayIsArray =>
    exact (contained_isArray (argument 0)).bind fun _ =>
      confined_pure (Value.within_of_primitive rfl)
  | arrayMap => exact confined_mapArray caller governed (by simp [within, argument])
  | arrayJoin =>
    refine (contained_separatorOf caller governed (argument 0)).bind fun separator => ?_
    exact (contained_joinArray caller governed within separator).bind fun _ =>
      confined_pure (Value.within_of_primitive rfl)
  | arrayToString =>
    exact (contained_joinArray caller governed within _).bind fun _ =>
      confined_pure (Value.within_of_primitive rfl)
  | jsonParse => exact confined_parseWith caller governed depth (argument 0) (argument 1)
  | jsonStringify =>
    have written := Json.contained_stringify caller governed (argument 0)
    refine written.bind fun text => confined_pure ?_
    cases text <;> exact Value.within_of_primitive rfl

theorem contained_warnOf (warns : Bool) (within : value.Within territory) :
    (warnOf call realm warns value).Contained confinement := by
  unfold warnOf
  split
  · exact (contained_toUnits caller governed within).bind fun _ => contained_pure _
  · exact contained_pure _

theorem confined_probe {callee : ObjectId} {receiver : Value} {arguments : List Value}
    (owned : territory.owns callee) (held : territory.OwnsAll arguments) (which : Probe) :
    (which.run call realm callee receiver arguments).Confined confinement
      (Value.Within territory) := by
  have argument := Territory.within_argumentAt held 0
  cases which with
  | greet => exact confined_pure (Value.within_of_primitive rfl)
  | count warns =>
    have noted : (Run.log ⟨callee, receiver, arguments, .counted⟩).Contained confinement :=
      confinement.counted owned rfl
    refine (contained_warnOf caller governed warns argument).bind fun _ => ?_
    exact noted.bind fun _ => confined_pure Value.within_undefined
  | double =>
    exact (contained_toNumber caller governed argument).bind fun _ =>
      confined_pure (Value.within_of_primitive rfl)

theorem confined_invoke {receiver : Value} (method : String) {arguments : List Value}
    (held : territory.OwnsAll (receiver :: arguments)) :
    (invoke call realm receiver method arguments).Confined confinement
      (Value.Within territory) := by
  have within := (Territory.ownsAll_cons.mp held).1
  exact (confined_getOf caller governed within _).bind fun _ found =>
    caller _ _ _ _ governed (Territory.ownsAll_cons.mpr ⟨found, held⟩)

theorem confined_globalGet (name : String) :
    (globalGet call realm name).Confined confinement (Value.Within territory) :=
  confined_get caller governed (territory.intrinsic governed .global) _

/-! ### Conformance checks -/

theorem confined_parseByGlobal (text : String) :
    (parseByGlobal call realm text).Confined confinement (Value.Within territory) := by
  refine (confined_globalGet caller governed _).bind fun json within => ?_
  exact confined_invoke caller governed _
    (Territory.ownsAll_cons.mpr ⟨within, Territory.ownsAll_primitive rfl⟩)

theorem contained_checkInvalid (text : String) :
    (checkInvalid call realm text).Contained confinement := by
  refine (confined_parseByGlobal caller governed text).attempt.contained.bind fun result => ?_
  cases result with
  | ok value => exact contained_pure _
  | error error =>
    dsimp only
    split <;> exact contained_pure _

theorem contained_checkValid (text : String) :
    (checkValid call realm text).Contained confinement := by
  refine (confined_parseByGlobal caller governed text).attempt.contained.bind fun result => ?_
  cases result <;> exact contained_pure _

omit caller in
theorem confined_plantProbe (name : String) (arity : Nat) (probe : Probe) :
    (plantProbe realm name arity probe).Confined confinement (Value.Within territory) := by
  have within : (Behaviour.probe probe).Within territory := trivial
  exact (confined_allocate governed (Object.within_ofCallable governed name arity within)).asValue

theorem confined_plantAccessor (warns : Bool) :
    (plantAccessor call realm warns).Confined confinement (Value.Within territory) := by
  refine (confined_plantProbe governed _ _ _).bind fun getter withinGetter => ?_
  refine (confined_plantProbe governed _ _ _).bind fun setter withinSetter => ?_
  have flag : (Value.boolean true).Within territory := Value.within_of_primitive rfl
  refine (confined_objectOf caller governed
    (by simp [withinGetter, withinSetter, flag])).bind fun attributes owned => ?_
  refine (confined_globalGet caller governed _).bind fun constructor within => ?_
  have index : (Value.ofText "0").Within territory := Value.within_of_primitive rfl
  have prototype := territory.intrinsic governed .arrayPrototype
  have told : territory.OwnsAll [constructor, Intrinsic.arrayPrototype.value realm, .ofText "0",
      .object attributes] := by
    simp [within, Intrinsic.value, prototype, index, owned]
  exact (confined_invoke caller governed _ told).contained.bind fun _ =>
    confined_pure withinSetter

theorem contained_firstMismatch {result source : ObjectId} (owned : territory.owns result)
    (ownedSource : territory.owns source) (keys : List Key) :
    (firstMismatch call realm result source keys).Contained confinement := by
  induction keys with
  | nil => exact contained_pure _
  | cons key rest inductionHypothesis =>
    refine (confined_get caller governed owned key).contained.bind fun actual => ?_
    refine (confined_get caller governed ownedSource key).bind fun original within => ?_
    refine (contained_toNumber caller governed within).bind fun number => ?_
    dsimp only
    split
    · exact inductionHypothesis
    · exact contained_pure _

theorem contained_judgeMapped {source : ObjectId} {result setter : Value}
    (ownedSource : territory.owns source) (within : result.Within territory)
    (withinSetter : setter.Within territory) :
    (judgeMapped call realm source result setter).Contained confinement := by
  cases result with
  | object mapped =>
    have owned := Value.within_object.mp within
    have withinSource := Value.within_object.mpr ownedSource
    refine (confined_getOf caller governed within _).contained.bind fun length => ?_
    refine (confined_getOf caller governed withinSource _).contained.bind fun expected => ?_
    split
    · refine (contained_forInKeys owned).bind fun keys => ?_
      have compared := contained_firstMismatch caller governed owned ownedSource keys
      refine compared.bind fun mismatch => ?_
      cases mismatch with
      | some key => exact contained_pure _
      | none =>
        refine (confined_read (Territory.sees_callsOf .counted withinSetter)).bind fun calls _ => ?_
        split <;> exact contained_pure _
    · exact contained_pure _
  | _ => exact (contained_display within).bind fun _ => contained_pure _

theorem contained_checkMapping (warns : Bool) :
    (checkMapping call realm warns).Contained confinement := by
  have number (value : Nat) : (Value.number (.ofNat value)).Within territory :=
    Value.within_of_primitive rfl
  refine (confined_arrayOf caller governed (by simp [number])).bind fun source owned => ?_
  refine Confined.preserving ?_ (territory.intrinsic governed .arrayPrototype)
  refine (confined_plantAccessor caller governed warns).bind fun setter withinSetter => ?_
  refine (confined_plantProbe governed _ _ _).bind fun double within => ?_
  refine (confined_invoke caller governed _ (by simp [owned, within])).bind fun result mapped => ?_
  exact contained_judgeMapped caller governed owned mapped withinSetter

theorem contained_checkMap (warns : Bool) :
    (checkMap call realm warns).Contained confinement := by
  refine (contained_checkMapping caller governed warns).attempt.contained.bind fun result => ?_
  cases result <;> exact contained_pure _

/-! ### Operations -/

/-- An operation that is asked with nothing foreign replies with nothing foreign, and is confined,
as long as calls are. -/
theorem confined_operation {shape : Shape} (operation : Operation shape)
    (held : territory.OwnsAll operation.values) :
    (operation.run call realm).Confined confinement
      fun answer => territory.OwnsAll (shape.values answer) := by
  have plain {shape : Shape} {run : Run shape.Reply} (contained : run.Contained confinement)
      (nothing : ∀ answer, shape.values answer = []) :
      run.Confined confinement fun answer => territory.OwnsAll (shape.values answer) :=
    contained.weaken fun answer _ => nothing answer ▸ Territory.ownsAll_nil
  have told {run : Run Value} (confined : run.Confined confinement (Value.Within territory)) :
      run.Confined confinement fun answer => territory.OwnsAll [answer] :=
    confined.weaken fun _ => Territory.ownsAll_singleton.mpr
  have made {run : Run ObjectId} (confined : run.Confined confinement territory.owns) :
      run.Confined confinement fun answer => territory.OwnsAll [.object answer] :=
    confined.weaken fun _ owned => Territory.ownsAll_singleton.mpr (Value.within_object.mpr owned)
  cases operation with
  | makeObject prototype kind =>
    refine made (confined_allocate governed (Object.within_bare kind fun parent same => ?_))
    simpa [Operation.values, same] using held
  | makeArray => exact made (confined_allocate governed (Object.within_emptyArray governed))
  | arrayOf elements => exact made (confined_arrayOf caller governed held)
  | get object key receiver =>
    obtain ⟨owned, within⟩ := by simpa [Operation.values] using held
    exact told (confined_getFor caller governed owned key within)
  | getOf base key =>
    exact told (confined_getOf caller governed (Territory.ownsAll_singleton.mp held) key)
  | set object key value =>
    obtain ⟨owned, within⟩ := by simpa [Operation.values] using held
    exact plain (contained_set caller governed owned key within) fun _ => rfl
  | setFor object key value receiver =>
    obtain ⟨owned, within, withinReceiver⟩ := by simpa [Operation.values] using held
    exact plain (contained_setFor caller governed owned key within withinReceiver) fun _ => rfl
  | define object key descriptor =>
    obtain ⟨owned, asked⟩ := by simpa [Operation.values] using held
    exact plain (contained_define caller governed owned key asked) fun _ => rfl
  | defineOrThrow object key descriptor =>
    obtain ⟨owned, asked⟩ := by simpa [Operation.values] using held
    exact plain (contained_defineOrThrow caller governed owned key asked) fun _ => rfl
  | create object key value =>
    obtain ⟨owned, within⟩ := by simpa [Operation.values] using held
    exact plain (contained_create caller governed owned key within) fun _ => rfl
  | createOrThrow object key value =>
    obtain ⟨owned, within⟩ := by simpa [Operation.values] using held
    exact plain (contained_createOrThrow caller governed owned key within) fun _ => rfl
  | delete object key =>
    have owned : territory.owns object := by simpa [Operation.values] using held
    exact plain (contained_delete owned key) fun _ => rfl
  | has object key =>
    have owned : territory.owns object := by simpa [Operation.values] using held
    exact plain (contained_has owned key) fun _ => rfl
  | ownProperty object key =>
    have owned : territory.owns object := by simpa [Operation.values] using held
    refine confined_read (Territory.sees_object owned (·.own? key) fun object within => ?_)
    cases slot : object.own? key with
    | none => exact Territory.ownsAll_nil
    | some property =>
      show territory.OwnsAll ([property].flatMap Property.values)
      rw [List.flatMap_singleton]
      exact within.own? slot
  | ownKeys object =>
    have owned : territory.owns object := by simpa [Operation.values] using held
    exact confined_read (Territory.sees_object owned (·.ownKeys) fun _ _ => Territory.ownsAll_nil)
  | forInKeys object =>
    have owned : territory.owns object := by simpa [Operation.values] using held
    exact plain (contained_forInKeys owned) fun _ => rfl
  | prototypeOf object =>
    have owned : territory.owns object := by simpa [Operation.values] using held
    refine confined_read (Territory.sees_object owned (·.prototype) fun object within => ?_)
    cases next : object.prototype with
    | none => exact Territory.ownsAll_nil
    | some parent =>
      have ownedParent := within.prototype parent next
      exact Territory.ownsAll_singleton.mpr (Value.within_object.mpr ownedParent)
  | defineProperty target key attributes =>
    exact told (confined_defineProperty caller governed held)
  | ownDescription target key =>
    obtain ⟨within, withinKey⟩ := by simpa [Operation.values] using held
    exact told (confined_ownDescription caller governed within withinKey)
  | readDescription attributes =>
    exact confined_readDescription caller governed (Territory.ownsAll_singleton.mp held)
  | describe descriptor => exact told (confined_describe caller governed held).asValue
  | isArray value =>
    exact plain (contained_isArray (Territory.ownsAll_singleton.mp held)) fun _ => rfl
  | isCallable value =>
    exact plain (contained_isCallable (Territory.ownsAll_singleton.mp held)) fun _ => rfl
  | arrayLength object =>
    have owned : territory.owns object := by simpa [Operation.values] using held
    exact confined_read (Territory.sees_object owned
      (fun object => if object.isArray then some object.arrayLength else none)
      fun _ _ => Territory.ownsAll_nil)
  | toNumber value =>
    have within := Territory.ownsAll_singleton.mp held
    exact plain (contained_toNumber caller governed within) fun _ => rfl
  | toUnits value =>
    have within := Territory.ownsAll_singleton.mp held
    exact plain (contained_toUnits caller governed within) fun _ => rfl
  | toObject value =>
    exact made (confined_toObject governed (Territory.ownsAll_singleton.mp held))
  | toLength value =>
    have within := Territory.ownsAll_singleton.mp held
    exact plain (contained_toLength caller governed within) fun _ => rfl
  | toKey value =>
    have within := Territory.ownsAll_singleton.mp held
    exact plain (contained_toKey caller governed within) fun _ => rfl
  | display value =>
    exact plain (contained_display (Territory.ownsAll_singleton.mp held)) fun _ => rfl
  | call function receiver arguments => exact told (caller _ _ _ _ governed held)
  | invoke receiver method arguments => exact told (confined_invoke caller governed method held)
  | globalGet name => exact told (confined_globalGet caller governed name)
  | arrayMap source callback receiver => exact told (confined_mapArray caller governed held)
  | parse text => exact told (Json.confined_readValue caller governed text)
  | stringify value =>
    have within := Territory.ownsAll_singleton.mp held
    exact plain (Json.contained_stringify caller governed within) fun _ => rfl
  | checkInvalid text => exact plain (contained_checkInvalid caller governed text) fun _ => rfl
  | checkValid text => exact plain (contained_checkValid caller governed text) fun _ => rfl
  | checkMap warns => exact plain (contained_checkMap caller governed warns) fun _ => rfl
  | load name => exact told (confined_read (Territory.sees_load governed name))
  | store name value =>
    have within := Territory.ownsAll_singleton.mp held
    have confines := Territory.confines_store governed name within
    exact plain (contained_modify confines fun _ => World.runsAlike_store name value) fun _ => rfl
  | hold name object =>
    have owned : territory.owns object := by simpa [Operation.values] using held
    have confines := Territory.confines_hold governed name owned
    exact plain (contained_modify confines fun _ => World.runsAlike_hold name) fun _ => rfl
  | release name =>
    have confines := Territory.confines_release governed name
    exact plain (contained_modify confines fun _ => World.runsAlike_release name) fun _ => rfl
  | setExtensible object extensible =>
    have owned : territory.owns object := by simpa [Operation.values] using held
    refine plain (contained_modify (Territory.confines_modifyObject owned ?_)
      fun _ => World.runsAlike_modifyObject _) fun _ => rfl
    exact fun _ within => ⟨within.table, within.prototype, within.callable⟩
  | setPrototype object prototype =>
    obtain ⟨within, next⟩ := Territory.ownsAll_cons.mp held
    have owned := Value.within_object.mp within
    refine plain (contained_modify (Territory.confines_modifyObject owned ?_)
      fun _ => World.runsAlike_modifyObject _) fun _ => rfl
    refine fun _ within => ⟨within.table, fun parent same => ?_, within.callable⟩
    subst same
    simpa using next

/-! ### Programs and calls -/

omit governed in
/-- A program within the territory is confined, as long as calls are. -/
theorem confined_program {program : Program} (within : program.Within territory) :
    (program.run call).Confined confinement (Value.Within territory) := by
  induction program with
  | finish value => exact confined_pure within
  | raise error => exact confined_throw error
  | perform realm operation next inductionHypothesis =>
    obtain ⟨governed, held, withinNext⟩ := within
    refine (confined_operation caller governed operation held).attempt.bind fun reply told => ?_
    exact inductionHypothesis reply (withinNext reply told)
  | makeFunction realm name arity body next _ inductionHypothesis =>
    obtain ⟨governed, withinBody, withinNext⟩ := within
    have made : (makeFunction realm name arity body).Confined confinement territory.owns :=
      confined_allocate governed (Object.within_ofCallable governed name arity withinBody)
    exact made.bind fun id owned => inductionHypothesis id (withinNext id owned)

end

/-- With any number of levels left, calls are confined. -/
theorem confined_callWithin (confinement : Confinement territory) (depth : Nat) :
    (callWithin depth).Confined confinement := by
  induction depth with
  | zero => exact fun _ _ _ _ _ _ => confined_cutOff
  | succ depth inductionHypothesis =>
    intro realm function receiver arguments governed held
    obtain ⟨within, told⟩ := Territory.ownsAll_cons.mp held
    cases function with
    | object id =>
      have owned := Value.within_object.mp within
      have heldArguments := (Territory.ownsAll_cons.mp told).2
      have argument := Territory.within_argumentAt heldArguments 0
      have missing : (do Run.throw (.notCallable (← Run.display (.object id))) : Run Value).Confined
          confinement (Value.Within territory) :=
        (contained_display within).bind fun _ => confined_throw _
      refine confinement.called owned missing (fun callable withinCalled => ?_) fun warns =>
        contained_warnOf inductionHypothesis governed warns argument
      cases behaviour : callable.behaviour with
      | builtin which => exact confined_builtin inductionHypothesis governed depth told which
      | probe which => exact confined_probe inductionHypothesis governed owned heldArguments which
      | host body =>
        rw [behaviour] at withinCalled
        exact confined_program inductionHypothesis
          (withinCalled ⟨realm, receiver, arguments⟩ governed told)
    | _ => exact (contained_display within).bind fun _ => confined_throw _

end EcmaCore
