/-
This file ties the knot: calls of function values keep every discipline. The proof is by
the number of levels of calls that are left. A call looks up what the function does; a
builtin function goes on by operations that keep the discipline if calls one level deeper
do, and a host function runs a program that performs permitted operations only, because
the world it was found in is in order.

So a program that obeys keeps the discipline from start to end, whatever it computes from
the replies, and however often scripts are entered again on the way.
-/

import EcmaCore.Proofs.Discipline.Containers
import EcmaCore.Proofs.Discipline.Growth

namespace EcmaCore

open Discipline Run

variable {discipline : Discipline} {call : Caller}

section

variable (caller : call.Steady discipline.hosted) (realm : RealmId)

/-! ### Builtin functions -/

theorem steady_constructObject (argument : Value) :
    (constructObject realm argument).Steady discipline.hosted := by
  unfold constructObject
  split
  · exact steady_plain realm
  · exact steady_plain realm
  · exact steady_toObject realm argument

theorem steady_tagOf (value : Value) : (tagOf realm value).Steady discipline.hosted := by
  cases value with
  | undefined => exact steady_pure _
  | null => exact steady_pure _
  | _ =>
    refine (steady_toObject realm _).bind fun id => ?_
    exact (steady_object id).bind fun _ => steady_pure _

theorem steady_prototypeValue (value : Value) :
    (prototypeValue realm value).Steady discipline.hosted := by
  refine (steady_toObject realm value).bind fun id => ?_
  exact (steady_object id).bind fun _ => steady_pure _

include caller

theorem steady_keysOf (value : Value) : (keysOf call realm value).Steady discipline.hosted := by
  refine (steady_toObject realm value).bind fun id => ?_
  exact (steady_object id).bind fun _ => steady_arrayOf caller realm _

theorem steady_hasOwn (receiver key : Value) :
    (hasOwn call realm receiver key).Steady discipline.hosted := by
  refine (steady_toKey caller realm key).bind fun key => ?_
  refine (steady_toObject realm receiver).bind fun id => ?_
  exact (steady_object id).bind fun _ => steady_pure _

theorem steady_separatorOf (argument : Value) :
    (separatorOf call realm argument).Steady discipline.hosted := by
  unfold separatorOf
  split
  · exact steady_pure _
  · exact steady_toUnits caller realm argument

theorem steady_parseWith (depth : Nat) (text reviver : Value) :
    (parseWith call depth realm text reviver).Steady discipline.hosted := by
  refine (steady_toUnits caller realm text).bind fun units => ?_
  refine (Json.steady_readValue caller realm units).bind fun value => ?_
  refine (steady_isCallable reviver).bind fun callable => ?_
  cases callable with
  | true => exact Json.steady_reviveRoot caller realm depth value reviver
  | false => exact steady_pure _

theorem steady_builtin (depth : Nat) (receiver : Value) (arguments : List Value)
    (which : Builtin) :
    (which.run call depth realm receiver arguments).Steady discipline.hosted := by
  cases which with
  | functionPrototype => exact steady_pure _
  | object => exact (steady_constructObject realm _).bind fun _ => steady_pure _
  | objectDefineProperty => exact steady_defineProperty caller realm _ _ _
  | objectGetOwnPropertyDescriptor => exact steady_ownDescription caller realm _ _
  | objectGetPrototypeOf => exact steady_prototypeValue realm _
  | objectKeys => exact (steady_keysOf caller realm _).bind fun _ => steady_pure _
  | objectHasOwnProperty => exact (steady_hasOwn caller realm _ _).bind fun _ => steady_pure _
  | objectToString => exact (steady_tagOf realm _).bind fun _ => steady_pure _
  | objectValueOf => exact (steady_toObject realm _).bind fun _ => steady_pure _
  | array => exact (steady_constructArray caller realm _).bind fun _ => steady_pure _
  | arrayIsArray => exact (steady_isArray _).bind fun _ => steady_pure _
  | arrayMap => exact steady_mapArray caller realm _ _ _
  | arrayJoin =>
    refine (steady_separatorOf caller realm _).bind fun separator => ?_
    exact (steady_joinArray caller realm _ separator).bind fun _ => steady_pure _
  | arrayToString => exact (steady_joinArray caller realm _ _).bind fun _ => steady_pure _
  | jsonParse => exact steady_parseWith caller realm depth _ _
  | jsonStringify => exact (Json.steady_stringify caller realm _).bind fun _ => steady_pure _

theorem steady_warnOf (warns : Bool) (value : Value) :
    (warnOf call realm warns value).Steady discipline.hosted := by
  unfold warnOf
  split
  · exact (steady_toUnits caller realm value).bind fun _ => steady_pure _
  · exact steady_pure _

omit caller in
/-- To note a call of a function that is there is no change of an object. -/
theorem follows_log {world : World} (start : discipline.hosted.holds world) {noted : Call}
    (made : world.Has noted.callee) :
    (Run.log noted).Follows discipline.hosted (fun _ => True) world := by
  have objects : world.SameObjects (world.logged noted) := fun _ => rfl
  have known : ∀ entry ∈ (world.logged noted).log, entry ∈ world.log ∨ world.Has entry.callee := by
    intro entry member
    rcases Array.mem_push.mp member with old | rfl
    · exact Or.inl old
    · exact Or.inr made
  have later : world.log.toList <+: (world.logged noted).log.toList :=
    ⟨_, Array.toList_push.symm⟩
  exact ⟨hosted_moves (discipline.quiet start.1 objects (fun _ => rfl) known later)
    (start.2.of_sameObjects objects), trivial⟩

/-- A planted function that is there keeps the discipline. If it counts the call, scripts may have
run since it began, but the function has not gone. -/
theorem follows_probe (grows : call.Steady kindDiscipline.hosted) {world : World}
    (start : discipline.hosted.holds world) {callee : ObjectId} (made : world.Has callee)
    (receiver : Value) (arguments : List Value) (which : Probe) :
    (which.run call realm callee receiver arguments).Follows discipline.hosted (fun _ => True)
      world := by
  cases which with
  | greet => exact trivial
  | count warns =>
    refine ((steady_warnOf caller realm warns _).follows world start).bind_of_done start ?_
    intro _ warned ended _ holds _
    have stillMade := ((steady_warnOf grows realm warns _).sameKinds ended callee made).1
    exact (follows_log holds stillMade).bind holds fun _ _ => steady_pure _
  | double =>
    exact ((steady_toNumber caller realm _).bind fun _ => steady_pure _).follows world start

theorem steady_invoke (receiver : Value) (method : String) (arguments : List Value) :
    (invoke call realm receiver method arguments).Steady discipline.hosted :=
  (steady_getOf caller realm receiver _).bind fun _ => caller _ _ _ _

theorem steady_globalGet (name : String) :
    (globalGet call realm name).Steady discipline.hosted :=
  steady_get caller realm _ _

/-! ### Conformance checks -/

theorem steady_parseByGlobal (text : String) :
    (parseByGlobal call realm text).Steady discipline.hosted :=
  (steady_globalGet caller realm _).bind fun _ => steady_invoke caller realm _ _ _

theorem steady_checkInvalid (text : String) :
    (checkInvalid call realm text).Steady discipline.hosted := by
  refine (steady_parseByGlobal caller realm text).attempt.bind fun result => ?_
  cases result with
  | ok value => exact steady_pure _
  | error error =>
    dsimp only
    split <;> exact steady_pure _

theorem steady_checkValid (text : String) :
    (checkValid call realm text).Steady discipline.hosted := by
  refine (steady_parseByGlobal caller realm text).attempt.bind fun result => ?_
  cases result <;> exact steady_pure _

omit caller in
theorem steady_plantProbe (name : String) (arity : Nat) (probe : Probe) :
    (plantProbe realm name arity probe).Steady discipline.hosted := by
  have obeys : (Behaviour.probe probe).Obeys discipline.permits := trivial
  exact (steady_function obeys).bind fun _ => steady_pure _

theorem steady_plantAccessor (warns : Bool) :
    (plantAccessor call realm warns).Steady discipline.hosted := by
  refine (steady_plantProbe realm _ _ _).bind fun getter => ?_
  refine (steady_plantProbe realm _ _ _).bind fun setter => ?_
  refine (steady_objectOf caller realm _).bind fun attributes => ?_
  refine (steady_globalGet caller realm _).bind fun constructor => ?_
  exact (steady_invoke caller realm _ _ _).bind fun _ => steady_pure _

theorem steady_firstMismatch (result source : ObjectId) (keys : List Key) :
    (firstMismatch call realm result source keys).Steady discipline.hosted := by
  induction keys with
  | nil => exact steady_pure _
  | cons key rest inductionHypothesis =>
    refine (steady_get caller realm result key).bind fun actual => ?_
    refine (steady_get caller realm source key).bind fun original => ?_
    refine (steady_toNumber caller realm original).bind fun number => ?_
    dsimp only
    split
    · exact inductionHypothesis
    · exact steady_pure _

theorem steady_judgeMapped (source : ObjectId) (result setter : Value) :
    (judgeMapped call realm source result setter).Steady discipline.hosted := by
  cases result with
  | object mapped =>
    refine (steady_getOf caller realm _ _).bind fun length => ?_
    refine (steady_getOf caller realm _ _).bind fun expected => ?_
    split
    · refine (steady_forInKeys mapped).bind fun keys => ?_
      refine (steady_firstMismatch caller realm mapped source keys).bind fun mismatch => ?_
      cases mismatch with
      | some key => exact steady_pure _
      | none =>
        refine (steady_read _).bind fun calls => ?_
        split <;> exact steady_pure _
    · exact steady_pure _
  | _ => exact (steady_display _).bind fun _ => steady_pure _

omit caller in
/-- Whatever is put back at the end was taken at the start, and the rule has been kept since. -/
theorem steady_preserving {α : Type} {run : Run α} {warns : Bool}
    (permitted : discipline.permits _ (.checkMap warns)) (steady : run.Steady discipline.hosted)
    (id : ObjectId) :
    (Run.preserving id run).Steady discipline.hosted := by
  refine ⟨fun world start => ?_⟩
  refine follows_read_bind ?_
  cases captured : world.capture? id with
  | none => exact steady.follows world start
  | some snapshot =>
    refine (steady.follows world start).followedBy start (discipline.hosted.refl world) ?_
    intro reached holds since
    exact hosted_moves (discipline.restore permitted start.1 holds.1 since captured)
      (holds.2.modifyObject rfl)

/-- What the mapping check does while the array prototype is to be put back. -/
def judgedMapping (call : Caller) (realm : RealmId) (warns : Bool) (source : ObjectId) :
    Run Verdict := do
  let setter ← plantAccessor call realm warns
  let double ← plantProbe realm "" 3 .double
  let result ← invoke call realm (.object source) "map" [double]
  judgeMapped call realm source result setter

theorem steady_judgedMapping (warns : Bool) (source : ObjectId) :
    (judgedMapping call realm warns source).Steady discipline.hosted := by
  refine (steady_plantAccessor caller realm warns).bind fun setter => ?_
  refine (steady_plantProbe realm _ _ _).bind fun double => ?_
  refine (steady_invoke caller realm _ _ _).bind fun result => ?_
  exact steady_judgeMapped caller realm source result setter

theorem steady_checkMap {warns : Bool} (permitted : discipline.permits _ (.checkMap warns)) :
    (checkMap call realm warns).Steady discipline.hosted := by
  have mapping : (checkMapping call realm warns).Steady discipline.hosted := by
    refine (steady_arrayOf caller realm _).bind fun source => ?_
    exact steady_preserving permitted (steady_judgedMapping caller realm warns source) _
  refine mapping.attempt.bind fun result => ?_
  cases result <;> exact steady_pure _

end

/-! ### Operations -/

theorem steady_store (realm : RealmId) (name : String) (value : Value) :
    (Run.modify (·.store realm name value)).Steady discipline.hosted := by
  refine steady_modify fun world start => moves_unseen ?_ ?_ world start
  · exact fun _ => rfl
  · exact fun _ => rfl

theorem World.HostsObey.release {permits : Permission} {world : World}
    (hosts : world.HostsObey permits) (realm : RealmId) (name : String) :
    (world.release realm name).HostsObey permits := by
  unfold World.release
  split
  · have objects : world.SameObjects (world.modifySnapshots realm (·.erase name)) :=
      .modifyRealm fun _ => rfl
    exact (hosts.of_sameObjects objects).modifyObject rfl
  · exact hosts

theorem World.HostsObey.hold {permits : Permission} {world : World}
    (hosts : world.HostsObey permits) (realm : RealmId) (name : String) (id : ObjectId) :
    (world.hold realm name id).HostsObey permits := by
  unfold World.hold
  split
  · exact (hosts.release realm name).of_sameObjects (.modifyRealm fun _ => rfl)
  · exact hosts

/-- A permitted operation keeps the discipline, as long as calls do. -/
theorem steady_operation (caller : call.Steady discipline.hosted) (realm : RealmId)
    {shape : Shape} (operation : Operation shape)
    (permitted : discipline.permits shape operation) :
    (operation.run call realm).Steady discipline.hosted := by
  cases operation with
  | makeObject prototype kind =>
    exact steady_allocate fun world start =>
      hosted_moves (discipline.make permitted start.1) (start.2.add (hostObeys_of_callable rfl))
  | makeArray => exact steady_emptyArray realm
  | arrayOf elements => exact steady_arrayOf caller realm elements
  | get object key receiver => exact steady_getFor caller realm object key receiver
  | getOf base key => exact steady_getOf caller realm base key
  | set object key value => exact steady_set caller realm object key value
  | setFor object key value receiver => exact steady_setFor caller realm object key value receiver
  | define object key descriptor =>
    exact ⟨fun _ start =>
      follows_define caller realm object key (discipline.asked_of_define permitted) start⟩
  | defineOrThrow object key descriptor =>
    exact ⟨fun _ start => follows_defineOrThrow caller realm object key
      (discipline.asked_of_defineOrThrow permitted) start⟩
  | create object key value => exact steady_create caller realm object key value
  | createOrThrow object key value => exact steady_createOrThrow caller realm object key value
  | delete object key => exact steady_delete object key
  | has object key => exact steady_has object key
  | ownProperty object key => exact steady_read _
  | ownKeys object => exact steady_read _
  | forInKeys object => exact steady_forInKeys object
  | prototypeOf object => exact steady_read _
  | defineProperty target key attributes => exact steady_defineProperty caller realm _ _ _
  | ownDescription target key => exact steady_ownDescription caller realm _ _
  | readDescription attributes => exact steady_readDescription caller realm attributes
  | describe descriptor =>
    exact (steady_describe caller realm descriptor).bind fun _ => steady_pure _
  | isArray value => exact steady_isArray value
  | isCallable value => exact steady_isCallable value
  | arrayLength object => exact steady_read _
  | toNumber value => exact steady_toNumber caller realm value
  | toUnits value => exact steady_toUnits caller realm value
  | toObject value => exact steady_toObject realm value
  | toLength value => exact steady_toLength caller realm value
  | toKey value => exact steady_toKey caller realm value
  | display value => exact steady_display value
  | call function receiver arguments => exact caller _ _ _ _
  | invoke receiver method arguments => exact steady_invoke caller realm _ _ _
  | globalGet name => exact steady_globalGet caller realm name
  | arrayMap source callback receiver => exact steady_mapArray caller realm _ _ _
  | parse text => exact Json.steady_readValue caller realm text
  | stringify value => exact Json.steady_stringify caller realm value
  | checkInvalid text => exact steady_checkInvalid caller realm text
  | checkValid text => exact steady_checkValid caller realm text
  | checkMap warns => exact steady_checkMap caller realm permitted
  | load name => exact steady_read _
  | store name value => exact steady_store realm name value
  | hold name object =>
    exact steady_modify fun world start =>
      hosted_moves (discipline.hold permitted start.1) (start.2.hold realm name object)
  | release name =>
    exact steady_modify fun world start =>
      hosted_moves (discipline.release permitted start.1) (start.2.release realm name)
  | setExtensible object extensible =>
    exact steady_modify fun world start =>
      hosted_moves (discipline.setExtensible permitted start.1) (start.2.modifyObject rfl)
  | setPrototype object prototype =>
    exact steady_modify fun world start =>
      hosted_moves (discipline.setPrototype permitted start.1) (start.2.modifyObject rfl)

/-! ### Programs and calls -/

/-- A program that obeys keeps the discipline, as long as calls do. -/
theorem steady_program (caller : call.Steady discipline.hosted) {program : Program}
    (obeys : program.Obeys discipline.permits) : (program.run call).Steady discipline.hosted := by
  induction program with
  | finish value => exact steady_pure value
  | raise error => exact keeps_throw error
  | perform realm operation next inductionHypothesis =>
    obtain ⟨permitted, obeysNext⟩ := obeys
    refine (steady_operation caller realm operation permitted).attempt.bind fun reply => ?_
    exact inductionHypothesis reply (obeysNext reply)
  | makeFunction realm name arity body next _ inductionHypothesis =>
    obtain ⟨obeysBody, obeysNext⟩ := obeys
    have made : (makeFunction realm name arity body).Steady discipline.hosted :=
      steady_function obeysBody
    exact made.bind fun id => inductionHypothesis id (obeysNext id)

/-- With any number of levels left, calls keep the discipline. -/
theorem steady_callWithin (discipline : Discipline) (depth : Nat) :
    (callWithin depth).Steady discipline.hosted := by
  -- Calls one level deeper keep growth, too, so the induction is for all disciplines at once.
  induction depth generalizing discipline with
  | zero => exact fun _ _ _ _ => keeps_cutOff
  | succ depth inductionHypothesis =>
    intro realm function receiver arguments
    cases function with
    | object id =>
      refine ⟨fun world start => ?_⟩
      refine follows_read_bind ?_
      cases found : (world.object id).callable with
      | none => exact trivial
      | some callable =>
        have obeys : callable.behaviour.Obeys discipline.permits := start.2 id callable found
        have made := World.has_of_callable found
        have logs : (Run.log ⟨id, receiver, arguments, .begun⟩).Follows discipline.hosted
            (fun _ => True) world := follows_log start made
        have caller := inductionHypothesis discipline
        refine ⟨logs.1, ?_⟩
        have begun := logs.1.holds
        cases behaviour : callable.behaviour with
        | builtin which =>
          exact (steady_builtin caller realm depth receiver arguments which).follows _ begun
        | probe which =>
          exact follows_probe caller realm (inductionHypothesis kindDiscipline) begun made receiver
            arguments which
        | host body =>
          rw [behaviour] at obeys
          exact (steady_program caller (obeys ⟨realm, receiver, arguments⟩)).follows _ begun
    | _ => exact (steady_display _).bind fun _ => keeps_throw _

/-- A program that obeys keeps the discipline from every world in order, from start to end. -/
theorem Program.follows (discipline : Discipline) {program : Program} {world : World}
    (obeys : program.Obeys discipline.permits) (hosts : world.HostsObey discipline.permits)
    (start : discipline.rule.holds world) (depth : Nat) :
    (program.run (callWithin depth)).Follows discipline.hosted (fun _ => True) world :=
  (steady_program (steady_callWithin discipline depth) obeys).follows world ⟨start, hosts⟩

end EcmaCore
