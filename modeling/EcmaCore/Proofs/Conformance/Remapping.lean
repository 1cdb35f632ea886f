/-
This file puts an arbitrary host function in the place of the mapping function and says what
it means that the check passes then. A realm is as it was made but for that one property of
the array prototype, so the check gets as far as the call, and the function is asked for the
doubles of one, two and three with the accessor in place.

A pass does not mean that the result is two, four and six. Keys that no enumeration finds are
not compared, so a result may have holes in the place of the second and the third element, or
anything at all in places that are hidden from enumeration. This is shown by a function whose
result has one element only.

Nor does it mean that the setter was not called, where warnings are shown. A call is counted
after the warning of it, so one whose argument cannot be converted to a string is never
counted. This is shown by a function that assigns such an argument first.
-/

import EcmaCore.Proofs.Conformance.Counting
import EcmaCore.Proofs.Conformance.Vouching

namespace EcmaCore

/-! ### A host function in the place of the mapping function -/

/-- Makes a host function and assigns it to the property of the array prototype under which the
mapping function is found. -/
def installMapping (call : Caller) (realm : RealmId) (name : String) (arity : Nat) (body : Body) :
    Run ObjectId := do
  let function ← makeFunction realm name arity body
  set call realm (Intrinsic.arrayPrototype.id realm) (.text "map") (.object function)
  return function

/-- The array prototype of a new realm with another function in the place of the mapping function. -/
def remappedPrototype (realm : RealmId) (function : ObjectId) : Object :=
  (Intrinsic.arrayPrototype.object realm).put (.text "map") (.hidden (.object function))

theorem isQuietPrototype_remappedPrototype (realm : RealmId) (function : ObjectId) :
    (remappedPrototype realm function).IsQuietPrototype realm where
  takesFirst := ⟨rfl, rfl, rfl, rfl⟩
  prototype := rfl
  hidden := rfl
  noIndex := by
    have listed : (remappedPrototype realm function).ownKeys = [.length, .text "constructor",
      .text "map", .text "join", .text "toString"] := rfl
    rw [listed]
    decide

/-- Assigning to an own property that is writable data, and neither an element nor the length of an
array, changes the one object by the rules that all objects share. -/
theorem outcome_set_of_own? (call : Caller) (realm : RealmId) {world : World} {id : ObjectId}
    {name : String} {old value : Value} {enumerable configurable : Bool} {changed : Object}
    (slot : (world.object id).own? (.text name) = some (.data old true enumerable configurable))
    (noLength : Key.text name ≠ .length) (noIndex : (Key.text name).arrayIndex? = none)
    (allowed : (world.object id).redefined? (.text name) { value := some value } = some changed) :
    (set call realm id (.text name) value).outcome world =
      .done () (world.modifyObject id fun _ => changed) := by
  have defined : (define call realm id (.text name) { value := some value }).outcome world =
      .done true (world.modifyObject id fun _ => changed) := by
    rw [define, Run.outcome_bind_of_done (Run.outcome_object _ _), noIndex, if_neg noLength]
    split <;> exact outcome_changeObject allowed
  rw [outcome_set_of_data call realm slot, defined]
  rfl

theorem redefined?_arrayPrototype_map (realm : RealmId) (function : ObjectId) :
    (Intrinsic.arrayPrototype.object realm).redefined? (.text "map")
      { value := some (.object function) } = some (remappedPrototype realm function) := rfl

/-- A new realm takes the function, and nothing else in it is changed. -/
theorem outcome_installMapping {count : Nat} {realm : RealmId} (inside : realm < count)
    (call : Caller) (name : String) (arity : Nat) (body : Body) :
    ∃ function world,
      (installMapping call realm name arity body).outcome (World.fresh count) =
        .done function world ∧
      world.OriginalBesides realm (remappedPrototype realm function) ∧
      (world.object function).callable = some ⟨name, .host body⟩ ∧ world.log = #[] := by
  have has (which : Intrinsic) : (World.fresh count).Has (which.id realm) :=
    World.hasIntrinsics_fresh inside which which.mem_all
  have allocated := Run.outcome_allocate realm (.ofCallable realm name arity (.host body))
    (World.fresh count)
  have kept (which : Intrinsic) : ((World.fresh count).add realm
      (.ofCallable realm name arity (.host body))).object (which.id realm) = which.object realm := by
    rw [World.object_add_of_ne (has which).ne_nextId, World.object_fresh_intrinsic inside]
  have hasMade (which : Intrinsic) : ((World.fresh count).add realm
      (.ofCallable realm name arity (.host body))).Has (which.id realm) := (has which).add _ _
  have added := World.object_add_nextId (World.hasRealm_fresh inside)
    (.ofCallable realm name arity (.host body))
  have apart : (World.fresh count).nextId realm ≠ Intrinsic.arrayPrototype.id realm :=
    (has .arrayPrototype).ne_nextId.symm
  have uncalled : ((World.fresh count).add realm
      (.ofCallable realm name arity (.host body))).log = #[] := rfl
  generalize (World.fresh count).add realm (.ofCallable realm name arity (.host body)) = made at *
  generalize (World.fresh count).nextId realm = function at *
  have slot : (made.object (Intrinsic.arrayPrototype.id realm)).own? (.text "map") =
      some (.hidden ((Intrinsic.function .arrayMap).value realm)) := by
    rw [kept]
    rfl
  have allowed := redefined?_arrayPrototype_map realm function
  rw [← kept .arrayPrototype] at allowed
  have assigned := outcome_set_of_own? call realm slot (by decide) (by decide) allowed
  refine ⟨function, made.modifyObject (Intrinsic.arrayPrototype.id realm) fun _ =>
    remappedPrototype realm function, ?_, ⟨fun which _ => ?_, ?_, fun which other => ?_⟩, ?_,
    uncalled⟩
  · rw [installMapping, makeFunction, Run.outcome_bind_of_done allocated,
      Run.outcome_bind_of_done assigned]
    rfl
  · exact (World.has_modifyObject _ _).mpr (hasMade which)
  · exact World.object_modifyObject_self (hasMade _) _
  · have different : which.id realm ≠ Intrinsic.arrayPrototype.id realm := fun same =>
      other (Intrinsic.id_injective realm same)
    rw [World.object_modifyObject_of_ne different, kept]
  · rw [World.object_modifyObject_of_ne apart, added]
    rfl

/-! ### What a pass means -/

theorem steady_prepareMapping {discipline : Discipline} {call : Caller}
    (caller : call.Steady discipline.hosted) (realm : RealmId) (warns : Bool) :
    (prepareMapping call realm warns).Steady discipline.hosted := by
  refine (steady_arrayOf caller realm _).bind fun source => ?_
  refine (steady_plantAccessor caller realm warns).bind fun setter => ?_
  exact (steady_plantProbe realm _ _ _).bind fun double => Run.steady_pure _

/-- Whatever host function has been assigned to the place of the mapping function in a realm that is
otherwise new: if the check passes, then the function has been called on the array of one, two and
three, with the callback that doubles and while arrays inherit the accessor, and it has returned an
object. The setter has counted no call until then: where warnings are not shown it was not called,
and else each call of it has failed in the warning, as its argument could not be converted to a
string. The object reads right: its length is that of the source, and under each key that
enumeration finds there is twice what the source has by then. If, moreover, the function has left
the source and the prototypes as they were and its result has no traps, then the length is three,
the first element is there, and each element that takes part in enumeration is the double in its
place; an array of values is two, four and six. -/
theorem checkMap_vouches {count : Nat} {realm : RealmId} (inside : realm < count) (name : String)
    (arity : Nat) (body : Body) (depth : Nat) (warns : Bool) {function : ObjectId}
    {world after : World}
    (installed : (installMapping (callWithin (depth + 1)) realm name arity body).outcome
      (World.fresh count) = .done function world)
    (passed : (checkMap (callWithin (depth + 1)) realm warns).outcome world = .done .passed after) :
    ∃ trial getter setter mapped called returned judged,
      (prepareMapping (callWithin (depth + 1)) realm warns).outcome world = .done trial called ∧
      trial.Ready realm warns (remappedPrototype realm function) getter setter called ∧
      (∀ call ∈ called.log, call.callee ≠ setter) ∧
      (callWithin (depth + 1) realm (.object function) (.object trial.source)
        [trial.double]).outcome called = .done (.object mapped) returned ∧
      returned.callsOf .counted (.object setter) = 0 ∧
      (∀ call ∈ returned.log, call.callee = setter → warns = true ∧
        call.WarningFails ((callWithin (depth + 1) realm (.object function) (.object trial.source)
          [trial.double]).worlds called)) ∧
      ReadsDoubled (callWithin (depth + 1)) realm mapped trial.source returned judged ∧
      ((∀ id ∈ [trial.source, Intrinsic.arrayPrototype.id realm,
          Intrinsic.objectPrototype.id realm], returned.object id = called.object id) →
        ((returned.object mapped).IsElementary realm → (returned.object mapped).HoldsDoubles) ∧
        ∀ values : List Value, values.length ≤ maxLength →
          (returned.object mapped).IsArrayOf realm values →
          values = [.number (.ofNat 2), .number (.ofNat 4), .number (.ofNat 6)]) := by
  obtain ⟨_, _, installs, original, -, quietLog⟩ :=
    outcome_installMapping inside (callWithin (depth + 1)) name arity body
  cases installs.symm.trans installed
  have quiet := isQuietPrototype_remappedPrototype realm function
  have logged : ∀ call ∈ world.log, world.Has call.callee := by
    rw [quietLog]
    exact fun call member => absurd member (Array.not_mem_empty call)
  obtain ⟨trial, getter, setter, called, prepared, ready, uncalled⟩ :=
    original.outcome_prepareMapping quiet.takesFirst logged depth warns
  obtain ⟨_, _, result, returned, judged, prepares, mapped, judging⟩ :=
    exists_of_passed_checkMap (original.has .arrayPrototype) passed
  cases prepared.symm.trans prepares
  rw [ready.outcome_invoke_map rfl] at mapped
  obtain ⟨result, rfl, reads, uncounted⟩ := readsDoubled_of_judgeMapped judging
  -- The calls were counted after the result had been read, and no call is taken back.
  have caller := steady_callWithin historyDiscipline (depth + 1)
  have later := (steady_judgeMapped caller realm trial.source _ trial.setter).remembers judging
  have answered := (caller realm (.object function) (.object trial.source)
    [trial.double]).remembers mapped
  rw [ready.inherited] at uncounted
  have counted := Nat.le_zero.mp (uncounted ▸ later.callsOf_le .counted (.object setter))
  have failed := warningFails_of_uncounted ready.counts uncalled mapped counted
  refine ⟨trial, getter, setter, result, called, returned, judged, prepared, ready, uncalled, mapped,
    counted, failed, reads, fun same => ?_⟩
  have holds (elementary : (returned.object result).IsElementary realm) :=
    reads.holdsDoubles (ready.of_remembers answered same) quiet elementary
  exact ⟨holds, fun values bound shape => (holds (shape.isElementary bound)).values_eq shape bound⟩

/-- A function that makes an array of the same values at each call. -/
def lists (realm : RealmId) (values : List Value) : Body := fun _ =>
  .perform realm (.arrayOf values) fun
    | .ok result => .finish (.object result)
    | .error error => .raise error

theorem outcome_callWithin_lists {world : World} {function : ObjectId} {name : String}
    {home : RealmId} {values : List Value}
    (does : (world.object function).callable = some ⟨name, .host (lists home values)⟩)
    (depth : Nat) (realm : RealmId) (receiver : Value) (arguments : List Value) :
    (callWithin (depth + 1) realm (.object function) receiver arguments).outcome world =
      .done (.object ((world.logged ⟨function, receiver, arguments, .begun⟩).nextId home))
        ((world.logged ⟨function, receiver, arguments, .begun⟩).add home
          ((Object.emptyArray home).createdAll (indexed values))) := by
  rw [outcome_callWithin depth realm receiver arguments does, Behaviour.run, lists, Program.run,
    Run.outcome_bind, Run.outcome_attempt, Operation.run, outcome_arrayOf]
  rfl

/-- The function that lists two, four and six passes, and the check can vouch for it. -/
theorem checkMap_vouches_for_listed :
    ∃ function world after trial called mapped returned,
      (installMapping (callWithin 1) 0 "map" 1
        (lists 0 [.number (.ofNat 2), .number (.ofNat 4), .number (.ofNat 6)])).outcome
          (World.fresh 1) = .done function world ∧
      (checkMap (callWithin 1) 0 false).outcome world = .done .passed after ∧
      (prepareMapping (callWithin 1) 0 false).outcome world = .done trial called ∧
      (callWithin 1 0 (.object function) (.object trial.source) [trial.double]).outcome called =
        .done (.object mapped) returned ∧
      (returned.object mapped).HoldsDoubles := by
  generalize isBody : lists 0 [.number (.ofNat 2), .number (.ofNat 4), .number (.ofNat 6)] = body
  obtain ⟨last, ended⟩ := Outcome.exists_of_value? (by subst isBody; decide +kernel :
    ((installMapping (callWithin 1) 0 "map" 1 body >>= fun _ =>
      checkMap (callWithin 1) 0 false).outcome (World.fresh 1)).value? = some .passed)
  obtain ⟨function, world, installed, passed⟩ := Run.exists_of_outcome_bind ended
  obtain ⟨trial, getter, setter, mapped, called, returned, judged, prepared, ready, -, answered, -,
    -, -, holds⟩ := checkMap_vouches Nat.zero_lt_one "map" 1 body 0 false installed passed
  refine ⟨function, world, last, trial, called, mapped, returned, installed, passed, prepared,
    answered, ?_⟩
  obtain ⟨_, _, installs, original, does, -⟩ :=
    outcome_installMapping Nat.zero_lt_one (callWithin 1) "map" 1 body
  cases installs.symm.trans installed
  have remembers := (steady_prepareMapping (steady_callWithin historyDiscipline 1) 0
    false).remembers prepared
  have has (which : Intrinsic) : called.Has (which.id 0) := remembers.has _ (original.has which)
  -- The call is noted and makes a new array, so that all old objects are as they were.
  rw [← isBody] at does
  have made := outcome_callWithin_lists (remembers.callable_eq does) 0 0 (.object trial.source)
    [trial.double]
  cases made.symm.trans answered
  refine (holds fun id member => ?_).1 ?_
  · have there : called.Has id := by
      have source := World.has_of_isArray (beq_iff_eq.mpr ready.source.kind)
      simp only [List.mem_cons, List.not_mem_nil, or_false] at member
      rcases member with rfl | rfl | rfl
      · exact source
      · exact has .arrayPrototype
      · exact has .objectPrototype
    exact World.object_add_of_ne there.ne_nextId _
  · have hasRealm : (called.logged
        ⟨function, .object trial.source, [trial.double], .begun⟩).HasRealm 0 :=
      (has .global).hasRealm
    rw [World.object_add_nextId hasRealm]
    exact (Object.isArrayOf_createdAll 0 _ (by decide)).isElementary (by decide)

/-- A function whose result has the length of the source and nothing but the first element. -/
def leavesHoles : Body := fun _ => Script.toProgram do
  let result ← Script.perform 0 .makeArray
  let _ ← Script.perform 0 (.create result (.ofIndex 0) (.number (.ofNat 2)))
  Script.perform 0 (.set result .length (.number (.ofNat 3)))
  return .object result

/-- That function passes, though there is no second element. -/
theorem checkMap_passes_holes :
    ∃ function world after trial called mapped returned,
      (installMapping (callWithin 1) 0 "map" 1 leavesHoles).outcome (World.fresh 1) =
        .done function world ∧
      (checkMap (callWithin 1) 0 false).outcome world = .done .passed after ∧
      (prepareMapping (callWithin 1) 0 false).outcome world = .done trial called ∧
      (callWithin 1 0 (.object function) (.object trial.source) [trial.double]).outcome called =
        .done (.object mapped) returned ∧
      (returned.object mapped).own? (.ofIndex 1) = none := by
  obtain ⟨after, ended⟩ := Outcome.exists_of_value? (by decide +kernel :
    ((installMapping (callWithin 1) 0 "map" 1 leavesHoles >>= fun _ =>
      checkMap (callWithin 1) 0 false).outcome (World.fresh 1)).value? = some .passed)
  obtain ⟨function, world, installed, passed⟩ := Run.exists_of_outcome_bind ended
  obtain ⟨_, ended⟩ := Outcome.exists_of_value? (by decide +kernel :
    ((do
      let function ← installMapping (callWithin 1) 0 "map" 1 leavesHoles
      let trial ← prepareMapping (callWithin 1) 0 false
      let result ← callWithin 1 0 (.object function) (.object trial.source) [trial.double]
      Run.read fun world => result.object?.any fun mapped =>
        ((world.object mapped).own? (.ofIndex 1)).isNone).outcome (World.fresh 1)).value? =
      some true)
  obtain ⟨_, _, installs, ended⟩ := Run.exists_of_outcome_bind ended
  cases installs.symm.trans installed
  obtain ⟨trial, called, prepared, ended⟩ := Run.exists_of_outcome_bind ended
  obtain ⟨result, returned, answered, seen⟩ := Run.exists_of_outcome_bind ended
  cases result with
  | object mapped =>
    have hole : ((returned.object mapped).own? (.ofIndex 1)).isNone = true :=
      (Outcome.done.inj seen).1
    exact ⟨function, world, after, trial, called, mapped, returned, installed, passed, prepared,
      answered, Option.isNone_iff_eq_none.mp hole⟩
  | _ => cases seen

/-- A function that assigns to the first place of its result an object that cannot be converted to a
string, goes on whatever becomes of that, and makes the elements. -/
def assignsUnshown : Body := fun _ => Script.toProgram do
  let result ← Script.perform 0 .makeArray
  let fails ← Script.makeFunction 0 "toString" 0 fun _ => .raise (.raised .thrown "not shown")
  let unshown ← Script.perform 0 (.makeObject none .ordinary)
  let _ ← Script.perform 0 (.create unshown (.text "toString") (.object fails))
  let assign : Script _ := Script.perform 0 (.set result (.ofIndex 0) (.object unshown))
  let _ ← fun next => assign fun reply => next (.ok reply)
  let _ ← Script.perform 0 (.create result (.ofIndex 0) (.number (.ofNat 2)))
  let _ ← Script.perform 0 (.create result (.ofIndex 1) (.number (.ofNat 4)))
  let _ ← Script.perform 0 (.create result (.ofIndex 2) (.number (.ofNat 6)))
  return .object result

/-- Where warnings are shown that function passes, though it has called the setter. -/
theorem checkMap_passes_unshown :
    ∃ function world after trial called result returned,
      (installMapping (callWithin 3) 0 "map" 1 assignsUnshown).outcome (World.fresh 1) =
        .done function world ∧
      (checkMap (callWithin 3) 0 true).outcome world = .done .passed after ∧
      (prepareMapping (callWithin 3) 0 true).outcome world = .done trial called ∧
      (callWithin 3 0 (.object function) (.object trial.source) [trial.double]).outcome called =
        .done result returned ∧
      0 < returned.callsOf .begun trial.setter := by
  obtain ⟨after, ended⟩ := Outcome.exists_of_value? (by decide +kernel :
    ((installMapping (callWithin 3) 0 "map" 1 assignsUnshown >>= fun _ =>
      checkMap (callWithin 3) 0 true).outcome (World.fresh 1)).value? = some .passed)
  obtain ⟨function, world, installed, passed⟩ := Run.exists_of_outcome_bind ended
  obtain ⟨_, ended⟩ := Outcome.exists_of_value? (by decide +kernel :
    ((do
      let function ← installMapping (callWithin 3) 0 "map" 1 assignsUnshown
      let trial ← prepareMapping (callWithin 3) 0 true
      let _ ← callWithin 3 0 (.object function) (.object trial.source) [trial.double]
      Run.read (·.callsOf .begun trial.setter)).outcome (World.fresh 1)).value? = some 1)
  obtain ⟨_, _, installs, ended⟩ := Run.exists_of_outcome_bind ended
  cases installs.symm.trans installed
  obtain ⟨trial, called, prepared, ended⟩ := Run.exists_of_outcome_bind ended
  obtain ⟨result, returned, answered, counted⟩ := Run.exists_of_outcome_bind ended
  have once : returned.callsOf .begun trial.setter = 1 := (Outcome.done.inj counted).1
  exact ⟨function, world, after, trial, called, result, returned, installed, passed, prepared,
    answered, once ▸ Nat.one_pos⟩

end EcmaCore
