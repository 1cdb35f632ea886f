/-
This file proves that reading, converting, defining and assigning keep every discipline,
as long as calls of function values do. Nothing else that they do can fail to: they look
at the world, add boxes, and do single steps to single objects.

The value for an array's length is the one place where a script may run between the
question and the answer. The object is read after the script, so the step is done to what
the script has left.
-/

import EcmaCore.Proofs.Discipline.Basic
import EcmaCore.Proofs.Number.Integers

namespace EcmaCore

variable {discipline : Discipline} {call : Caller} {rule : Rule}

/-! ### The changes that the engine makes -/

namespace Discipline

theorem steady_add {realm : RealmId} {object : Object} (newborn : object.Newborn realm)
    (obeys : object.HostObeys discipline.permits) :
    (Run.allocate realm object).Steady discipline.hosted :=
  Run.steady_allocate fun _ start =>
    hosted_moves (discipline.add start.1 newborn) (start.2.add obeys)

theorem hostObeys_of_callable {permits : Permission} {object : Object}
    (none : object.callable = none) : object.HostObeys permits := by
  intro callable present
  rw [none] at present
  cases present

theorem steady_plain (realm : RealmId) :
    (Run.allocate realm (.plain realm)).Steady discipline.hosted :=
  steady_add .plain (hostObeys_of_callable rfl)

theorem steady_string (realm : RealmId) (units : Units) :
    (Run.allocate realm (.ofString realm units)).Steady discipline.hosted :=
  steady_add (.string units) (hostObeys_of_callable (Object.sameNature_putAll _ _).callable)

theorem steady_emptyArray (realm : RealmId) :
    (Run.allocate realm (.emptyArray realm)).Steady discipline.hosted :=
  steady_add .array (hostObeys_of_callable rfl)

theorem steady_function {realm : RealmId} {name : String} {arity : Nat} {behaviour : Behaviour}
    (obeys : behaviour.Obeys discipline.permits) :
    (Run.allocate realm (.ofCallable realm name arity behaviour)).Steady discipline.hosted := by
  refine steady_add (.function name arity behaviour) fun callable present => ?_
  rw [Object.ofCallable, (Object.sameNature_putAll _ _).callable] at present
  cases present
  exact obeys

/-- A change of a realm that shows in no object and in no snapshot. -/
theorem moves_unseen {realm : RealmId} {change : Realm → Realm}
    (objects : ∀ region, (change region).objects = region.objects)
    (snapshots : ∀ region, (change region).memory.snapshots = region.memory.snapshots)
    (world : World) (start : discipline.hosted.holds world) :
    discipline.hosted.Moves world (world.modifyRealm realm change) :=
  hosted_moves (discipline.quiet start.1 (.modifyRealm objects)
      (World.view_modifyRealm (fun region => region.memory.snapshots) snapshots)
      (fun _ member => Or.inl member) (List.prefix_refl _))
    (start.2.of_sameObjects (.modifyRealm objects))

theorem step_moves {world : World} {id : ObjectId} {changed : Object}
    (start : discipline.hosted.holds world)
    (step : (world.object id).Step (discipline.asked world) changed) :
    discipline.hosted.Moves world (world.modifyObject id fun _ => changed) :=
  hosted_moves (discipline.step start.1 step) (start.2.modifyObject step.sameNature.callable)

/-- The change is judged on the object as the world has it. -/
theorem follows_changeObject {id : ObjectId} {change : Object → Option Object} {world : World}
    (step : ∀ changed, change (world.object id) = some changed →
      (world.object id).Step (discipline.asked world) changed)
    (start : discipline.hosted.holds world) :
    (Run.changeObject id change).Follows discipline.hosted (fun _ => True) world := by
  refine Run.follows_read_bind ?_
  cases allowed : change (world.object id) with
  | none => exact trivial
  | some changed => exact ⟨step_moves start (step changed allowed), trivial⟩

end Discipline

open Discipline Run

/-! ### Looking -/

theorem steady_search (id : ObjectId) (key : Key) : (Run.search id key).Steady rule := by
  refine (steady_read _).bind fun found => ?_
  cases found with
  | found holder property => exact steady_pure _
  | absent => exact steady_pure _
  | endless => exact keeps_cutOff

theorem steady_has (id : ObjectId) (key : Key) : (Run.has id key).Steady rule :=
  (steady_search id key).bind fun _ => steady_pure _

theorem steady_forInKeys (id : ObjectId) : (Run.forInKeys id).Steady rule := by
  refine (steady_read _).bind fun found => ?_
  cases found with
  | some chain => exact steady_read _
  | none => exact keeps_cutOff

theorem steady_object (id : ObjectId) : (Run.object id).Steady rule := steady_read _

theorem steady_isCallable (value : Value) : (Run.isCallable value).Steady rule := steady_read _

theorem steady_isArray (value : Value) : (Run.isArray value).Steady rule := steady_read _

theorem steady_display (value : Value) : (Run.display value).Steady rule := steady_read _

/-! ### Reading and converting -/

theorem steady_toObject (realm : RealmId) (value : Value) :
    (toObject realm value).Steady discipline.hosted := by
  cases value with
  | undefined => exact (steady_display _).bind fun _ => keeps_throw _
  | null => exact (steady_display _).bind fun _ => keeps_throw _
  | boolean flag => exact steady_plain realm
  | number value => exact steady_plain realm
  | string units => exact steady_string realm units
  | object id => exact steady_pure id

section

variable (caller : call.Steady discipline.hosted) (realm : RealmId)
include caller

theorem steady_getFor (id : ObjectId) (key : Key) (receiver : Value) :
    (getFor call realm id key receiver).Steady discipline.hosted := by
  refine (steady_search id key).bind fun found => ?_
  rcases found with _ | (_ | ⟨_ | getter, _, _, _⟩)
  · exact steady_pure _
  · exact steady_pure _
  · exact steady_pure _
  · exact caller _ _ _ _

theorem steady_get (id : ObjectId) (key : Key) :
    (get call realm id key).Steady discipline.hosted :=
  steady_getFor caller realm id key _

theorem steady_getOf (base : Value) (key : Key) :
    (getOf call realm base key).Steady discipline.hosted :=
  (steady_toObject realm base).bind fun id => steady_getFor caller realm id key base

theorem steady_firstPrimitive (id : ObjectId) (names : List String) :
    (firstPrimitive call realm id names).Steady discipline.hosted := by
  induction names with
  | nil => exact keeps_throw _
  | cons name rest inductionHypothesis =>
    refine (steady_get caller realm id _).bind fun method => ?_
    refine (steady_isCallable method).bind fun callable => ?_
    cases callable with
    | false => exact inductionHypothesis
    | true =>
      refine (caller _ _ _ _).bind fun result => ?_
      cases result with
      | object other => exact inductionHypothesis
      | _ => exact steady_pure _

theorem steady_toNumber (value : Value) :
    (toNumber call realm value).Steady discipline.hosted := by
  cases value with
  | object id => exact (steady_firstPrimitive caller realm id _).bind fun _ => steady_pure _
  | _ => exact steady_pure _

theorem steady_toUnits (value : Value) : (toUnits call realm value).Steady discipline.hosted := by
  cases value with
  | object id => exact (steady_firstPrimitive caller realm id _).bind fun _ => steady_pure _
  | _ => exact steady_pure _

theorem steady_toKey (value : Value) : (toKey call realm value).Steady discipline.hosted :=
  (steady_toUnits caller realm value).bind fun _ => steady_pure _

theorem steady_toLength (value : Value) : (toLength call realm value).Steady discipline.hosted :=
  (steady_toNumber caller realm value).bind fun _ => steady_pure _

theorem steady_lengthOf (id : ObjectId) : (lengthOf call realm id).Steady discipline.hosted :=
  (steady_get caller realm id _).bind fun value => steady_toLength caller realm value

/-! ### Defining -/

/-- A definition of a length reads the array again after the value was converted. -/
theorem follows_defineLength {id : ObjectId} {descriptor : Descriptor} {world : World}
    (asked : discipline.asked world descriptor) (start : discipline.hosted.holds world) :
    (defineLength call realm id descriptor).Follows discipline.hosted (fun _ => True) world := by
  unfold defineLength
  split
  · rename_i noValue
    exact follows_changeObject (fun changed allowed =>
      .defined asked (fun _ => Key.arrayIndex?_length) (fun _ _ => noValue) allowed) start
  · rename_i value given
    have converted := (steady_toNumber caller realm value).follows world start
    refine converted.bind_of_done start fun number after _ _ startAfter since => ?_
    split
    · have still : discipline.asked after descriptor := discipline.asked_of_allows since asked
      refine ⟨step_moves startAfter (.length still ?_ number.toUint32_le), trivial⟩
      rw [given]
      rfl
    · exact trivial

theorem follows_define (id : ObjectId) (key : Key) {descriptor : Descriptor} {world : World}
    (asked : discipline.asked world descriptor) (start : discipline.hosted.holds world) :
    (define call realm id key descriptor).Follows discipline.hosted (fun _ => True) world := by
  show Run.Follows _ _ (if (world.object id).isArray then _ else _) world
  split
  · rename_i array
    split
    · exact follows_defineLength caller realm asked start
    · rename_i noLength
      cases spelled : key.arrayIndex? with
      | some index =>
        exact follows_changeObject (fun changed allowed =>
          .element asked (Key.arrayIndex?_eq_some.mp spelled).2 allowed) start
      | none =>
        exact follows_changeObject (fun changed allowed =>
          .defined asked (fun _ => spelled) (fun _ isLength => absurd isLength noLength) allowed)
          start
  · rename_i noArray
    exact follows_changeObject (fun changed allowed =>
      .defined asked (fun array => absurd array noArray) (fun array => absurd array noArray)
        allowed) start

theorem follows_defineOrThrow (id : ObjectId) (key : Key) {descriptor : Descriptor} {world : World}
    (asked : discipline.asked world descriptor) (start : discipline.hosted.holds world) :
    (defineOrThrow call realm id key descriptor).Follows discipline.hosted (fun _ => True)
      world := by
  refine (follows_define caller realm id key asked start).bind start fun met _ => ?_
  cases met with
  | true => exact steady_pure _
  | false => exact keeps_throw _

/-- A request for a value alone, or with the attributes of a data property, is lawful anywhere. -/
theorem steady_define (id : ObjectId) (key : Key) {descriptor : Descriptor}
    (noAccessor : descriptor.isAccessor = false) :
    (define call realm id key descriptor).Steady discipline.hosted where
  follows _ start := follows_define caller realm id key
    (discipline.asked_of_lawful (.of_noAccessor noAccessor)) start

theorem steady_create (id : ObjectId) (key : Key) (value : Value) :
    (create call realm id key value).Steady discipline.hosted :=
  steady_define caller realm id key rfl

theorem steady_createOrThrow (id : ObjectId) (key : Key) (value : Value) :
    (createOrThrow call realm id key value).Steady discipline.hosted := by
  refine (steady_create caller realm id key value).bind fun met => ?_
  cases met with
  | true => exact steady_pure _
  | false => exact keeps_throw _

theorem steady_createAll (id : ObjectId) (entries : List (Key × Value)) :
    (createAll call realm id entries).Steady discipline.hosted := by
  induction entries with
  | nil => exact steady_pure _
  | cons entry rest inductionHypothesis =>
    exact (steady_createOrThrow caller realm id entry.1 entry.2).bind fun _ => inductionHypothesis

theorem steady_objectOf (entries : List (Key × Value)) :
    (objectOf call realm entries).Steady discipline.hosted := by
  refine (steady_plain realm).bind fun id => ?_
  exact (steady_createAll caller realm id entries).bind fun _ => steady_pure _

omit caller in
theorem steady_delete (id : ObjectId) (key : Key) : (delete id key).Steady discipline.hosted where
  follows _ start := follows_changeObject (fun _ allowed => .deleted allowed) start

/-! ### Assigning -/

theorem steady_writeTo (receiver : Value) (key : Key) (value : Value) :
    (writeTo call realm receiver key value).Steady discipline.hosted := by
  cases receiver with
  | object target =>
    refine (steady_object target).bind fun object => ?_
    split
    · exact steady_pure _
    · exact steady_pure _
    · exact steady_define caller realm target key rfl
    · exact steady_create caller realm target key value
  | _ => exact steady_pure _

theorem steady_setFor (id : ObjectId) (key : Key) (value receiver : Value) :
    (setFor call realm id key value receiver).Steady discipline.hosted := by
  refine (steady_search id key).bind fun found => ?_
  split
  · exact (caller _ _ _ _).bind fun _ => steady_pure _
  · exact steady_pure _
  · exact steady_pure _
  · exact steady_writeTo caller realm receiver key value
  · exact steady_writeTo caller realm receiver key value

theorem steady_set (id : ObjectId) (key : Key) (value : Value) :
    (set call realm id key value).Steady discipline.hosted := by
  refine (steady_setFor caller realm id key value _).bind fun met => ?_
  cases met with
  | true => exact steady_pure _
  | false => exact keeps_throw _

/-! ### Descriptions -/

theorem steady_field (id : ObjectId) (name : String) :
    (field call realm id name).Steady discipline.hosted := by
  refine (steady_has id _).bind fun present => ?_
  cases present with
  | true => exact (steady_get caller realm id _).bind fun _ => steady_pure _
  | false => exact steady_pure _

omit caller in
theorem steady_requireCallable (given : Option Value) (complaint : String → Error) :
    (requireCallable given complaint).Steady discipline.hosted := by
  unfold requireCallable
  split
  · exact steady_pure _
  · refine (steady_isCallable _).bind fun callable => ?_
    cases callable with
    | true => exact steady_pure _
    | false => exact (steady_display _).bind fun _ => keeps_throw _

theorem steady_readDescription (attributes : Value) :
    (readDescription call realm attributes).Steady discipline.hosted := by
  cases attributes with
  | object id =>
    refine (steady_field caller realm id _).bind fun enumerable => ?_
    refine (steady_field caller realm id _).bind fun configurable => ?_
    refine (steady_field caller realm id _).bind fun value => ?_
    refine (steady_field caller realm id _).bind fun writable => ?_
    refine (steady_field caller realm id _).bind fun getter => ?_
    refine (steady_field caller realm id _).bind fun setter => ?_
    refine (steady_requireCallable getter _).bind fun _ => ?_
    refine (steady_requireCallable setter _).bind fun _ => ?_
    split
    · exact keeps_throw _
    · exact steady_pure _
  | _ => exact (steady_display _).bind fun _ => keeps_throw _

theorem steady_describe (descriptor : Descriptor) :
    (describe call realm descriptor).Steady discipline.hosted :=
  steady_objectOf caller realm _

/-- What is read from the attributes is lawful, so the target may be asked for it. -/
theorem steady_defineProperty (target key attributes : Value) :
    (defineProperty call realm target key attributes).Steady discipline.hosted := by
  cases target with
  | object id =>
    refine (steady_toKey caller realm key).bind fun key => ?_
    refine ⟨fun world start => ?_⟩
    have described := (steady_readDescription caller realm attributes).follows world start
    refine described.bind_of_done start fun descriptor after ended _ startAfter _ => ?_
    have asked : discipline.asked after descriptor :=
      discipline.asked_of_lawful (lawful_of_outcome_readDescription ended)
    exact (follows_defineOrThrow caller realm id key asked startAfter).bind startAfter
      fun _ _ => steady_pure _
  | _ => exact keeps_throw _

theorem steady_ownDescription (target key : Value) :
    (ownDescription call realm target key).Steady discipline.hosted := by
  refine (steady_toObject realm target).bind fun id => ?_
  refine (steady_toKey caller realm key).bind fun key => ?_
  refine (steady_object id).bind fun object => ?_
  split
  · exact (steady_describe caller realm _).bind fun _ => steady_pure _
  · exact steady_pure _

end

end EcmaCore
