/-
This file proves that the operations on single objects are confined, as long as calls of
function values are: reading and converting, defining and assigning, and descriptions. An
operation is asked about an object of the territory, so what it finds belongs there, and
what it writes it was given or has found. A new object is made in a realm of the territory.
-/

import EcmaCore.Proofs.Confinement.Runs

namespace EcmaCore

open Run

variable {territory : Territory} {confinement : Confinement territory} {call : Caller}
  {realm : RealmId} {id : ObjectId} {value : Value}

/-! ### Reading and converting -/

theorem confined_toObject (governed : territory.governs realm) (within : value.Within territory) :
    (toObject realm value).Confined confinement territory.owns := by
  cases value with
  | undefined => exact (contained_display within).bind fun _ => confined_throw _
  | null => exact (contained_display within).bind fun _ => confined_throw _
  | boolean flag => exact confined_allocate governed (Object.within_plain governed)
  | number value => exact confined_allocate governed (Object.within_plain governed)
  | string units => exact confined_allocate governed (Object.within_ofString governed units)
  | object id => exact confined_pure (Value.within_object.mp within)

section

variable (caller : call.Confined confinement) (governed : territory.governs realm)
include caller governed

theorem confined_getFor (owned : territory.owns id) (key : Key) {receiver : Value}
    (within : receiver.Within territory) :
    (getFor call realm id key receiver).Confined confinement (Value.Within territory) := by
  refine (confined_search owned key).bind fun found held => ?_
  rcases found with _ | (value | ⟨_ | getter, _, _, _⟩)
  · exact confined_pure Value.within_undefined
  · exact confined_pure (held value (by simp [Property.values]))
  · exact confined_pure Value.within_undefined
  · have withinGetter : getter.Within territory := held getter (by simp [Property.values])
    exact caller _ _ _ _ governed (by simp [withinGetter, within])

theorem confined_get (owned : territory.owns id) (key : Key) :
    (get call realm id key).Confined confinement (Value.Within territory) :=
  confined_getFor caller governed owned key (Value.within_object.mpr owned)

theorem confined_getOf {base : Value} (within : base.Within territory) (key : Key) :
    (getOf call realm base key).Confined confinement (Value.Within territory) :=
  (confined_toObject governed within).bind fun _ owned =>
    confined_getFor caller governed owned key within

theorem contained_firstPrimitive (owned : territory.owns id) (names : List String) :
    (firstPrimitive call realm id names).Contained confinement := by
  induction names with
  | nil => exact confined_throw _
  | cons name rest inductionHypothesis =>
    refine (confined_get caller governed owned _).bind fun method within => ?_
    refine (contained_isCallable within).bind fun callable => ?_
    cases callable with
    | false => exact inductionHypothesis
    | true =>
      refine (caller _ _ _ _ governed (by simp [within, owned])).contained.bind fun result => ?_
      cases result with
      | object other => exact inductionHypothesis
      | _ => exact contained_pure _

theorem contained_toNumber (within : value.Within territory) :
    (toNumber call realm value).Contained confinement := by
  cases value with
  | object id =>
    have owned := Value.within_object.mp within
    exact (contained_firstPrimitive caller governed owned _).bind fun _ => contained_pure _
  | _ => exact contained_pure _

theorem contained_toUnits (within : value.Within territory) :
    (toUnits call realm value).Contained confinement := by
  cases value with
  | object id =>
    have owned := Value.within_object.mp within
    exact (contained_firstPrimitive caller governed owned _).bind fun _ => contained_pure _
  | _ => exact contained_pure _

theorem contained_toKey (within : value.Within territory) :
    (toKey call realm value).Contained confinement :=
  (contained_toUnits caller governed within).bind fun _ => contained_pure _

theorem contained_toLength (within : value.Within territory) :
    (toLength call realm value).Contained confinement :=
  (contained_toNumber caller governed within).bind fun _ => contained_pure _

theorem contained_lengthOf (owned : territory.owns id) :
    (lengthOf call realm id).Contained confinement :=
  (confined_get caller governed owned _).bind fun _ within =>
    contained_toLength caller governed within

end

/-! ### Defining -/

/-- An object of the territory may be changed, if what is made of it leads to nothing foreign. -/
theorem contained_changeObject (owned : territory.owns id) {change : Object → Option Object}
    (within : ∀ object changed, object.Within territory → change object = some changed →
      changed.Within territory) :
    (changeObject id change).Contained confinement := by
  refine (confined_object owned).bind fun object withinObject => ?_
  cases allowed : change object with
  | none => exact contained_pure _
  | some changed =>
    have kept := within object changed withinObject allowed
    have confines := Territory.confines_modifyObject owned fun _ _ => kept
    exact (contained_modify confines fun _ => World.runsAlike_modifyObject _).bind
      fun _ => contained_pure _

theorem contained_delete (owned : territory.owns id) (key : Key) :
    (delete id key).Contained confinement :=
  contained_changeObject owned fun _ _ => (Object.confinedRule territory).deleted?

section

variable (caller : call.Confined confinement) (governed : territory.governs realm)
  {descriptor : Descriptor}
include caller governed

theorem contained_defineLength (owned : territory.owns id)
    (held : territory.OwnsAll descriptor.values) :
    (defineLength call realm id descriptor).Contained confinement := by
  unfold defineLength
  split
  · exact contained_changeObject owned fun _ _ within =>
      (Object.confinedRule territory).redefined? within held
  · rename_i value given
    have withinValue : value.Within territory := held value (by simp [Descriptor.values, given])
    refine (contained_toNumber caller governed withinValue).bind fun number => ?_
    split
    · refine (confined_object owned).bind fun object within => ?_
      have kept := (Object.confinedRule territory).lengthSteps within held
        (object.lengthSteps number.toUint32 descriptor)
      have confines := Territory.confines_modifyObject owned fun _ _ => kept
      exact (contained_modify confines fun _ => World.runsAlike_modifyObject _).bind
        fun _ => contained_pure _
    · exact confined_throw _

theorem contained_define (owned : territory.owns id) (key : Key)
    (held : territory.OwnsAll descriptor.values) :
    (define call realm id key descriptor).Contained confinement := by
  have redefined : (changeObject id (·.redefined? key descriptor)).Contained confinement :=
    contained_changeObject owned fun _ _ within =>
      (Object.confinedRule territory).redefined? within held
  refine (confined_object owned).bind fun object _ => ?_
  split
  · split
    · exact contained_defineLength caller governed owned held
    · split
      · exact contained_changeObject owned fun _ _ within =>
          (Object.confinedRule territory).elementDefined? within held
      · exact redefined
  · exact redefined

theorem contained_defineOrThrow (owned : territory.owns id) (key : Key)
    (held : territory.OwnsAll descriptor.values) :
    (defineOrThrow call realm id key descriptor).Contained confinement := by
  refine (contained_define caller governed owned key held).bind fun met => ?_
  cases met with
  | true => exact contained_pure _
  | false => exact confined_throw _

theorem contained_create (owned : territory.owns id) (key : Key) (within : value.Within territory) :
    (create call realm id key value).Contained confinement :=
  contained_define caller governed owned key
    (by simp [Descriptor.data, Descriptor.values, within])

theorem contained_createOrThrow (owned : territory.owns id) (key : Key)
    (within : value.Within territory) :
    (createOrThrow call realm id key value).Contained confinement := by
  refine (contained_create caller governed owned key within).bind fun met => ?_
  cases met with
  | true => exact contained_pure _
  | false => exact confined_throw _

theorem contained_createAll (owned : territory.owns id) {entries : List (Key × Value)}
    (within : ∀ entry ∈ entries, entry.2.Within territory) :
    (createAll call realm id entries).Contained confinement := by
  induction entries with
  | nil => exact contained_pure _
  | cons entry rest inductionHypothesis =>
    obtain ⟨first, others⟩ := List.forall_mem_cons.mp within
    exact (contained_createOrThrow caller governed owned entry.1 first).bind fun _ =>
      inductionHypothesis others

theorem confined_objectOf {entries : List (Key × Value)}
    (within : ∀ entry ∈ entries, entry.2.Within territory) :
    (objectOf call realm entries).Confined confinement territory.owns := by
  refine (confined_allocate governed (Object.within_plain governed)).bind fun id owned => ?_
  exact (contained_createAll caller governed owned within).bind fun _ => confined_pure owned

/-! ### Assigning -/

theorem contained_writeTo {receiver : Value} (withinReceiver : receiver.Within territory)
    (key : Key) (within : value.Within territory) :
    (writeTo call realm receiver key value).Contained confinement := by
  cases receiver with
  | object target =>
    have owned := Value.within_object.mp withinReceiver
    refine (confined_object owned).bind fun object _ => ?_
    split
    · exact contained_pure _
    · exact contained_pure _
    · exact contained_define caller governed owned key (by simp [Descriptor.values, within])
    · exact contained_create caller governed owned key within
  | _ => exact contained_pure _

theorem contained_setFor (owned : territory.owns id) (key : Key) {receiver : Value}
    (within : value.Within territory) (withinReceiver : receiver.Within territory) :
    (setFor call realm id key value receiver).Contained confinement := by
  refine (confined_search owned key).bind fun found held => ?_
  split
  · rename_i getter setter enumerable configurable
    have withinSetter : setter.Within territory := held setter (by simp [Property.values])
    have told : territory.OwnsAll [setter, receiver, value] := by
      simp [withinSetter, withinReceiver, within]
    exact (caller _ _ _ _ governed told).contained.bind fun _ => contained_pure _
  · exact contained_pure _
  · exact contained_pure _
  · exact contained_writeTo caller governed withinReceiver key within
  · exact contained_writeTo caller governed withinReceiver key within

theorem contained_set (owned : territory.owns id) (key : Key) (within : value.Within territory) :
    (set call realm id key value).Contained confinement := by
  have receiver : (Value.object id).Within territory := Value.within_object.mpr owned
  refine (contained_setFor caller governed owned key within receiver).bind fun met => ?_
  cases met with
  | true => exact contained_pure _
  | false => exact confined_throw _

/-! ### Descriptions -/

theorem confined_field (owned : territory.owns id) (name : String) :
    (field call realm id name).Confined confinement
      fun given => territory.OwnsAll given.toList := by
  refine (contained_has owned _).bind fun present => ?_
  cases present with
  | true =>
    exact (confined_get caller governed owned _).bind fun value within =>
      confined_pure (Territory.ownsAll_singleton.mpr within)
  | false => exact confined_pure Territory.ownsAll_nil

omit caller governed in
theorem contained_requireCallable {given : Option Value} (held : territory.OwnsAll given.toList)
    (complaint : String → Error) : (requireCallable given complaint).Contained confinement := by
  unfold requireCallable
  split
  · exact contained_pure _
  · rename_i value half
    have within : value.Within territory :=
      Territory.ownsAll_half held value (Option.mem_toList.mpr half)
    refine (contained_isCallable within).bind fun callable => ?_
    cases callable with
    | true => exact contained_pure _
    | false => exact (contained_display within).bind fun _ => confined_throw _

theorem confined_readDescription {attributes : Value} (within : attributes.Within territory) :
    (readDescription call realm attributes).Confined confinement
      fun descriptor => territory.OwnsAll descriptor.values := by
  cases attributes with
  | object id =>
    have owned := Value.within_object.mp within
    refine (confined_field caller governed owned _).contained.bind fun enumerable => ?_
    refine (confined_field caller governed owned _).contained.bind fun configurable => ?_
    refine (confined_field caller governed owned _).bind fun value heldValue => ?_
    refine (confined_field caller governed owned _).contained.bind fun writable => ?_
    refine (confined_field caller governed owned _).bind fun getter heldGetter => ?_
    refine (confined_field caller governed owned _).bind fun setter heldSetter => ?_
    refine (contained_requireCallable heldGetter _).bind fun _ => ?_
    refine (contained_requireCallable heldSetter _).bind fun _ => ?_
    split
    · exact confined_throw _
    · refine confined_pure ?_
      exact Territory.ownsAll_append.mpr ⟨heldValue, Territory.ownsAll_append.mpr
        ⟨heldGetter, heldSetter⟩⟩
  | _ => exact (contained_display within).bind fun _ => confined_throw _

theorem confined_describe (held : territory.OwnsAll descriptor.values) :
    (describe call realm descriptor).Confined confinement territory.owns :=
  confined_objectOf caller governed (Descriptor.within_of_mem_fields held)

theorem confined_defineProperty {target key attributes : Value}
    (held : territory.OwnsAll [target, key, attributes]) :
    (defineProperty call realm target key attributes).Confined confinement
      (Value.Within territory) := by
  obtain ⟨withinTarget, withinKey, withinAttributes⟩ := by simpa using held
  cases target with
  | object id =>
    have owned := Value.within_object.mp withinTarget
    refine (contained_toKey caller governed withinKey).bind fun key => ?_
    refine (confined_readDescription caller governed withinAttributes).bind
      fun descriptor asked => ?_
    exact (contained_defineOrThrow caller governed owned key asked).bind fun _ =>
      confined_pure withinTarget
  | _ => exact confined_throw _

theorem confined_ownDescription {target key : Value} (withinTarget : target.Within territory)
    (withinKey : key.Within territory) :
    (ownDescription call realm target key).Confined confinement (Value.Within territory) := by
  refine (confined_toObject governed withinTarget).bind fun id owned => ?_
  refine (contained_toKey caller governed withinKey).bind fun key => ?_
  refine (confined_object owned).bind fun object within => ?_
  split
  · rename_i property slot
    have held := Descriptor.ownsAll_ofProperty (within.own? slot)
    exact (confined_describe caller governed held).asValue
  · exact confined_pure Value.within_undefined

end

end EcmaCore
