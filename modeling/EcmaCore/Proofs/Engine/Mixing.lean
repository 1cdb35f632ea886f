/-
This file says what a definition does to the slots that are not configurable, whatever request
it is given. A host may ask an object directly, and its request may mix an accessor with a value
or its writability. Such a slot then keeps its promises unless it is the pair of accessors that
the request is about, the mixture names halves of that pair and asks nothing else that the slot
forbids. The pair is then replaced by a value.
-/

import EcmaCore.Proofs.Engine.Asking
import EcmaCore.Proofs.Engine.Defining
import EcmaCore.Proofs.Object.Mixtures

namespace EcmaCore

variable (call : Caller) (realm : RealmId) {world found : World} {id : ObjectId} {key : Key}
  {descriptor : Descriptor}

/-! ### The object that a definition finds -/

/-- The world in which a definition looks at the object that it may change: the one in which it is
asked, or where a value has to become a length, the one in which the conversion ends. -/
inductive DefineFinds (world : World) (id : ObjectId) (key : Key) (descriptor : Descriptor) :
    World → Prop
  | asked (plain : ¬ (world.object id).Converts key descriptor) :
      DefineFinds world id key descriptor world
  | converted {value : Value} {number : Number} {middle : World}
      (converts : (world.object id).Converts key descriptor)
      (given : descriptor.value = some value)
      (ended : (toNumber call realm value).outcome world = .done number middle) :
      DefineFinds world id key descriptor middle

/-- A value that is no object is converted where it is. -/
theorem DefineFinds.eq_of_primitive (finds : DefineFinds call realm world id key descriptor found)
    (primitive : ∀ target, descriptor.value ≠ some (.object target)) : found = world := by
  cases finds with
  | asked => rfl
  | @converted value number middle converts given ended =>
    have noObject : value.object? = none := by
      cases value with
      | object target => exact absurd given (primitive target)
      | _ => rfl
    rw [outcome_toNumber_of_primitive call realm noObject world] at ended
    cases ended
    rfl

/-! ### The slots that it leaves -/

/-- What becomes of the fixed slots of an object that was asked to define a property. All keep their
promises but a pair of accessors under the key that gives way, and that one holds a value. -/
def Object.Weathers (before : Object) (key : Key) (descriptor : Descriptor) (met : Bool)
    (after : Object) : Prop :=
  ∀ asked current, before.own? asked = some current → current.configurable = false →
    ∃ later, after.own? asked = some later ∧
      (¬ (asked = key ∧ current.YieldsTo descriptor ∧ ¬ before.Closes key) → current.Kept later) ∧
      (asked = key → current.YieldsTo descriptor → ¬ before.Closes key →
        met = true ∧ later.isAccessor = false)

namespace Object

variable {object changed : Object}

/-- A definition is refused only to a slot that does not give way. -/
theorem weathers_of_refused (refused : object.defined? key descriptor = none) (met : Bool) :
    object.Weathers key descriptor met object := by
  refine fun asked current slot fixed => ⟨current, slot, fun _ => .refl fixed, ?_⟩
  rintro rfl yields opened
  have allowed := isSome_defined?_iff.mpr
    ⟨Option.isSome_iff_exists.mpr ⟨_, redefined?_of_yieldsTo slot yields⟩, opened⟩
  rw [refused] at allowed
  cases allowed

theorem weathers_of_defined (allowed : object.defined? key descriptor = some changed) :
    object.Weathers key descriptor true changed := by
  obtain ⟨-, opened, -⟩ := defined?_eq_some allowed
  intro asked current slot fixed
  by_cases gives : asked = key ∧ current.YieldsTo descriptor
  · obtain ⟨rfl, yields⟩ := gives
    obtain ⟨later, laterSlot, value⟩ := isAccessor_of_defined? allowed slot yields
    exact ⟨later, laterSlot, fun stays => absurd ⟨rfl, yields, opened⟩ stays,
      fun _ _ _ => ⟨rfl, value⟩⟩
  · obtain ⟨later, laterSlot, kept⟩ := spares_defined? allowed asked current slot fixed gives
    exact ⟨later, laterSlot, fun _ => kept, fun same yields _ => absurd ⟨same, yields⟩ gives⟩

theorem not_closes_length (object : Object) : ¬ object.Closes .length := by
  rintro ⟨-, -, index, spelled, -⟩
  rw [Key.arrayIndex?_length] at spelled
  cases spelled

theorem weathers_lengthDefined (given : descriptor.value.isSome = true) (length : Nat) :
    object.Weathers .length descriptor (object.lengthDefined length descriptor).2
      (object.lengthDefined length descriptor).1 := by
  intro asked current slot fixed
  by_cases gives : asked = .length ∧ current.YieldsTo descriptor
  · obtain ⟨rfl, yields⟩ := gives
    obtain ⟨met, later, laterSlot, value⟩ := lengthDefined_of_yieldsTo slot yields length
    exact ⟨later, laterSlot, fun stays => absurd ⟨rfl, yields, object.not_closes_length⟩ stays,
      fun _ _ _ => ⟨met, value⟩⟩
  · obtain ⟨later, laterSlot, kept⟩ :=
      (lengthSteps object length descriptor).spares given asked current slot fixed gives
    exact ⟨later, laterSlot, fun _ => kept, fun same yields _ => absurd ⟨same, yields⟩ gives⟩

end Object

/-- What is found of a change is what it makes of the object. -/
theorem World.weathers_modifyObject {changed : Object} {met : Bool}
    (weathers : (world.object id).Weathers key descriptor met changed) :
    (world.object id).Weathers key descriptor met
      ((world.modifyObject id fun _ => changed).object id) := by
  intro asked current slot fixed
  rw [object_modifyObject_self (has_of_own? slot)]
  exact weathers asked current slot fixed

/-- A definition, whatever it is asked, keeps the kind of every slot that is not configurable, and
what the slot has promised besides, with one exception. A pair of accessors under the key gives way
to a mixture that names its halves, if it asks nothing else the slot forbids and the object is not
closed to the key: then the definition succeeds and the slot holds a value. The object is compared
as it is found, so before anything but the conversion of a length; an error leaves the world as that
conversion does. -/
theorem define_keeps_kinds (call : Caller) (realm : RealmId) (world : World) (id : ObjectId)
    (key : Key) (descriptor : Descriptor) :
    (∀ met after, (define call realm id key descriptor).outcome world = .done met after →
      ∃ found, DefineFinds call realm world id key descriptor found ∧
        ((∀ target, descriptor.value ≠ some (.object target)) → found = world) ∧
        (found.object id).Weathers key descriptor met (after.object id)) ∧
    ∀ error after, (define call realm id key descriptor).outcome world = .threw error after →
      ∃ value, descriptor.value = some value ∧
        ((toNumber call realm value).outcome world).last? = some after := by
  have ends := defineEnds call realm world id key descriptor
  generalize (define call realm id key descriptor).outcome world = outcome at ends ⊢
  have finds {found : World} {met : Bool} {after : World}
      (looks : DefineFinds call realm world id key descriptor found)
      (weathers : (found.object id).Weathers key descriptor met (after.object id)) :
      ∃ found, DefineFinds call realm world id key descriptor found ∧
        ((∀ target, descriptor.value ≠ some (.object target)) → found = world) ∧
        (found.object id).Weathers key descriptor met (after.object id) :=
    ⟨found, looks, looks.eq_of_primitive, weathers⟩
  constructor
  · rintro met after rfl
    cases ends with
    | refused plain closed => exact finds (.asked plain) (Object.weathers_of_refused closed false)
    | changed plain allowed =>
      exact finds (.asked plain)
        (World.weathers_modifyObject (Object.weathers_of_defined allowed))
    | measured array length given converted whole =>
      subst length
      have present : descriptor.value.isSome = true := by rw [given]; rfl
      exact finds (.converted ⟨array, rfl, present⟩ given converted)
        (World.weathers_modifyObject (Object.weathers_lengthDefined present _))
  · rintro error after rfl
    cases ends with
    | invalid array length given converted => exact ⟨_, given, by rw [converted]; rfl⟩
    | failed array length given failed => exact ⟨_, given, by rw [failed]; rfl⟩

/-! ### A getter that becomes a value -/

/-- A pair with a getter alone that is not configurable. -/
def Property.fixedGetter : Property :=
  .accessor (some ((Intrinsic.function .objectKeys).value 0)) none false false

/-- A request for the same getter and a value. -/
def Descriptor.getterAndValue : Descriptor :=
  { getter := some ((Intrinsic.function .objectKeys).value 0), value := some .null }

/-- An object with that pair, and with a value that is read-only besides. -/
def Object.twoFixed : Object :=
  putAll {} [(.text "pair", .fixedGetter), (.text "value", .data .null false false false)]

theorem Property.yieldsTo_getterAndValue : fixedGetter.YieldsTo .getterAndValue :=
  yieldsTo_of_admits rfl rfl ⟨rfl, rfl⟩ (by decide)

/-- A request for the same getter and a value is met, and costs the pair its kind. The other slot
keeps its value. -/
theorem define_keeps_kinds_of_twoFixed :
    let world := (World.fresh 1).add 0 .twoFixed
    let id := (World.fresh 1).nextId 0
    ∃ met after, (define (callWithin 0) 0 id (.text "pair") .getterAndValue).outcome world =
        .done met after ∧ met = true ∧
      (∃ later, (after.object id).own? (.text "pair") = some later ∧ later.isAccessor = false) ∧
      (after.object id).own? (.text "value") = some (.data .null false false false) := by
  intro world id
  have object : world.object id = .twoFixed :=
    World.object_add_nextId (World.hasRealm_fresh Nat.zero_lt_one) _
  obtain ⟨met, after, ends⟩ : ∃ met after,
      (define (callWithin 0) 0 id (.text "pair") .getterAndValue).outcome world =
        .done met after := ⟨_, _, rfl⟩
  obtain ⟨found, -, same, weathers⟩ :=
    (define_keeps_kinds (callWithin 0) 0 world id (.text "pair") .getterAndValue).1 met after ends
  obtain rfl : found = world := same nofun
  rw [object] at weathers
  obtain ⟨later, laterSlot, -, gives⟩ := weathers (.text "pair") .fixedGetter rfl rfl
  obtain ⟨rfl, value⟩ :=
    gives rfl Property.yieldsTo_getterAndValue (by rintro ⟨array, -⟩; cases array)
  obtain ⟨other, otherSlot, stays, -⟩ :=
    weathers (.text "value") (.data .null false false false) rfl rfl
  refine ⟨true, after, ends, rfl, ⟨later, laterSlot, value⟩, ?_⟩
  cases stays (fun gives => absurd gives.1 (by decide)) with
  | data fixed =>
    obtain ⟨rfl, rfl⟩ := fixed rfl
    exact otherSlot

/-- A pair of accessors that is not configurable becomes a value. -/
theorem define_loses_fixedGetter :
    let world := (World.fresh 1).add 0 .twoFixed
    let id := (World.fresh 1).nextId 0
    (world.object id).own? (.text "pair") = some .fixedGetter ∧
      Property.fixedGetter.isAccessor = true ∧ Property.fixedGetter.configurable = false ∧
      ∃ after, (define (callWithin 0) 0 id (.text "pair") .getterAndValue).outcome world =
          .done true after ∧
        (after.object id).own? (.text "pair") = some (.data .null false false false) := by
  intro world id
  have made : World.HasRealm (World.fresh 1) 0 := World.hasRealm_fresh Nat.zero_lt_one
  have object : world.object id = .twoFixed := World.object_add_nextId made _
  have plain : ¬ (world.object id).Converts (.text "pair") .getterAndValue := by
    rintro ⟨-, length, -⟩
    exact absurd length (by decide)
  have defined : (world.object id).defined? (.text "pair") .getterAndValue =
      some (Object.twoFixed.put (.text "pair") (.data .null false false false)) := by
    rw [object]
    rfl
  refine ⟨by rw [object]; rfl, rfl, rfl, _,
    outcome_define_of_defined (callWithin 0) 0 plain defined, ?_⟩
  rw [World.object_modifyObject_self (World.has_add_nextId made _), Object.own?_put_self]

end EcmaCore
