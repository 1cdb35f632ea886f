/-
This file says what belongs to a territory: some realms, with the objects that are theirs. A
value belongs to it unless it is a foreign object. An object is safe to have if everything
that it leads to belongs there too: its slots, its prototype, and the program behind a host
function.

Identities cannot be guessed, so what a program has is what it starts with and what the
replies to its requests tell it. That a program stays within a territory is said of its
requests for all replies that tell it nothing foreign; what it captured is then among what
its requests are made with.
-/

import EcmaCore.Engine.Call
import EcmaCore.Proofs.Object.Steps
import EcmaCore.Proofs.World.Objects

namespace EcmaCore

/-- Some realms and the objects that belong to them, the intrinsics of the realms among them. -/
structure Territory where
  governs : RealmId → Prop
  owns : ObjectId → Prop
  intrinsic : ∀ {realm : RealmId}, governs realm → ∀ which : Intrinsic, owns (which.id realm)

/-! ### The values that something leads to -/

/-- The values in a property. -/
def Property.values : Property → List Value
  | .data value _ _ _ => [value]
  | .accessor getter setter _ _ => getter.toList ++ setter.toList

/-- The values in a descriptor. -/
def Descriptor.values (descriptor : Descriptor) : List Value :=
  descriptor.value.toList ++ (descriptor.getter.toList ++ descriptor.setter.toList)

/-- The values in a call. -/
def Invocation.values (invocation : Invocation) : List Value :=
  invocation.receiver :: invocation.arguments

/-- The values in a reply. -/
def Shape.values : (shape : Shape) → shape.Reply → List Value
  | .value, answer => [answer]
  | .object, answer => [.object answer]
  | .maybeObject, answer => answer.toList.map .object
  | .maybeProperty, answer => answer.toList.flatMap Property.values
  | .descriptor, answer => answer.values
  | _, _ => []

/-- The values that a request is made with. -/
def Operation.values : {shape : Shape} → Operation shape → List Value
  | _, .makeObject prototype _ => prototype.toList.map .object
  | _, .makeArray => []
  | _, .arrayOf elements => elements
  | _, .get object _ receiver => [.object object, receiver]
  | _, .getOf base _ => [base]
  | _, .set object _ value => [.object object, value]
  | _, .setFor object _ value receiver => [.object object, value, receiver]
  | _, .define object _ descriptor => .object object :: descriptor.values
  | _, .defineOrThrow object _ descriptor => .object object :: descriptor.values
  | _, .create object _ value => [.object object, value]
  | _, .createOrThrow object _ value => [.object object, value]
  | _, .delete object _ => [.object object]
  | _, .has object _ => [.object object]
  | _, .ownProperty object _ => [.object object]
  | _, .ownKeys object => [.object object]
  | _, .forInKeys object => [.object object]
  | _, .prototypeOf object => [.object object]
  | _, .defineProperty target key attributes => [target, key, attributes]
  | _, .ownDescription target key => [target, key]
  | _, .readDescription attributes => [attributes]
  | _, .describe descriptor => descriptor.values
  | _, .isArray value => [value]
  | _, .isCallable value => [value]
  | _, .arrayLength object => [.object object]
  | _, .toNumber value => [value]
  | _, .toUnits value => [value]
  | _, .toObject value => [value]
  | _, .toLength value => [value]
  | _, .toKey value => [value]
  | _, .display value => [value]
  | _, .call function receiver arguments => function :: receiver :: arguments
  | _, .invoke receiver _ arguments => receiver :: arguments
  | _, .globalGet _ => []
  | _, .arrayMap source callback receiver => [source, callback, receiver]
  | _, .parse _ => []
  | _, .stringify value => [value]
  | _, .checkInvalid _ => []
  | _, .checkValid _ => []
  | _, .checkMap _ => []
  | _, .load _ => []
  | _, .store _ value => [value]
  | _, .hold _ object => [.object object]
  | _, .release _ => []
  | _, .setExtensible object _ => [.object object]
  | _, .setPrototype object prototype => .object object :: prototype.toList.map .object

/-! ### Values -/

/-- The value is no foreign object. -/
def Value.Within (territory : Territory) (value : Value) : Prop :=
  ∀ id, value = .object id → territory.owns id

/-- No foreign object is among the values. -/
def Territory.OwnsAll (territory : Territory) (values : List Value) : Prop :=
  ∀ value ∈ values, value.Within territory

section

variable {territory : Territory} {value : Value} {values others : List Value} {id : ObjectId}

@[simp]
theorem Value.within_object : (Value.object id).Within territory ↔ territory.owns id :=
  ⟨fun within => within id rfl, fun owned _ same => Value.object.inj same ▸ owned⟩

/-- Only an object can be foreign. -/
theorem Value.within_of_primitive (primitive : value.object? = none) : value.Within territory := by
  rintro id rfl
  cases primitive

theorem Value.within_undefined : Value.undefined.Within territory :=
  Value.within_of_primitive rfl

namespace Territory

@[simp]
theorem ownsAll_nil : territory.OwnsAll [] := List.forall_mem_nil _

@[simp]
theorem ownsAll_cons :
    territory.OwnsAll (value :: values) ↔ value.Within territory ∧ territory.OwnsAll values :=
  List.forall_mem_cons

theorem ownsAll_singleton : territory.OwnsAll [value] ↔ value.Within territory :=
  List.forall_mem_singleton

@[simp]
theorem ownsAll_append :
    territory.OwnsAll (values ++ others) ↔ territory.OwnsAll values ∧ territory.OwnsAll others :=
  List.forall_mem_append

theorem ownsAll_primitive (primitive : value.object? = none) : territory.OwnsAll [value] :=
  ownsAll_singleton.mpr (Value.within_of_primitive primitive)

theorem within_getD {field : Option Value} (owned : territory.OwnsAll field.toList)
    (within : value.Within territory) : (field.getD value).Within territory := by
  cases field with
  | none => exact within
  | some given => exact owned given (List.mem_singleton_self given)

theorem ownsAll_half {field : Option Value} (owned : territory.OwnsAll field.toList) :
    territory.OwnsAll (Descriptor.half field).toList := by
  intro value member
  rw [Option.mem_toList, Descriptor.half] at member
  exact owned value (Option.mem_toList.mpr (Option.mem_filter_iff.mp member).1)

end Territory

end

/-! ### Programs and objects -/

/-- The program makes its requests in the realms of the territory and with what belongs there, as
long as no reply tells it of anything foreign. -/
def Program.Within (territory : Territory) : Program → Prop
  | .finish value => value.Within territory
  | .raise _ => True
  | @perform shape realm operation next =>
    territory.governs realm ∧ territory.OwnsAll operation.values ∧
      ∀ reply, (∀ answer, reply = .ok answer → territory.OwnsAll (shape.values answer)) →
        (next reply).Within territory
  | .makeFunction realm _ _ body next =>
    territory.governs realm ∧
      (∀ invocation, territory.governs invocation.realm → territory.OwnsAll invocation.values →
        (body invocation).Within territory) ∧
      ∀ id, territory.owns id → (next id).Within territory

/-- A call of the function in a realm of the territory stays within it, unless it is told of
anything foreign. -/
def Behaviour.Within (territory : Territory) : Behaviour → Prop
  | .host body =>
    ∀ invocation, territory.governs invocation.realm → territory.OwnsAll invocation.values →
      (body invocation).Within territory
  | _ => True

/-- The own properties of an object lead to nothing foreign. -/
def Table.Within (territory : Territory) (table : Table Key Property) : Prop :=
  ∀ key property, table.get? key = some property → territory.OwnsAll property.values

/-- Nothing about the object leads to anything foreign. -/
structure Object.Within (territory : Territory) (object : Object) : Prop where
  table : object.table.Within territory
  prototype : ∀ parent, object.prototype = some parent → territory.owns parent
  callable : ∀ callable, object.callable = some callable → callable.behaviour.Within territory

/-- The snapshot is one of an object of the territory, and leads to nothing foreign. -/
structure Snapshot.Within (territory : Territory) (snapshot : Snapshot) : Prop where
  target : territory.owns snapshot.target
  table : snapshot.table.Within territory
  prototype : ∀ parent, snapshot.prototype = some parent → territory.owns parent

variable {territory : Territory}

/-! ### Slots -/

/-- A slot that a descriptor makes holds what the descriptor holds. -/
theorem Descriptor.ownsAll_toProperty {descriptor : Descriptor}
    (owned : territory.OwnsAll descriptor.values) :
    territory.OwnsAll descriptor.toProperty.values := by
  obtain ⟨value, getter, setter⟩ := by
    simpa only [values, Territory.ownsAll_append] using owned
  rw [toProperty]
  split
  · exact Territory.ownsAll_append.mpr
      ⟨Territory.ownsAll_half getter, Territory.ownsAll_half setter⟩
  · exact Territory.ownsAll_singleton.mpr (Territory.within_getD value Value.within_undefined)

/-- A revised slot holds what it held before or what the descriptor holds. -/
theorem Property.ownsAll_revised {current : Property} {descriptor : Descriptor}
    (before : territory.OwnsAll current.values) (owned : territory.OwnsAll descriptor.values) :
    territory.OwnsAll (current.revised descriptor).values := by
  obtain ⟨value, getter, setter⟩ := by
    simpa only [Descriptor.values, Territory.ownsAll_append] using owned
  have half (field held : Option Value) (given : territory.OwnsAll field.toList)
      (kept : territory.OwnsAll held.toList) :
      territory.OwnsAll (if field.isSome then Descriptor.half field else held).toList := by
    split
    · exact Territory.ownsAll_half given
    · exact kept
  cases current with
  | data held writable enumerable configurable =>
    rw [revised]
    split
    · exact Territory.ownsAll_append.mpr
        ⟨Territory.ownsAll_half getter, Territory.ownsAll_half setter⟩
    · exact Territory.ownsAll_singleton.mpr
        (Territory.within_getD value (Territory.ownsAll_singleton.mp before))
  | accessor heldGetter heldSetter enumerable configurable =>
    obtain ⟨keptGetter, keptSetter⟩ := Territory.ownsAll_append.mp before
    rw [revised]
    split
    · exact Territory.ownsAll_singleton.mpr (Territory.within_getD value Value.within_undefined)
    · exact Territory.ownsAll_append.mpr
        ⟨half _ heldGetter getter keptGetter, half _ heldSetter setter keptSetter⟩

/-- A descriptor says what the property holds. -/
theorem Descriptor.ownsAll_ofProperty {property : Property}
    (owned : territory.OwnsAll property.values) :
    territory.OwnsAll (Descriptor.ofProperty property).values := by
  cases property with
  | data value writable enumerable configurable => exact owned
  | accessor getter setter enumerable configurable =>
    obtain ⟨ownedGetter, ownedSetter⟩ := Territory.ownsAll_append.mp owned
    refine Territory.ownsAll_cons.mpr ⟨?_, Territory.ownsAll_singleton.mpr ?_⟩
    · exact Territory.within_getD ownedGetter Value.within_undefined
    · exact Territory.within_getD ownedSetter Value.within_undefined

/-- The entries that describe a descriptor hold what it holds. -/
theorem Descriptor.within_of_mem_fields {descriptor : Descriptor}
    (owned : territory.OwnsAll descriptor.values) :
    ∀ entry ∈ descriptor.fields, entry.2.Within territory := by
  intro entry member
  obtain ⟨⟨name, given⟩, listed, described⟩ := List.mem_filterMap.mp member
  obtain ⟨value, some, rfl⟩ := Option.map_eq_some_iff.mp described
  by_cases primitive : value.object? = none
  · exact Value.within_of_primitive primitive
  · refine owned value ?_
    have flag (field : Option Bool) : field.map Value.boolean ≠ Option.some value := by
      rintro same
      obtain ⟨_, _, rfl⟩ := Option.map_eq_some_iff.mp same
      exact primitive rfl
    simp only [List.mem_cons, List.not_mem_nil, or_false, Prod.mk.injEq] at listed
    rw [Descriptor.values, List.mem_append, List.mem_append, Option.mem_toList, Option.mem_toList,
      Option.mem_toList]
    rcases listed with ⟨_, same⟩ | ⟨_, same⟩ | ⟨_, same⟩ | ⟨_, same⟩ | ⟨_, same⟩ | ⟨_, same⟩
    · exact Or.inl (same ▸ some)
    · exact absurd (same ▸ some) (flag _)
    · exact Or.inr (Or.inl (same ▸ some))
    · exact Or.inr (Or.inr (same ▸ some))
    · exact absurd (same ▸ some) (flag _)
    · exact absurd (same ▸ some) (flag _)

/-! ### Tables -/

namespace Table

variable {table : Table Key Property} {key : Key} {property : Property}

theorem within_empty : (empty : Table Key Property).Within territory := by
  intro key property slot
  cases slot

theorem Within.insert (within : table.Within territory)
    (owned : territory.OwnsAll property.values) : (table.insert key property).Within territory := by
  intro other found slot
  by_cases same : other = key
  · rw [same, get?_insert_self] at slot
    exact Option.some.inj slot ▸ owned
  · rw [get?_insert_of_ne table same] at slot
    exact within other found slot

theorem Within.erase (within : table.Within territory) : (table.erase key).Within territory := by
  intro other found slot
  by_cases same : other = key
  · rw [same, get?_erase_self] at slot
    cases slot
  · rw [get?_erase_of_ne table same] at slot
    exact within other found slot

end Table

/-! ### Objects -/

namespace Object

variable {object changed : Object} {key : Key} {property : Property} {descriptor : Descriptor}

theorem Within.own? (within : object.Within territory) (slot : object.own? key = some property) :
    territory.OwnsAll property.values :=
  within.table key property slot

theorem Within.put (within : object.Within territory)
    (owned : territory.OwnsAll property.values) : (object.put key property).Within territory :=
  ⟨within.table.insert owned, within.prototype, within.callable⟩

/-- To lead to nothing foreign is a rule for steps that are asked for nothing foreign. -/
def confinedRule (territory : Territory) : StepRule where
  holds := Object.Within territory
  good property := territory.OwnsAll property.values
  asked descriptor := territory.OwnsAll descriptor.values
  own := Within.own?
  put := Within.put
  erased within := ⟨within.table.erase, within.prototype, within.callable⟩
  made := Descriptor.ownsAll_toProperty
  revised := Property.ownsAll_revised
  length _ _ owned :=
    Territory.ownsAll_cons.mpr ⟨Value.within_of_primitive rfl, (Territory.ownsAll_append.mp owned).2⟩
  locked := Territory.ownsAll_nil
  number _ _ _ _ := Territory.ownsAll_primitive rfl

theorem Within.putAll (within : object.Within territory) {entries : List (Key × Property)}
    (owned : ∀ entry ∈ entries, territory.OwnsAll entry.2.values) :
    (object.putAll entries).Within territory :=
  (confinedRule territory).putAll within owned

/-! ### New objects -/

/-- An object without properties and functions leads to its prototype only. -/
theorem within_bare {prototype : Option ObjectId} (kind : ObjectClass)
    (owned : ∀ parent, prototype = some parent → territory.owns parent) :
    ({ prototype := prototype, kind := kind } : Object).Within territory :=
  ⟨Table.within_empty, owned, nofun⟩

section

variable {realm : RealmId} (governed : territory.governs realm)
include governed

theorem within_ofIntrinsic (which : Intrinsic) (kind : ObjectClass) :
    ({ prototype := some (which.id realm), kind := kind } : Object).Within territory :=
  within_bare kind fun _ same => Option.some.inj same ▸ territory.intrinsic governed which

theorem within_plain : (plain realm).Within territory :=
  within_ofIntrinsic governed .objectPrototype .ordinary

theorem within_emptyArray : (emptyArray realm).Within territory :=
  (within_ofIntrinsic governed .arrayPrototype .array).put (Territory.ownsAll_primitive rfl)

theorem within_ofString (units : Units) : (ofString realm units).Within territory := by
  refine (within_plain governed).putAll fun entry member => ?_
  rcases List.mem_append.mp member with ofUnit | ofLength
  · obtain ⟨⟨unit, index⟩, _, rfl⟩ := List.mem_map.mp ofUnit
    exact Territory.ownsAll_primitive rfl
  · rw [List.mem_singleton.mp ofLength]
    exact Territory.ownsAll_primitive rfl

theorem within_ofCallable (name : String) (arity : Nat) {behaviour : Behaviour}
    (within : behaviour.Within territory) :
    (ofCallable realm name arity behaviour).Within territory := by
  have parent := territory.intrinsic governed (.function .functionPrototype)
  unfold ofCallable
  refine Within.putAll ⟨Table.within_empty, fun _ same => Option.some.inj same ▸ parent,
    fun _ same => Option.some.inj same ▸ within⟩ fun entry member => ?_
  simp only [functionEntries, List.mem_cons, List.not_mem_nil, or_false] at member
  rcases member with rfl | rfl
  · exact Territory.ownsAll_primitive rfl
  · exact Territory.ownsAll_primitive rfl

/-- The intrinsics of a realm lead to one another only. -/
theorem within_intrinsic (which : Intrinsic) : (which.object realm).Within territory := by
  have led (name : String) (other : Intrinsic) :
      territory.OwnsAll (Intrinsic.link realm name other).2.values :=
    Territory.ownsAll_singleton.mpr (Value.within_object.mpr (territory.intrinsic governed other))
  have installed (builtin : Builtin) :
      territory.OwnsAll (Intrinsic.method realm builtin).2.values :=
    led builtin.name (.function builtin)
  have functions (builtin : Builtin) : (Object.putAll (.ofCallable realm builtin.name builtin.arity
      (.builtin builtin)) (Intrinsic.statics realm builtin)).Within territory := by
    have within : (Behaviour.builtin builtin).Within territory := trivial
    refine (within_ofCallable governed _ _ within).putAll ?_
    cases builtin <;> simp [Intrinsic.statics, led, installed]
  cases which with
  | global =>
    refine (within_plain governed).putAll ?_
    simp [led, installed]
  | objectPrototype =>
    have bare : ({} : Object).Within territory := within_bare .ordinary nofun
    refine bare.putAll ?_
    simp [led, installed]
  | arrayPrototype =>
    refine (within_ofIntrinsic governed .objectPrototype .array).putAll ?_
    have length : territory.OwnsAll (lengthSlot 0).values := Territory.ownsAll_primitive rfl
    simp [led, installed, length]
  | json =>
    refine (within_plain governed).putAll ?_
    simp [installed]
  | function builtin =>
    cases builtin with
    | functionPrototype =>
      have bare : ({ prototype := some (Intrinsic.objectPrototype.id realm), kind := .function } :
          Object).Within territory := within_ofIntrinsic governed .objectPrototype .function
      refine ⟨bare.table, bare.prototype, fun callable same => ?_⟩
      cases same
      exact trivial
    | _ => exact functions _

end

end Object

end EcmaCore
