/-
This file proves that descriptions of properties say what they describe. The object that
describes a lawful descriptor reads back as that descriptor: what is given as undefined stays
given, and what is left out stays left out. Whatever else is read as a description, getters and
inherited fields included, is read as a lawful descriptor.

A field that is left out is looked for on the prototype of the new object, so nothing there
may have the name of a field.
-/

import EcmaCore.Proofs.Engine.Assigning
import EcmaCore.Proofs.Engine.Lawful
import EcmaCore.Proofs.World.Growth

namespace EcmaCore

variable {call : Caller} {realm : RealmId} {world after : World} {id : ObjectId}

/-! ### Fields under their names -/

namespace Descriptor

/-- The names of the fields. -/
def fieldNames : List String := ["value", "writable", "get", "set", "enumerable", "configurable"]

/-- All fields under their names, given or left out. -/
def named (descriptor : Descriptor) : List (String × Option Value) :=
  [("value", descriptor.value), ("writable", descriptor.writable.map .boolean),
    ("get", descriptor.getter), ("set", descriptor.setter),
    ("enumerable", descriptor.enumerable.map .boolean),
    ("configurable", descriptor.configurable.map .boolean)]

theorem map_fst_named (descriptor : Descriptor) : descriptor.named.map Prod.fst = fieldNames := rfl

theorem nodup_fieldNames : fieldNames.Nodup := by decide

/-- A given field is an entry under the key of its name. -/
def entryOf : String × Option Value → Option (Key × Value)
  | (name, given) => given.map fun value => (.text name, value)

theorem fields_eq (descriptor : Descriptor) :
    descriptor.fields = descriptor.named.filterMap entryOf := rfl

theorem mem_filterMap_entryOf {named : List (String × Option Value)} {entry : Key × Value} :
    entry ∈ named.filterMap entryOf ↔
      ∃ name value, (name, some value) ∈ named ∧ entry = (.text name, value) := by
  rw [List.mem_filterMap]
  constructor
  · rintro ⟨⟨name, given⟩, member, same⟩
    obtain ⟨value, rfl, rfl⟩ := Option.map_eq_some_iff.mp same
    exact ⟨name, value, member, rfl⟩
  · rintro ⟨name, value, member, rfl⟩
    exact ⟨_, member, rfl⟩

/-- The entries of fields under different names have different keys. -/
theorem nodup_filterMap_entryOf {named : List (String × Option Value)}
    (distinct : (named.map Prod.fst).Nodup) :
    ((named.filterMap entryOf).map Prod.fst).Nodup := by
  refine List.pairwise_map.mpr (List.pairwise_filterMap.mpr ?_)
  refine (List.pairwise_map.mp distinct).imp fun {first second} different => ?_
  intro entry ofFirst other ofSecond same
  obtain ⟨_, _, rfl⟩ := Option.map_eq_some_iff.mp ofFirst
  obtain ⟨_, _, rfl⟩ := Option.map_eq_some_iff.mp ofSecond
  exact different (Key.text.inj same)

/-- Among the entries of fields under different names, what is found under a name is what is given
there. -/
theorem lastValue?_filterMap_entryOf {named : List (String × Option Value)}
    (distinct : (named.map Prod.fst).Nodup) {name : String} {given : Option Value}
    (member : (name, given) ∈ named) :
    lastValue? (.text name) (named.filterMap entryOf) = given := by
  cases given with
  | some value =>
    exact Object.lastValue?_of_mem (nodup_filterMap_entryOf distinct)
      (mem_filterMap_entryOf.mpr ⟨name, value, member, rfl⟩)
  | none =>
    refine Option.eq_none_iff_forall_ne_some.mpr fun value found => ?_
    have present := Object.isSome_lastValue?.mp (Option.isSome_of_eq_some found)
    obtain ⟨entry, listed, same⟩ := List.mem_map.mp present
    obtain ⟨other, held, memberToo, rfl⟩ := mem_filterMap_entryOf.mp listed
    cases Key.text.inj same
    -- The name is listed once, so it cannot be both given and left out.
    cases List.inj_on_of_nodup_map distinct memberToo member rfl

end Descriptor

/-! ### Lawful descriptors -/

theorem World.AllowsHalf.of_extends {field : Option Value} (allows : world.AllowsHalf field)
    (extended : after.Extends world) : after.AllowsHalf field := fun value given =>
  (allows value given).imp_right extended.isCallable

theorem Descriptor.Lawful.of_extends {descriptor : Descriptor} (lawful : descriptor.Lawful world)
    (extended : after.Extends world) : descriptor.Lawful after :=
  ⟨lawful.unmixed, lawful.getter.of_extends extended, lawful.setter.of_extends extended⟩

/-! ### Reading -/

theorem outcome_requireCallable_of_allows {field : Option Value} (allows : world.AllowsHalf field)
    (complaint : String → Error) :
    (requireCallable field complaint).outcome world = .done () world := by
  cases field with
  | none => rfl
  | some value =>
    rcases allows value rfl with rfl | callable
    · rfl
    · exact outcome_requireCallable complaint callable

section

variable {descriptor : Descriptor}
  (shape : (world.object id).IsRecordOf realm descriptor.fields)
  (nothing : ∀ name ∈ Descriptor.fieldNames,
    world.search (Intrinsic.objectPrototype.id realm) (.text name) = .absent)
include shape nothing

/-- What the object that describes a descriptor has under the name of a field is what the descriptor
gives there. -/
theorem outcome_field_described (call : Caller) {name : String} {given : Option Value}
    (named : (name, given) ∈ descriptor.named) :
    (field call realm id name).outcome world = .done given world := by
  have distinct : (descriptor.named.map Prod.fst).Nodup := Descriptor.nodup_fieldNames
  have own := shape.own (.text name)
  rw [Descriptor.fields_eq, Descriptor.lastValue?_filterMap_entryOf distinct named] at own
  cases given with
  | some value => exact outcome_field_of_found call realm (World.search_of_own? own)
  | none =>
    have listed : name ∈ Descriptor.fieldNames := by
      rw [← descriptor.map_fst_named]
      exact List.mem_map_of_mem named
    have above := nothing name listed
    exact outcome_field_of_absent call realm
      (World.search_of_prototype_absent own shape.prototype above)

/-- The object that describes a lawful descriptor reads back as the descriptor. -/
theorem outcome_readDescription_described (call : Caller) (lawful : descriptor.Lawful world) :
    (readDescription call realm (.object id)).outcome world = .done descriptor world := by
  have reads : ∀ named ∈ descriptor.named,
      (field call realm id named.1).outcome world = .done named.2 world :=
    fun _ named => outcome_field_described shape nothing call named
  simp only [Descriptor.named, List.forall_mem_cons] at reads
  obtain ⟨value, writable, getter, setter, enumerable, configurable, -⟩ := reads
  have flag (given : Option Bool) : (given.map Value.boolean).map Value.truthy = given := by
    cases given <;> rfl
  have kind : (descriptor.isAccessor && descriptor.isData) = false := by
    cases accessor : descriptor.isAccessor with
    | true => exact lawful.unmixed accessor
    | false => rfl
  rw [readDescription, Run.outcome_bind_of_done enumerable,
    Run.outcome_bind_of_done configurable, Run.outcome_bind_of_done value,
    Run.outcome_bind_of_done writable, Run.outcome_bind_of_done getter,
    Run.outcome_bind_of_done setter,
    Run.outcome_bind_of_done (outcome_requireCallable_of_allows lawful.getter _),
    Run.outcome_bind_of_done (outcome_requireCallable_of_allows lawful.setter _),
    flag, flag, flag, if_neg (by simp [kind])]
  rfl

end

/-! ### Making and reading back -/

/-- On the prototype of the objects of the realm and on what it inherits from, all of which was
made, there is no property with the name of a field. -/
def World.FieldsFree (world : World) (realm : RealmId) : Prop :=
  ∃ chain, world.HasChain (Intrinsic.objectPrototype.id realm) chain ∧
    ∀ holder ∈ chain, world.Has holder ∧
      ∀ name ∈ Descriptor.fieldNames, (world.object holder).own? (.text name) = none

/-- A chain of objects that were made stays as it is while other objects are made. -/
theorem World.HasChain.of_extends {chain : List ObjectId} (hasChain : world.HasChain id chain)
    (made : ∀ holder ∈ chain, world.Has holder) (extended : after.Extends world) :
    after.HasChain id chain := by
  induction hasChain with
  | @last id top =>
    refine .last ?_
    rw [extended.object id (made id List.mem_cons_self), top]
  | @next id parent chain above rest inductionHypothesis =>
    refine .next ?_ (inductionHypothesis fun holder later =>
      made holder (List.mem_cons_of_mem id later))
    rw [extended.object id (made id List.mem_cons_self), above]

namespace World.FieldsFree

theorem of_extends (free : world.FieldsFree realm) (extended : after.Extends world) :
    after.FieldsFree realm := by
  obtain ⟨chain, hasChain, holders⟩ := free
  refine ⟨chain, hasChain.of_extends (fun holder member => (holders holder member).1) extended,
    fun holder member => ?_⟩
  obtain ⟨made, nothing⟩ := holders holder member
  rw [extended.object holder made]
  exact ⟨extended.has holder made, nothing⟩

theorem hasRealm (free : world.FieldsFree realm) : world.HasRealm realm := by
  obtain ⟨chain, hasChain, holders⟩ := free
  obtain ⟨rest, rfl⟩ := hasChain.eq_cons
  exact (holders _ List.mem_cons_self).1.hasRealm

theorem search_eq (free : world.FieldsFree realm) {name : String}
    (named : name ∈ Descriptor.fieldNames) :
    world.search (Intrinsic.objectPrototype.id realm) (.text name) = .absent := by
  obtain ⟨chain, hasChain, holders⟩ := free
  rcases hasChain.search_cases (.text name) with ⟨_, _, nearest, _⟩ | ⟨_, absent⟩
  · obtain ⟨holder, member, own⟩ := List.exists_of_findSome?_eq_some nearest
    rw [(holders holder member).2 name named] at own
    cases own
  · exact absent

end World.FieldsFree

/-- The prototype of objects is made without a property that has the name of a field. -/
theorem Intrinsic.own?_objectPrototype {name : String} (named : name ∈ Descriptor.fieldNames) :
    (Intrinsic.objectPrototype.object realm).own? (.text name) = none := by
  simp only [Descriptor.fieldNames, List.mem_cons, List.not_mem_nil, or_false] at named
  rcases named with rfl | rfl | rfl | rfl | rfl | rfl <;> rfl

theorem World.fieldsFree_fresh {count : Nat} (inside : realm < count) :
    (World.fresh count).FieldsFree realm := by
  have prototype := object_fresh_intrinsic inside .objectPrototype
  refine ⟨[Intrinsic.objectPrototype.id realm], .last ?_, List.forall_mem_singleton.mpr ⟨?_, ?_⟩⟩
  · rw [prototype]
    rfl
  · exact hasIntrinsics_fresh inside .objectPrototype (by decide)
  · rw [prototype]
    exact fun _ => Intrinsic.own?_objectPrototype

/-- A lawful descriptor is described by a new object, which reads back as it in the world that has
this object besides. -/
theorem exists_outcome_describe (call : Caller) {descriptor : Descriptor}
    (free : world.FieldsFree realm) (lawful : descriptor.Lawful world) :
    ∃ id after, (describe call realm descriptor).outcome world = .done id after ∧
      after.Extends world ∧
      (readDescription call realm (.object id)).outcome after = .done descriptor after := by
  have extended := World.extends_add world realm ((Object.plain realm).createdAll descriptor.fields)
  refine ⟨_, _, outcome_objectOf call realm descriptor.fields world, extended, ?_⟩
  refine outcome_readDescription_described ?_
    (fun _ named => (free.of_extends extended).search_eq named) call (lawful.of_extends extended)
  rw [World.object_add_nextId free.hasRealm]
  exact Object.isRecordOf_createdAll realm descriptor.fields

/-- Descriptions of properties and lawful descriptors say the same. In a realm whose objects inherit
no property with the name of a field, the object that describes a lawful descriptor is made, and it
reads back as this very descriptor, with the same fields given and left out, while all that was
there before stays as it was. And whatever is read as a description of a property, from any object
and with any inherited fields and getters, is a lawful descriptor. -/
theorem description_roundTrip (call : Caller) (realm : RealmId) :
    (∀ (world : World) (descriptor : Descriptor), world.FieldsFree realm →
      descriptor.Lawful world →
      ∃ id after, (describe call realm descriptor).outcome world = .done id after ∧
        after.Extends world ∧
        (readDescription call realm (.object id)).outcome after = .done descriptor after) ∧
    ∀ (attributes : Value) (world after : World) (descriptor : Descriptor),
      (readDescription call realm attributes).outcome world = .done descriptor after →
        descriptor.Lawful after :=
  ⟨fun _ _ free lawful => exists_outcome_describe call free lawful,
    fun _ _ _ _ ended => lawful_of_outcome_readDescription ended⟩

/-- An accessor with a getter and without a setter. -/
def getterOnly : Descriptor :=
  { getter := some ((Intrinsic.function .objectKeys).value 0), setter := some .undefined,
    enumerable := some false }

/-- The setter that is given as undefined is told from the fields that are left out. -/
theorem description_roundTrip_getterOnly :
    (World.fresh 1).FieldsFree 0 ∧ getterOnly.Lawful (.fresh 1) ∧
      ∃ id after, (describe (callWithin 0) 0 getterOnly).outcome (.fresh 1) = .done id after ∧
        (readDescription (callWithin 0) 0 (.object id)).outcome after = .done getterOnly after ∧
        getterOnly.Lawful after := by
  have free : (World.fresh 1).FieldsFree 0 := World.fieldsFree_fresh Nat.zero_lt_one
  have lawful : getterOnly.Lawful (.fresh 1) := by
    refine ⟨fun _ => rfl, fun value given => Or.inr ?_, fun value given => Or.inl ?_⟩
    · exact Option.some.inj given ▸ by decide +kernel
    · exact (Option.some.inj given).symm
  obtain ⟨roundTrip, reads⟩ := description_roundTrip (callWithin 0) 0
  obtain ⟨id, after, made, -, read⟩ := roundTrip _ _ free lawful
  exact ⟨free, lawful, id, after, made, read, reads _ _ _ _ read⟩

end EcmaCore
