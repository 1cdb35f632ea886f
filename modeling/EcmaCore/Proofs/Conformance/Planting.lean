/-
This file follows the mapping check through the planting of its accessor, in a realm that
nobody has tampered with. All that the check asks for is found where it was at the start:
the constructor of objects on the global object, the function for definitions on the
constructor, and the array prototype open to a new element. The object prototype has none
of the fields of a descriptor, so reading the attributes finds just what was put there.

Of the array prototype no more is asked than that it takes a first element. So the same
holds of a realm in which other properties of the array prototype have been replaced.
-/

import EcmaCore.Conformance.Check
import EcmaCore.Proofs.Engine.Describing

namespace EcmaCore

/-! ### What is planted -/

/-- The fields of the attributes object that the check makes. -/
def accessorFields (getter setter : ObjectId) : List (Key × Value) :=
  [(.text "get", .object getter), (.text "set", .object setter),
    (.text "enumerable", .boolean true)]

/-- What the attributes object asks for. -/
def accessorRequest (getter setter : ObjectId) : Descriptor :=
  { getter := some (.object getter), setter := some (.object setter), enumerable := some true }

/-- An array with an accessor under the first index, which has moved its length up. -/
def Object.planted (object : Object) (getter setter : ObjectId) : Object :=
  (object.put (.ofIndex 0)
    (.accessor (some (.object getter)) (some (.object setter)) true false)).withLength 1

/-- Away from the accessor and the length, the array is as it was. -/
theorem Object.own?_planted (object : Object) (getter setter : ObjectId) {key : Key}
    (noIndex : key ≠ .ofIndex 0) (noLength : key ≠ .length) :
    (object.planted getter setter).own? key = object.own? key := by
  rw [planted, withLength_own?_of_ne noLength, own?_put_of_ne _ noIndex]

theorem Object.own?_planted_first (object : Object) (getter setter : ObjectId) :
    (object.planted getter setter).own? (.ofIndex 0) =
      some (.accessor (some (.object getter)) (some (.object setter)) true false) := by
  rw [planted, withLength_own?_of_ne (Key.ofIndex_ne_length 0), own?_put_self]

/-- The array prototype with an accessor under the first index, which has moved its length up. -/
def plantedPrototype (realm : RealmId) (getter setter : ObjectId) : Object :=
  ((Intrinsic.arrayPrototype.object realm).put (.ofIndex 0)
    (.accessor (some (.object getter)) (some (.object setter)) true false)).withLength 1

/-- Reading the attributes object calls nothing. Three of the fields are its own, and the object
prototype has none of the others. -/
theorem outcome_readDescription_accessor (call : Caller) {realm : RealmId} {world : World}
    {id getter setter : ObjectId}
    (shape : (world.object id).IsRecordOf realm (accessorFields getter setter))
    (base : world.object (Intrinsic.objectPrototype.id realm) =
      Intrinsic.objectPrototype.object realm)
    (getterCallable : world.isCallable (.object getter) = true)
    (setterCallable : world.isCallable (.object setter) = true) :
    (readDescription call realm (.object id)).outcome world =
      .done (accessorRequest getter setter) world := by
  have described : (world.object id).IsRecordOf realm (accessorRequest getter setter).fields :=
    shape
  have lawful : (accessorRequest getter setter).Lawful world :=
    ⟨fun _ => rfl, fun _ given => Or.inr (Option.some.inj given ▸ getterCallable),
      fun _ given => Or.inr (Option.some.inj given ▸ setterCallable)⟩
  refine outcome_readDescription_described described (fun name named => ?_) call lawful
  exact World.search_of_end (by rw [base, Intrinsic.own?_objectPrototype named]) (by rw [base]; rfl)

/-- An array without elements that is open to a first one. -/
structure Object.TakesFirst (object : Object) : Prop where
  isArray : object.isArray = true
  extensible : object.extensible = true
  length : object.own? .length = some (lengthSlot 0)
  first : object.own? (.ofIndex 0) = none

theorem takesFirst_arrayPrototype (realm : RealmId) :
    (Intrinsic.arrayPrototype.object realm).TakesFirst := ⟨rfl, rfl, rfl, rfl⟩

theorem Object.TakesFirst.own?_length_planted {object : Object} (takes : object.TakesFirst)
    (getter setter : ObjectId) :
    (object.planted getter setter).own? .length = some (lengthSlot 1) := by
  have slot : (object.put (.ofIndex 0)
      (.accessor (some (.object getter)) (some (.object setter)) true false)).own? .length =
      some (lengthSlot 0) := by
    rw [Object.own?_put_of_ne _ (Key.ofIndex_ne_length 0).symm, takes.length]
  rw [Object.planted, Object.withLength_of_own? slot, Object.own?_put_self]
  rfl

/-- The definition that the check asks for is allowed on such an array. -/
theorem Object.TakesFirst.elementDefined? {object : Object} (takes : object.TakesFirst)
    (getter setter : ObjectId) :
    object.elementDefined? 0 (accessorRequest getter setter) =
      some (object.planted getter setter) := by
  have empty : object.arrayLength = 0 := Object.arrayLength_of_slot (Nat.zero_le _) takes.length
  have writable : object.lengthWritable = true :=
    Object.lengthWritable_iff.mpr ⟨_, _, _, takes.length⟩
  have defined : object.redefined? (.ofIndex 0) (accessorRequest getter setter) =
      some (object.put (.ofIndex 0)
        (.accessor (some (.object getter)) (some (.object setter)) true false)) := by
    rw [Object.redefined?, takes.first, takes.extensible]
    rfl
  rw [Object.elementDefined?, empty, writable, if_neg (by simp), defined]
  rfl

/-- The intrinsics of the realm are as they were made, and all calls so far were of functions that
are there. -/
structure World.Original (realm : RealmId) (world : World) : Prop where
  hasIntrinsics : world.HasIntrinsics realm
  object : ∀ which : Intrinsic, world.object (which.id realm) = which.object realm
  logged : ∀ call ∈ world.log, world.Has call.callee

namespace World.Original

variable {realm : RealmId} {world after : World}

theorem has (original : world.Original realm) (which : Intrinsic) : world.Has (which.id realm) :=
  original.hasIntrinsics which which.mem_all

theorem hasRealm (original : world.Original realm) : world.HasRealm realm :=
  (original.has .global).hasRealm

/-- What leaves the intrinsics alone and calls what is there leaves the realm as it was made. -/
theorem of_spends (original : world.Original realm) {changed called : List ObjectId}
    (spends : world.Spends changed called after) (known : ∀ id ∈ called, after.Has id)
    (spared : ∀ which : Intrinsic, which.id realm ∈ changed →
      after.object (which.id realm) = which.object realm) : after.Original realm where
  hasIntrinsics which listed := spends.has _ (original.hasIntrinsics which listed)
  object which := by
    by_cases isChanged : which.id realm ∈ changed
    · exact spared which isChanged
    · rw [spends.object _ (original.has which) isChanged, original.object which]
  logged call member := by
    rcases spends.log call member with old | new
    · exact spends.has _ (original.logged call old)
    · exact known _ new

theorem of_idle (original : world.Original realm) (spends : world.Spends [] [] after) :
    after.Original realm :=
  original.of_spends spends (List.forall_mem_nil _) fun _ => nofun

end World.Original

/-- The intrinsics of the realm are as they were made, apart from the array prototype, which is the
given object. -/
structure World.OriginalBesides (realm : RealmId) (prototype : Object) (world : World) : Prop where
  hasIntrinsics : world.HasIntrinsics realm
  arrayPrototype : world.object (Intrinsic.arrayPrototype.id realm) = prototype
  object : ∀ which : Intrinsic, which ≠ .arrayPrototype →
    world.object (which.id realm) = which.object realm

theorem World.Original.besides {realm : RealmId} {world : World} (original : world.Original realm) :
    world.OriginalBesides realm (Intrinsic.arrayPrototype.object realm) :=
  ⟨original.hasIntrinsics, original.object _, fun which _ => original.object which⟩

namespace World.OriginalBesides

variable {realm : RealmId} {prototype : Object} {world after : World}

theorem has (original : world.OriginalBesides realm prototype) (which : Intrinsic) :
    world.Has (which.id realm) :=
  original.hasIntrinsics which which.mem_all

theorem hasRealm (original : world.OriginalBesides realm prototype) : world.HasRealm realm :=
  (original.has .global).hasRealm

theorem of_spends (original : world.OriginalBesides realm prototype) {called : List ObjectId}
    (spends : world.Spends [] called after) : after.OriginalBesides realm prototype where
  hasIntrinsics which listed := spends.has _ (original.hasIntrinsics which listed)
  arrayPrototype := by rw [spends.object _ (original.has _) nofun, original.arrayPrototype]
  object which other := by rw [spends.object _ (original.has _) nofun, original.object which other]

end World.OriginalBesides

/-- A planted function is a new object. -/
theorem outcome_plantProbe {realm : RealmId} {world : World} (hasRealm : world.HasRealm realm)
    (name : String) (arity : Nat) (probe : Probe) :
    ∃ id after, (plantProbe realm name arity probe).outcome world = .done (.object id) after ∧
      world.Spends [] [] after ∧ ¬ world.Has id ∧ after.Has id ∧
      after.object id = .ofCallable realm name arity (.probe probe) :=
  ⟨_, _, rfl, World.spends_add _ _ _, World.not_has_nextId, World.has_add_nextId hasRealm _,
    World.object_add_nextId hasRealm _⟩

/-- So is a record. -/
theorem exists_outcome_objectOf {realm : RealmId} {world : World} (hasRealm : world.HasRealm realm)
    (call : Caller) (entries : List (Key × Value)) :
    ∃ id after, (objectOf call realm entries).outcome world = .done id after ∧
      world.Spends [] [] after ∧ (after.object id).IsRecordOf realm entries := by
  refine ⟨_, _, outcome_objectOf call realm entries world, World.spends_add _ _ _, ?_⟩
  rw [World.object_add_nextId hasRealm]
  exact Object.isRecordOf_createdAll realm entries

section

variable {realm : RealmId} {prototype : Object} {world : World}

/-- The builtin function for definitions plants the accessor, as the attributes object asks. -/
theorem outcome_defineProperty_accessor (call : Caller) {attributes getter setter : ObjectId}
    (original : world.OriginalBesides realm prototype) (takes : prototype.TakesFirst)
    (shape : (world.object attributes).IsRecordOf realm (accessorFields getter setter))
    (getterCallable : world.isCallable (.object getter) = true)
    (setterCallable : world.isCallable (.object setter) = true) :
    (defineProperty call realm (Intrinsic.arrayPrototype.value realm) (.ofText "0")
      (.object attributes)).outcome world =
      .done (Intrinsic.arrayPrototype.value realm)
        (world.modifyObject (Intrinsic.arrayPrototype.id realm) fun _ =>
          prototype.planted getter setter) := by
  have key : (toKey call realm (.ofText "0")).outcome world = .done (.ofIndex 0) world := rfl
  have read := outcome_readDescription_accessor call shape
    (original.object .objectPrototype nofun) getterCallable setterCallable
  have defined : (define call realm (Intrinsic.arrayPrototype.id realm) (.ofIndex 0)
      (accessorRequest getter setter)).outcome world =
      .done true (world.modifyObject (Intrinsic.arrayPrototype.id realm) fun _ =>
        prototype.planted getter setter) := by
    have allowed := takes.elementDefined? getter setter
    have index : (Key.ofIndex 0).arrayIndex? = some 0 := Key.arrayIndex?_ofIndex (Nat.zero_le _)
    have array := takes.isArray
    rw [← original.arrayPrototype] at allowed array
    rw [define, Run.outcome_bind_of_done (Run.outcome_object _ _), if_pos array,
      if_neg (Key.ofIndex_ne_length 0), index]
    rw [← original.arrayPrototype]
    exact outcome_changeObject allowed
  simp only [Intrinsic.value, defineProperty]
  rw [Run.outcome_bind_of_done key, Run.outcome_bind_of_done read, defineOrThrow,
    Run.outcome_bind, Run.outcome_bind_of_done defined]
  rfl

/-- The same, as a script would ask for it: through the constructor of objects. -/
theorem outcome_invoke_defineProperty (depth : Nat) {attributes getter setter : ObjectId}
    (original : world.OriginalBesides realm prototype) (takes : prototype.TakesFirst)
    (shape : (world.object attributes).IsRecordOf realm (accessorFields getter setter))
    (getterCallable : world.isCallable (.object getter) = true)
    (setterCallable : world.isCallable (.object setter) = true) :
    ∃ after, (invoke (callWithin (depth + 1)) realm ((Intrinsic.function .object).value realm)
        "defineProperty"
        [Intrinsic.arrayPrototype.value realm, .ofText "0", .object attributes]).outcome world =
        .done (Intrinsic.arrayPrototype.value realm) after ∧
      after.object (Intrinsic.arrayPrototype.id realm) = prototype.planted getter setter ∧
      world.Spends [Intrinsic.arrayPrototype.id realm]
        [(Intrinsic.function .objectDefineProperty).id realm] after := by
  have method : world.search ((Intrinsic.function .object).id realm) (.text "defineProperty") =
      .found ((Intrinsic.function .object).id realm)
        (.hidden ((Intrinsic.function .objectDefineProperty).value realm)) := by
    refine World.search_of_own? ?_
    rw [original.object (.function .object) nofun]
    rfl
  have called : (world.object ((Intrinsic.function .objectDefineProperty).id realm)).callable =
      some ⟨"defineProperty", .builtin .objectDefineProperty⟩ := by
    rw [original.object (.function .objectDefineProperty) nofun]
    rfl
  have noted := outcome_callWithin depth realm ((Intrinsic.function .object).value realm)
    [Intrinsic.arrayPrototype.value realm, .ofText "0", .object attributes] called
  have spends : world.Spends [] [(Intrinsic.function .objectDefineProperty).id realm]
      (world.logged ⟨(Intrinsic.function .objectDefineProperty).id realm,
        (Intrinsic.function .object).value realm,
        [Intrinsic.arrayPrototype.value realm, .ofText "0", .object attributes], .begun⟩) :=
    World.spends_logged (List.mem_singleton_self _) _ _
  refine ⟨_, (outcome_invoke _ realm _ method).trans (noted.trans
    (outcome_defineProperty_accessor (callWithin depth) (original.of_spends spends) takes shape
      getterCallable setterCallable)), World.object_modifyObject_self (original.has _) _, ?_⟩
  exact (spends.mono (List.nil_subset _) (List.Subset.refl _)).trans
    (World.spends_modifyObject (List.mem_singleton_self _) _)

/-- In a realm as it was made the accessor is planted, and nothing else is changed, even if the
array prototype has other properties than at first. -/
theorem World.OriginalBesides.outcome_plantAccessor
    (original : world.OriginalBesides realm prototype) (takes : prototype.TakesFirst)
    (depth : Nat) (warns : Bool) :
    ∃ getter setter after, (plantAccessor (callWithin (depth + 1)) realm warns).outcome world =
        .done (.object setter) after ∧
      after.object (Intrinsic.arrayPrototype.id realm) = prototype.planted getter setter ∧
      world.Spends [Intrinsic.arrayPrototype.id realm]
        [(Intrinsic.function .objectDefineProperty).id realm] after ∧
      ¬ world.Has setter ∧
      (after.object getter).callable = some ⟨"get", .probe .greet⟩ ∧
      (after.object setter).callable = some ⟨"set", .probe (.count warns)⟩ := by
  -- The getter, the setter and the attributes object are made, one after another.
  obtain ⟨getter, first, plantedGetter, spendsGetter, newGetter, hasGetter, getterObject⟩ :=
    outcome_plantProbe original.hasRealm "get" 0 .greet
  have originalGetter := original.of_spends spendsGetter
  obtain ⟨setter, second, plantedSetter, spendsSetter, newSetter, hasSetter, setterObject⟩ :=
    outcome_plantProbe originalGetter.hasRealm "set" 1 (.count warns)
  have originalSetter := originalGetter.of_spends spendsSetter
  obtain ⟨attributes, third, made, spendsAttributes, shape⟩ :=
    exists_outcome_objectOf originalSetter.hasRealm (callWithin (depth + 1))
      (accessorFields getter setter)
  have originalThird := originalSetter.of_spends spendsAttributes
  have greets : (third.object getter).callable = some ⟨"get", .probe .greet⟩ := by
    rw [(spendsSetter.trans spendsAttributes).object getter hasGetter nofun, getterObject]
    rfl
  have counts : (third.object setter).callable = some ⟨"set", .probe (.count warns)⟩ := by
    rw [spendsAttributes.object setter hasSetter nofun, setterObject]
    rfl
  have getterCallable : third.isCallable (.object getter) = true := by
    rw [World.isCallable, greets]
    rfl
  have setterCallable : third.isCallable (.object setter) = true := by
    rw [World.isCallable, counts]
    rfl
  -- Then the builtin function for definitions is looked up and called.
  obtain ⟨after, defined, planted, spends⟩ := outcome_invoke_defineProperty depth originalThird
    takes shape getterCallable setterCallable
  have found : third.search (Intrinsic.global.id realm) (.text "Object") =
      .found (Intrinsic.global.id realm) (.hidden ((Intrinsic.function .object).value realm)) := by
    refine World.search_of_own? ?_
    rw [originalThird.object .global (by decide)]
    rfl
  have looked : (globalGet (callWithin (depth + 1)) realm "Object").outcome third =
      .done ((Intrinsic.function .object).value realm) third :=
    outcome_getFor_of_found _ realm _ found
  have apart {id : ObjectId} (new : ¬ world.Has id) : id ∉ [Intrinsic.arrayPrototype.id realm] :=
    fun member => new (List.mem_singleton.mp member ▸ original.has .arrayPrototype)
  have newer : ¬ world.Has setter := fun there => newSetter (spendsGetter.has _ there)
  refine ⟨getter, setter, after, ?_, planted, ?_, newer, ?_, ?_⟩
  · rw [plantAccessor, Run.outcome_bind_of_done plantedGetter,
      Run.outcome_bind_of_done plantedSetter, ← accessorFields, Run.outcome_bind_of_done made,
      Run.outcome_bind_of_done looked, Run.outcome_bind_of_done defined]
    rfl
  · have before := (spendsGetter.trans spendsSetter).trans spendsAttributes
    exact (before.mono (List.nil_subset _) (List.nil_subset _)).trans spends
  · rw [spends.object getter ((spendsSetter.trans spendsAttributes).has _ hasGetter)
      (apart newGetter), greets]
  · rw [spends.object setter (spendsAttributes.has _ hasSetter) (apart newer), counts]

/-- So it is where nothing at all has been changed. -/
theorem World.Original.outcome_plantAccessor (original : world.Original realm) (depth : Nat)
    (warns : Bool) :
    ∃ getter setter after, (plantAccessor (callWithin (depth + 1)) realm warns).outcome world =
        .done (.object setter) after ∧
      after.object (Intrinsic.arrayPrototype.id realm) = plantedPrototype realm getter setter ∧
      world.Spends [Intrinsic.arrayPrototype.id realm]
        [(Intrinsic.function .objectDefineProperty).id realm] after ∧
      ¬ world.Has setter ∧ after.Has setter := by
  obtain ⟨getter, setter, after, plants, planted, spends, new, -, counts⟩ :=
    original.besides.outcome_plantAccessor (takesFirst_arrayPrototype realm) depth warns
  exact ⟨getter, setter, after, plants, planted, spends, new, World.has_of_callable counts⟩

end

end EcmaCore
