/-
This file proves that an assignment does what the recursive law of the language asks of it.
By that law an object that does not hold the key passes the assignment on to its prototype,
and the holder decides: a setter is called, a read-only value refuses, and else the receiver
gets the value, which is another object as a rule and has slots of its own. The engine looks
for the holder first, along the whole chain, and decides then; on a chain that ends the two
are the same.

What an assignment does to the receiver is read off from this. The value that it stores is
the one that was given, but for the length of an array, which is a number.
-/

import EcmaCore.Proofs.Engine.Calling
import EcmaCore.Proofs.Engine.Rejecting

namespace EcmaCore

/-! ### The recursive law -/

/-- The prototype chain of the object ends, and these are its objects. -/
inductive World.HasChain (world : World) : ObjectId → List ObjectId → Prop
  | last {id : ObjectId} (top : (world.object id).prototype = none) : HasChain world id [id]
  | next {id parent : ObjectId} {chain : List ObjectId}
      (above : (world.object id).prototype = some parent) (rest : HasChain world parent chain) :
      HasChain world id (id :: chain)

/-- What the first object on a chain that holds the key holds under it. -/
def World.nearest? (world : World) (chain : List ObjectId) (key : Key) : Option Property :=
  chain.findSome? fun holder => (world.object holder).own? key

/-- The receiver gets the value, if it is an object and has no accessor and no read-only value of
its own under the key. A value that is there is redefined, and else one is created. -/
inductive OrdinaryWrite (call : Caller) (realm : RealmId) (world : World) (key : Key)
    (value receiver : Value) : Outcome Bool → Prop
  | primitive (noObject : receiver.object? = none) :
      OrdinaryWrite call realm world key value receiver (.done false world)
  | accessor {target : ObjectId} {getter setter : Option Value} {enumerable configurable : Bool}
      (same : receiver = .object target)
      (own : (world.object target).own? key =
        some (.accessor getter setter enumerable configurable)) :
      OrdinaryWrite call realm world key value receiver (.done false world)
  | readOnly {target : ObjectId} {old : Value} {enumerable configurable : Bool}
      (same : receiver = .object target)
      (own : (world.object target).own? key = some (.data old false enumerable configurable)) :
      OrdinaryWrite call realm world key value receiver (.done false world)
  | update {target : ObjectId} {old : Value} {enumerable configurable : Bool}
      (same : receiver = .object target)
      (own : (world.object target).own? key = some (.data old true enumerable configurable)) :
      OrdinaryWrite call realm world key value receiver
        ((define call realm target key { value := some value }).outcome world)
  | create {target : ObjectId} (same : receiver = .object target)
      (own : (world.object target).own? key = none) :
      OrdinaryWrite call realm world key value receiver
        ((create call realm target key value).outcome world)

/-- An assignment by the recursive law, on behalf of a receiver: an object without the key passes it
on to its prototype, and the last object of a chain has it written to the receiver. -/
inductive OrdinarySet (call : Caller) (realm : RealmId) (world : World) (key : Key)
    (value receiver : Value) : ObjectId → Outcome Bool → Prop
  | inherit {id parent : ObjectId} {outcome : Outcome Bool}
      (absent : (world.object id).own? key = none)
      (above : (world.object id).prototype = some parent)
      (passed : OrdinarySet call realm world key value receiver parent outcome) :
      OrdinarySet call realm world key value receiver id outcome
  | nowhere {id : ObjectId} {outcome : Outcome Bool}
      (absent : (world.object id).own? key = none) (top : (world.object id).prototype = none)
      (write : OrdinaryWrite call realm world key value receiver outcome) :
      OrdinarySet call realm world key value receiver id outcome
  | readOnly {id : ObjectId} {old : Value} {enumerable configurable : Bool}
      (own : (world.object id).own? key = some (.data old false enumerable configurable)) :
      OrdinarySet call realm world key value receiver id (.done false world)
  | writable {id : ObjectId} {old : Value} {enumerable configurable : Bool}
      {outcome : Outcome Bool}
      (own : (world.object id).own? key = some (.data old true enumerable configurable))
      (write : OrdinaryWrite call realm world key value receiver outcome) :
      OrdinarySet call realm world key value receiver id outcome
  | noSetter {id : ObjectId} {getter : Option Value} {enumerable configurable : Bool}
      (own : (world.object id).own? key =
        some (.accessor getter none enumerable configurable)) :
      OrdinarySet call realm world key value receiver id (.done false world)
  | setter {id : ObjectId} {getter : Option Value} {function : Value}
      {enumerable configurable : Bool}
      (own : (world.object id).own? key =
        some (.accessor getter (some function) enumerable configurable)) :
      OrdinarySet call realm world key value receiver id
        (((call realm function receiver [value]).outcome world).andThen fun _ after =>
          .done true after)

variable {call : Caller} {realm : RealmId} {world after : World} {id parent target : ObjectId}
  {chain : List ObjectId} {key : Key} {value receiver : Value} {descriptor : Descriptor}
  {property : Property} {outcome : Outcome Bool}

/-! ### The nearest holder -/

theorem World.nearest?_of_own? (own : (world.object id).own? key = some property) :
    world.nearest? (id :: chain) key = some property := by
  rw [nearest?, List.findSome?_cons, own]

theorem World.nearest?_of_absent (absent : (world.object id).own? key = none) :
    world.nearest? (id :: chain) key = world.nearest? chain key := by
  rw [nearest?, List.findSome?_cons, absent]
  rfl

namespace World.HasChain

/-- A chain begins with its object. -/
theorem eq_cons (hasChain : world.HasChain id chain) : ∃ rest, chain = id :: rest := by
  cases hasChain with
  | last => exact ⟨[], rfl⟩
  | next above rest => exact ⟨_, rfl⟩

/-- A search finds what the nearest holder on the chain holds. -/
theorem search_cases (hasChain : world.HasChain id chain) (key : Key) :
    (∃ holder property, world.nearest? chain key = some property ∧
      world.search id key = .found holder property) ∨
        world.nearest? chain key = none ∧ world.search id key = .absent := by
  induction hasChain with
  | @last id top =>
    cases own : (world.object id).own? key with
    | some property => exact Or.inl ⟨id, property, nearest?_of_own? own, search_of_own? own⟩
    | none => exact Or.inr ⟨nearest?_of_absent own, search_of_end own top⟩
  | @next id parent chain above rest inductionHypothesis =>
    cases own : (world.object id).own? key with
    | some property => exact Or.inl ⟨id, property, nearest?_of_own? own, search_of_own? own⟩
    | none =>
      rw [nearest?_of_absent own]
      rcases inductionHypothesis with ⟨holder, property, nearest, found⟩ | ⟨nearest, absent⟩
      · exact Or.inl ⟨holder, property, nearest, search_of_prototype_found own above found⟩
      · exact Or.inr ⟨nearest, search_of_prototype_absent own above absent⟩

theorem outcome_search (hasChain : world.HasChain id chain) (key : Key) :
    (Run.search id key).outcome world = .done (world.nearest? chain key) world := by
  rcases hasChain.search_cases key with ⟨holder, property, nearest, found⟩ | ⟨nearest, absent⟩
  · rw [nearest, Run.outcome_search_of_found found]
  · rw [nearest, Run.outcome_search_of_absent absent]

end World.HasChain

/-! ### Assignments decided by the nearest holder -/

section

variable (call realm value receiver)

/-- A setter that is nearest is called once, on the receiver and with the value. -/
theorem outcome_setFor_of_setter {getter : Option Value} {function : Value}
    {enumerable configurable : Bool} (hasChain : world.HasChain id chain)
    (nearest : world.nearest? chain key =
      some (.accessor getter (some function) enumerable configurable)) :
    (setFor call realm id key value receiver).outcome world =
      ((call realm function receiver [value]).outcome world).andThen fun _ after =>
        .done true after := by
  rw [setFor, Run.outcome_bind_of_done (hasChain.outcome_search key), nearest]
  exact Run.outcome_bind _ _ world

theorem outcome_setFor_of_noSetter {getter : Option Value} {enumerable configurable : Bool}
    (hasChain : world.HasChain id chain)
    (nearest : world.nearest? chain key =
      some (.accessor getter none enumerable configurable)) :
    (setFor call realm id key value receiver).outcome world = .done false world := by
  rw [setFor, Run.outcome_bind_of_done (hasChain.outcome_search key), nearest]
  rfl

theorem outcome_setFor_of_readOnly {old : Value} {enumerable configurable : Bool}
    (hasChain : world.HasChain id chain)
    (nearest : world.nearest? chain key = some (.data old false enumerable configurable)) :
    (setFor call realm id key value receiver).outcome world = .done false world := by
  rw [setFor, Run.outcome_bind_of_done (hasChain.outcome_search key), nearest]
  rfl

/-- A value that may change, or nothing at all, leaves the assignment to the receiver. -/
theorem outcome_setFor_of_open (hasChain : world.HasChain id chain)
    (nearest : ∀ property, world.nearest? chain key = some property →
      property.writable? = some true) :
    (setFor call realm id key value receiver).outcome world =
      (writeTo call realm receiver key value).outcome world := by
  rw [setFor, Run.outcome_bind_of_done (hasChain.outcome_search key)]
  rcases held : world.nearest? chain key with _ | ⟨old, _ | _, enumerable, configurable⟩ | _
  · rfl
  · cases nearest _ held
  · rfl
  · cases nearest _ held

end

/-- The receiver is written as the law has it. -/
theorem ordinaryWrite_writeTo :
    OrdinaryWrite call realm world key value receiver
      ((writeTo call realm receiver key value).outcome world) := by
  cases receiver with
  | object target =>
    rw [writeTo, Run.outcome_bind_of_done (Run.outcome_object target world)]
    rcases own : (world.object target).own? key with
      _ | ⟨old, _ | _, enumerable, configurable⟩ | ⟨getter, setter, enumerable, configurable⟩
    · exact .create rfl own
    · exact .readOnly rfl own
    · exact .update rfl own
    · exact .accessor rfl own
  | _ => exact .primitive rfl

theorem OrdinaryWrite.outcome_writeTo
    (write : OrdinaryWrite call realm world key value receiver outcome) :
    (writeTo call realm receiver key value).outcome world = outcome := by
  cases write with
  | primitive noObject =>
    cases receiver with
    | object target => cases noObject
    | _ => rfl
  | accessor same own | readOnly same own =>
    rw [same, writeTo, Run.outcome_bind_of_done (Run.outcome_object _ world), own]
    rfl
  | update same own | create same own =>
    rw [same, writeTo, Run.outcome_bind_of_done (Run.outcome_object _ world), own]

/-- An object without the key does with an assignment what its prototype does. -/
theorem outcome_setFor_of_prototype (absent : (world.object id).own? key = none)
    (above : (world.object id).prototype = some parent) (rest : world.HasChain parent chain) :
    (setFor call realm id key value receiver).outcome world =
      (setFor call realm parent key value receiver).outcome world := by
  rw [setFor, setFor, Run.outcome_bind_of_done (rest.outcome_search key),
    Run.outcome_bind_of_done ((World.HasChain.next above rest).outcome_search key),
    World.nearest?_of_absent absent]

/-- An object that holds the key decides by what it holds. -/
theorem ordinarySet_of_own? (hasChain : world.HasChain id chain)
    (own : (world.object id).own? key = some property) :
    OrdinarySet call realm world key value receiver id
      ((setFor call realm id key value receiver).outcome world) := by
  obtain ⟨rest, rfl⟩ := hasChain.eq_cons
  have nearest : world.nearest? (id :: rest) key = some property := World.nearest?_of_own? own
  rcases property with ⟨old, _ | _, enumerable, configurable⟩ |
    ⟨getter, _ | function, enumerable, configurable⟩
  · rw [outcome_setFor_of_readOnly call realm value receiver hasChain nearest]
    exact .readOnly own
  · rw [outcome_setFor_of_open call realm value receiver hasChain]
    · exact .writable own ordinaryWrite_writeTo
    · intro property held
      rw [nearest] at held
      cases held
      rfl
  · rw [outcome_setFor_of_noSetter call realm value receiver hasChain nearest]
    exact .noSetter own
  · rw [outcome_setFor_of_setter call realm value receiver hasChain nearest]
    exact .setter own

/-- On a chain that ends an assignment is one by the recursive law. -/
theorem ordinarySet_setFor (hasChain : world.HasChain id chain) :
    OrdinarySet call realm world key value receiver id
      ((setFor call realm id key value receiver).outcome world) := by
  induction hasChain with
  | @last id top =>
    have hasChain : world.HasChain id [id] := .last top
    cases own : (world.object id).own? key with
    | some property => exact ordinarySet_of_own? hasChain own
    | none =>
      rw [outcome_setFor_of_open call realm value receiver hasChain]
      · exact .nowhere own top ordinaryWrite_writeTo
      · intro property held
        rw [World.nearest?_of_absent own] at held
        cases held
  | @next id parent chain above rest inductionHypothesis =>
    cases own : (world.object id).own? key with
    | some property => exact ordinarySet_of_own? (.next above rest) own
    | none =>
      rw [outcome_setFor_of_prototype own above rest]
      exact .inherit own above inductionHypothesis

/-- And the recursive law leaves no choice: whatever it brings about, the assignment does. -/
theorem OrdinarySet.outcome_setFor
    (set : OrdinarySet call realm world key value receiver id outcome)
    (hasChain : world.HasChain id chain) :
    (setFor call realm id key value receiver).outcome world = outcome := by
  induction set generalizing chain with
  | inherit absent above _ inductionHypothesis =>
    cases hasChain with
    | last top =>
      rw [above] at top
      cases top
    | next sameAbove rest =>
      rw [above] at sameAbove
      cases sameAbove
      rw [outcome_setFor_of_prototype absent above rest]
      exact inductionHypothesis rest
  | nowhere absent top write =>
    rw [outcome_setFor_of_open call realm value receiver hasChain]
    · exact write.outcome_writeTo
    · intro property held
      cases hasChain with
      | last =>
        rw [World.nearest?_of_absent absent] at held
        cases held
      | next above =>
        rw [top] at above
        cases above
  | readOnly own =>
    obtain ⟨rest, rfl⟩ := hasChain.eq_cons
    exact outcome_setFor_of_readOnly call realm value receiver hasChain
      (World.nearest?_of_own? own)
  | writable own write =>
    obtain ⟨rest, rfl⟩ := hasChain.eq_cons
    rw [outcome_setFor_of_open call realm value receiver hasChain]
    · exact write.outcome_writeTo
    · intro property held
      rw [World.nearest?_of_own? own] at held
      cases held
      rfl
  | noSetter own =>
    obtain ⟨rest, rfl⟩ := hasChain.eq_cons
    exact outcome_setFor_of_noSetter call realm value receiver hasChain
      (World.nearest?_of_own? own)
  | setter own =>
    obtain ⟨rest, rfl⟩ := hasChain.eq_cons
    exact outcome_setFor_of_setter call realm value receiver hasChain
      (World.nearest?_of_own? own)

/-! ### What the receiver gets -/

/-- The value that a definition stores, and the world in which it does: what was given, at once, or
for the length of an array the number that it converts to, after the conversion. -/
inductive World.Stores (call : Caller) (realm : RealmId) (world : World) (target : ObjectId)
    (key : Key) (value : Value) : World → Value → Prop
  | value (other : (world.object target).isArray = true → key ≠ .length) :
      Stores call realm world target key value world value
  | length {middle : World} {number : Number} (array : (world.object target).isArray = true)
      (length : key = .length)
      (converted : (toNumber call realm value).outcome world = .done number middle)
      (whole : (Number.ofNat number.toUint32).equals number = true) :
      Stores call realm world target key value middle (.number (.ofNat number.toUint32))

/-- The target holds the stored value under the key, in a plain slot if it had none at the start,
and else with the attributes of the slot that it had when the value was stored. Nothing else has
changed since then, and the value can be read without a call. -/
structure World.Assigned (call : Caller) (realm : RealmId) (world : World) (target : ObjectId)
    (key : Key) (middle : World) (stored : Value) (after : World) : Prop where
  others : ∀ other, other ≠ target → after.object other = middle.object other
  slot : ∃ writable enumerable configurable,
    (after.object target).own? key = some (.data stored writable enumerable configurable)
  created : (world.object target).own? key = none →
    (after.object target).own? key = some (.plain stored)
  kept : (world.object target).own? key ≠ none → ∀ old writable enumerable configurable,
    (middle.object target).own? key = some (.data old writable enumerable configurable) →
      (after.object target).own? key = some (.data stored writable enumerable configurable)
  read : (get call realm target key).outcome after = .done stored after

/-- At whatever end of the outcome nothing but the target has changed since the conversion of a
length, and at the end with a yes the target holds what was assigned. -/
structure Outcome.Assigns (call : Caller) (realm : RealmId) (world : World) (target : ObjectId)
    (key : Key) (value : Value) (outcome : Outcome Bool) : Prop where
  ended : ∀ after, outcome.last? = some after → ∃ middle, world.Asked call realm
      (.Measuring call realm (world.object target) key (some value)) middle ∧
    ∀ other, other ≠ target → after.object other = middle.object other
  met : ∀ after, outcome = .done true after → ∃ middle stored,
    world.Stores call realm target key value middle stored ∧
      world.Assigned call realm target key middle stored after

theorem Outcome.Assigns.refused :
    (Outcome.done false world).Assigns call realm world target key value where
  ended after ended := by
    cases ended
    exact ⟨world, .nothing, fun _ _ => rfl⟩
  met := nofun

/-- A definition with a value leaves the world as the conversion of a length has left it, but for
the target; and if it is allowed the target has the slot that the request makes of the one before.
-/
theorem define_stores (steady : call.Steady kindDiscipline.hosted) (made : world.Has target)
    (given : descriptor.value = some value) (noLock : descriptor.writable ≠ some false)
    (ended : ((define call realm target key descriptor).outcome world).last? = some after) :
    (∃ middle, world.Asked call realm
        (.Measuring call realm (world.object target) key (some value)) middle ∧
      ∀ other, other ≠ target → after.object other = middle.object other) ∧
    ((define call realm target key descriptor).outcome world = .done true after →
      ∃ middle stored, world.Stores call realm target key value middle stored ∧
        (∀ other, other ≠ target → after.object other = middle.object other) ∧
        (after.object target).own? key =
          some (Descriptor.applied { descriptor with value := some stored }
            ((middle.object target).own? key))) := by
  rw [← given]
  have ends := defineEnds call realm world target key descriptor
  generalize (define call realm target key descriptor).outcome world = outcome at ended ends ⊢
  cases ends with
  | refused =>
    cases ended
    exact ⟨⟨world, .nothing, fun _ _ => rfl⟩, nofun⟩
  | @changed changed plain allowed =>
    cases ended
    have noLength : (world.object target).isArray = true → key ≠ .length :=
      fun array length => plain ⟨array, length, given ▸ rfl⟩
    have others : ∀ other, other ≠ target →
        (world.modifyObject target fun _ => changed).object other = world.object other :=
      fun other different => World.object_modifyObject_of_ne different _
    refine ⟨⟨world, .nothing, others⟩, fun _ => ⟨world, value, .value noLength, others, ?_⟩⟩
    rw [World.object_modifyObject_self made, ← given]
    exact Object.own?_of_defined? noLength allowed
  | @measured asked number middle array length same converted whole =>
    cases ended
    obtain rfl : asked = value := Option.some.inj (same.symm.trans given)
    have calls := (asks_measured array length same).of_done converted
    have stillMade : middle.Has target := (calls.sameKinds steady target made).1
    have others : ∀ other, other ≠ target → (middle.modifyObject target fun _ =>
        ((middle.object target).lengthDefined number.toUint32 descriptor).1).object other =
          middle.object other :=
      fun other different => World.object_modifyObject_of_ne different _
    refine ⟨⟨middle, calls, others⟩, fun met =>
      ⟨middle, _, .length array length converted whole, others, ?_⟩⟩
    rw [Outcome.done.injEq] at met
    rw [World.object_modifyObject_self stillMade, length]
    exact Object.own?_length_of_met noLock met.1
  | invalid array length same converted =>
    cases ended
    exact ⟨⟨after, (asks_measured array length same).of_done converted, fun _ _ => rfl⟩, nofun⟩
  | failed array length same failed =>
    cases ended
    exact ⟨⟨after, (asks_measured array length same).of_threw failed, fun _ _ => rfl⟩, nofun⟩
  | cutOff => cases ended

/-- A definition with the value, of all attributes where there is no slot and of none where there is
one, assigns it to the target. -/
theorem define_assigns (steady : call.Steady kindDiscipline.hosted) (made : world.Has target)
    (given : descriptor.value = some value) (noLock : descriptor.writable ≠ some false)
    (created : (world.object target).own? key = none → descriptor = .data value true true true)
    (kept : (world.object target).own? key ≠ none → descriptor = { value := some value }) :
    ((define call realm target key descriptor).outcome world).Assigns call realm world target key
      value := by
  refine ⟨fun after ended => (define_stores steady made given noLock ended).1, fun after done => ?_⟩
  obtain ⟨middle, stored, stores, others, slot⟩ :=
    (define_stores steady made given noLock (by rw [done]; rfl)).2 done
  have plain (absent : (world.object target).own? key = none) :
      (after.object target).own? key = some (.plain stored) := by
    rw [slot, created absent]
    cases (middle.object target).own? key with
    | none => rfl
    | some current => exact congrArg some (Object.revised_plain current stored)
  have data : ∃ writable enumerable configurable,
      (after.object target).own? key = some (.data stored writable enumerable configurable) := by
    by_cases absent : (world.object target).own? key = none
    · exact ⟨_, _, _, plain absent⟩
    · rw [slot, kept absent]
      rcases (middle.object target).own? key with _ | _ | _
      · exact ⟨_, _, _, rfl⟩
      · exact ⟨_, _, _, rfl⟩
      · exact ⟨_, _, _, rfl⟩
  obtain ⟨writable, enumerable, configurable, own⟩ := data
  refine ⟨middle, stored, stores, others, ⟨_, _, _, own⟩, plain, ?_,
    outcome_getFor_of_found call realm _ (World.search_of_own? own)⟩
  intro present old writable enumerable configurable held
  rw [slot, kept present, held]
  rfl

/-- A receiver that is an object either refuses or gets the value in a slot of its own. -/
theorem writeTo_assigns (steady : call.Steady kindDiscipline.hosted) (made : world.Has target) :
    ((writeTo call realm (.object target) key value).outcome world).Assigns call realm world target
      key value := by
  rw [writeTo, Run.outcome_bind_of_done (Run.outcome_object target world)]
  rcases own : (world.object target).own? key with
    _ | ⟨old, _ | _, enumerable, configurable⟩ | ⟨getter, setter, enumerable, configurable⟩
  · have noLock : some true ≠ some false := by decide
    exact define_assigns steady made rfl noLock (fun _ => rfl) fun present => absurd own present
  · exact .refused
  · have noLock : none ≠ some false := by decide
    refine define_assigns steady made rfl noLock (fun absent => ?_) fun _ => rfl
    rw [own] at absent
    cases absent
  · exact .refused

/-- An assignment on a chain that ends is the one of the recursive law: it gives the same answer, or
fails in the same way, after the same calls and in the same world. So if the nearest holder of the
key has a setter, all that happens is one call of it, on the receiver and with the value. If it has
an accessor without a setter or a read-only value, nothing happens and the answer is no. Otherwise a
receiver that is no object refuses, and nothing but the receiver is written, apart from what is done
by the methods that convert the length of an array. If the answer is yes then, the receiver holds
the value in a slot of its own, and it can be read there without a call. -/
theorem setFor_ordinary (depth : Nat) (realm : RealmId) (world : World) (id : ObjectId) (key : Key)
    (value receiver : Value) (chain : List ObjectId) (hasChain : world.HasChain id chain)
    (made : ∀ target, receiver = .object target → world.Has target) :
    (∀ outcome, (setFor (callWithin depth) realm id key value receiver).outcome world = outcome ↔
      OrdinarySet (callWithin depth) realm world key value receiver id outcome) ∧
    (∀ getter function enumerable configurable,
      world.nearest? chain key =
        some (.accessor getter (some function) enumerable configurable) →
      (setFor (callWithin depth) realm id key value receiver).outcome world =
        ((callWithin depth realm function receiver [value]).outcome world).andThen fun _ after =>
          .done true after) ∧
    (∀ property, world.nearest? chain key = some property →
      property.setter? = some none ∨ property.writable? = some false →
      (setFor (callWithin depth) realm id key value receiver).outcome world = .done false world) ∧
    ((∀ property, world.nearest? chain key = some property → property.writable? = some true) →
      (receiver.object? = none →
        (setFor (callWithin depth) realm id key value receiver).outcome world =
          .done false world) ∧
      ∀ target, receiver = .object target →
        ((setFor (callWithin depth) realm id key value receiver).outcome world).Assigns
          (callWithin depth) realm world target key value) := by
  refine ⟨fun outcome => ⟨?_, fun set => set.outcome_setFor hasChain⟩, ?_, ?_, fun held => ?_⟩
  · rintro rfl
    exact ordinarySet_setFor hasChain
  · intro getter function enumerable configurable nearest
    exact outcome_setFor_of_setter _ realm value receiver hasChain nearest
  · intro property nearest refuses
    rcases property with ⟨old, _ | _, enumerable, configurable⟩ |
      ⟨getter, _ | function, enumerable, configurable⟩
    · exact outcome_setFor_of_readOnly _ realm value receiver hasChain nearest
    · rcases refuses with noSetter | readOnly
      · cases noSetter
      · cases readOnly
    · exact outcome_setFor_of_noSetter _ realm value receiver hasChain nearest
    · rcases refuses with noSetter | readOnly
      · cases noSetter
      · cases readOnly
  · rw [outcome_setFor_of_open _ realm value receiver hasChain held]
    constructor
    · intro noObject
      cases receiver with
      | object target => cases noObject
      | _ => rfl
    · rintro target rfl
      exact writeTo_assigns (steady_callWithin kindDiscipline depth) (made target rfl)

/-- An array that is assigned to under the name of a method that it inherits gets the value itself,
and the object with the method is left alone. -/
theorem setFor_ordinary_of_inherited :
    let world := World.fresh 1
    let holder := Intrinsic.objectPrototype.id 0
    let target := Intrinsic.arrayPrototype.id 0
    ∃ after, (setFor (callWithin 0) 0 target (.text "valueOf") .null (.object target)).outcome
        world = .done true after ∧
      (get (callWithin 0) 0 target (.text "valueOf")).outcome after = .done .null after ∧
      after.object holder = world.object holder := by
  intro world holder target
  have array : world.object target = Intrinsic.arrayPrototype.object 0 :=
    World.object_fresh_intrinsic Nat.zero_lt_one .arrayPrototype
  have plain : world.object holder = Intrinsic.objectPrototype.object 0 :=
    World.object_fresh_intrinsic Nat.zero_lt_one .objectPrototype
  have made : world.Has target := World.has_of_isArray (by rw [array]; rfl)
  have absent : (world.object target).own? (.text "valueOf") = none := by rw [array]; rfl
  have above : (world.object target).prototype = some holder := by rw [array]; rfl
  have own : (world.object holder).own? (.text "valueOf") =
      some (.hidden ((Intrinsic.function .objectValueOf).value 0)) := by rw [plain]; rfl
  have hasChain : world.HasChain target [target, holder] :=
    .next above (.last (by rw [plain]; rfl))
  obtain ⟨law, -, -, writes⟩ := setFor_ordinary 0 0 world target (.text "valueOf") .null
    (.object target) [target, holder] hasChain fun _ same => Value.object.inj same ▸ made
  have noLength : Key.text "valueOf" ≠ .length := by decide
  have created : (define (callWithin 0) 0 target (.text "valueOf")
      (.data .null true true true)).outcome world = .done true _ :=
    outcome_define_of_defined _ _ (fun converts => noLength converts.2.1) (by rw [array]; rfl)
  have ends := (law _).mpr (.inherit absent above (.writable own (.create rfl absent)))
  rw [create, created] at ends
  have held : ∀ property, world.nearest? [target, holder] (.text "valueOf") = some property →
      property.writable? = some true := by
    intro property nearest
    rw [World.nearest?_of_absent absent, World.nearest?_of_own? own] at nearest
    cases nearest
    rfl
  obtain ⟨middle, stored, stores, assigned⟩ := ((writes held).2 target rfl).met _ ends
  cases stores with
  | value => exact ⟨_, ends, assigned.read, assigned.others holder (by decide)⟩
  | length _ length => exact absurd length noLength

end EcmaCore
