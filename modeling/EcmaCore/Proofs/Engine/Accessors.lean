/-
This file proves that accessors stay callable. What objects are asked for by descriptions is
lawful when it is read, so the halves of an accessor that come about in this way are absent or
functions, and a function stays one. A slot that is partly asked for keeps the halves it has,
and a snapshot that is put back has those that were there when it was taken. So as long as
programs do not ask an object for accessors of their own making, whatever the scripts in
between do, each slot of each object has halves that can be called, and an access by such a
slot always gets as far as the function.
-/

import EcmaCore.Proofs.Engine.Reapplying
import EcmaCore.Proofs.World.History

namespace EcmaCore

variable {before after world : World}

/-! ### Functions stay functions -/

namespace World.Remembers

variable (remembers : before.Remembers after)
include remembers

theorem isCallable {value : Value} (callable : before.isCallable value = true) :
    after.isCallable value = true := by
  cases value with
  | object id =>
    obtain ⟨function, found⟩ := Option.isSome_iff_exists.mp callable
    rw [World.isCallable, remembers.callable_eq found]
    rfl
  | _ => cases callable

theorem allowsHalf {field : Option Value} (allows : before.AllowsHalf field) :
    after.AllowsHalf field := fun value given => (allows value given).imp_right remembers.isCallable

theorem canCall {property : Property} (callable : before.CanCall property) :
    after.CanCall property := fun half present => remembers.isCallable (callable half present)

end World.Remembers

/-! ### Slots with halves that can be called -/

namespace World

variable {descriptor : Descriptor} {property : Property}

theorem canCall_data (value : Value) (writable enumerable configurable : Bool) :
    world.CanCall (.data value writable enumerable configurable) := by
  rintro half (present | present) <;> cases present

theorem canCall_accessor {getter setter : Option Value} {enumerable configurable : Bool}
    (ofGetter : ∀ half, getter = some half → world.isCallable half = true)
    (ofSetter : ∀ half, setter = some half → world.isCallable half = true) :
    world.CanCall (.accessor getter setter enumerable configurable) := by
  rintro half (present | present)
  · exact ofGetter half (Option.some.inj present)
  · exact ofSetter half (Option.some.inj present)

theorem AllowsHalf.isCallable_half {field : Option Value} (allows : world.AllowsHalf field)
    (half : Value) (present : Descriptor.half field = some half) :
    world.isCallable half = true := by
  obtain ⟨given, noUndefined⟩ := Option.filter_eq_some_iff.mp present
  rcases allows half given with rfl | callable
  · cases noUndefined
  · exact callable

/-- A half that is left out is the one that was there, if there was one. -/
theorem AllowsHalf.isCallable_or {field held : Option Value} (allows : world.AllowsHalf field)
    (kept : ∀ half, held = some half → world.isCallable half = true) (half : Value)
    (present : (if field.isSome then Descriptor.half field else held) = some half) :
    world.isCallable half = true := by
  split at present
  · exact allows.isCallable_half half present
  · exact kept half present

section

variable (getter : world.AllowsHalf descriptor.getter) (setter : world.AllowsHalf descriptor.setter)
include getter setter

theorem canCall_toProperty : world.CanCall descriptor.toProperty := by
  rw [Descriptor.toProperty]
  split
  · exact canCall_accessor getter.isCallable_half setter.isCallable_half
  · exact canCall_data _ _ _ _

theorem canCall_revised {current : Property} (callable : world.CanCall current) :
    world.CanCall (current.revised descriptor) := by
  cases current with
  | data value writable enumerable configurable =>
    rw [Property.revised]
    split
    · exact canCall_accessor getter.isCallable_half setter.isCallable_half
    · exact canCall_data _ _ _ _
  | accessor heldGetter heldSetter enumerable configurable =>
    rw [Property.revised]
    split
    · exact canCall_data _ _ _ _
    · exact canCall_accessor
        (getter.isCallable_or fun half held => callable half (Or.inl (congrArg some held)))
        (setter.isCallable_or fun half held => callable half (Or.inr (congrArg some held)))

end

/-- That all halves can be called is a rule for steps that are asked for such halves. -/
def callableRule (world : World) : Object.StepRule where
  holds object := ∀ key property, object.own? key = some property → world.CanCall property
  good := world.CanCall
  asked descriptor := world.AllowsHalf descriptor.getter ∧ world.AllowsHalf descriptor.setter
  own callable slot := callable _ _ slot
  put callable good key property slot := by
    rw [Object.own?_put] at slot
    split at slot
    · exact Option.some.inj slot ▸ good
    · exact callable key property slot
  erased {object erased} callable key property slot := by
    by_cases same : key = erased
    · rw [same, Object.own?_erased_self] at slot
      cases slot
    · rw [Object.own?_erased_of_ne object same] at slot
      exact callable key property slot
  made asked := canCall_toProperty asked.1 asked.2
  revised callable asked := canCall_revised asked.1 asked.2 callable
  length _ _ asked := asked
  locked := ⟨nofun, nofun⟩
  number _ := canCall_data _

/-- An object without properties has no accessors. -/
theorem callableRule_of_empty (world : World) {object : Object} (empty : object.table = .empty) :
    world.callableRule.holds object := by
  intro key property slot
  rw [Object.own?, empty] at slot
  cases slot

end World

theorem Descriptor.Lawful.asked {descriptor : Descriptor} (lawful : descriptor.Lawful world) :
    world.callableRule.asked descriptor :=
  ⟨lawful.getter, lawful.setter⟩

/-- The objects that the engine makes by itself have no accessors. -/
theorem Object.Newborn.callableRule {realm : RealmId} {object : Object}
    (newborn : object.Newborn realm) (world : World) : world.callableRule.holds object := by
  cases newborn with
  | plain => exact world.callableRule_of_empty rfl
  | string units =>
    refine world.callableRule.putAll (world.callableRule_of_empty rfl) fun entry member => ?_
    rcases List.mem_append.mp member with ofUnit | ofLength
    · obtain ⟨_, _, rfl⟩ := List.mem_map.mp ofUnit
      exact World.canCall_data _ _ _ _
    · rw [List.mem_singleton.mp ofLength]
      exact World.canCall_data _ _ _ _
  | array =>
    exact world.callableRule.put (world.callableRule_of_empty rfl) (World.canCall_data _ _ _ _)
  | function name arity behaviour =>
    refine world.callableRule.putAll (world.callableRule_of_empty rfl) fun entry member => ?_
    simp only [functionEntries, List.mem_cons, List.not_mem_nil, or_false] at member
    rcases member with rfl | rfl
    · exact World.canCall_data _ _ _ _
    · exact World.canCall_data _ _ _ _

/-! ### Worlds with callable accessors -/

/-- The halves of all accessors can be called, and those that snapshots would put back. -/
structure World.AccessorsCallable (world : World) : Prop where
  now : ∀ id key property, (world.object id).own? key = some property → world.CanCall property
  held : ∀ realm name snapshot, world.Holds realm name snapshot →
    ∀ key property, snapshot.table.get? key = some property → world.CanCall property

namespace World.AccessorsCallable

variable {target : ObjectId} {realm : RealmId} {snapshot : Snapshot}

/-- What can be called in a world that is remembered can be called. -/
theorem of_remembers (remembers : before.Remembers after)
    (now : ∀ id, before.callableRule.holds (after.object id))
    (held : ∀ realm name snapshot, after.Holds realm name snapshot →
      ∀ key property, snapshot.table.get? key = some property → before.CanCall property) :
    after.AccessorsCallable where
  now id key property slot := remembers.canCall (now id key property slot)
  held realm name snapshot holds key property slot :=
    remembers.canCall (held realm name snapshot holds key property slot)

theorem of_sameObjects (callable : before.AccessorsCallable) (same : before.SameObjects after)
    (remembers : before.Remembers after)
    (held : ∀ realm name snapshot, after.Holds realm name snapshot →
      before.Holds realm name snapshot ∨
        ∀ key property, snapshot.table.get? key = some property → before.CanCall property) :
    after.AccessorsCallable := by
  refine of_remembers remembers (fun id => ?_) fun realm name snapshot holds => ?_
  · rw [same.object]
    exact callable.now id
  · rcases held realm name snapshot holds with still | good
    · exact callable.held realm name snapshot still
    · exact good

theorem add (callable : world.AccessorsCallable) (realm : RealmId) {object : Object}
    (new : world.callableRule.holds object) :
    (world.add realm object).AccessorsCallable := by
  refine of_remembers (remembers_add world realm object) (fun id => ?_) fun _ _ _ holds =>
    callable.held _ _ _ ((sameSnapshots_add world realm object).holds.mp holds)
  rcases object_add_cases world realm object id with ⟨-, made⟩ | same
  · rwa [made]
  · rw [same]
    exact callable.now id

theorem modifyObject (callable : world.AccessorsCallable) {update : Object → Object}
    (same : (update (world.object target)).callable = (world.object target).callable)
    (changed : world.callableRule.holds (update (world.object target))) :
    (world.modifyObject target update).AccessorsCallable := by
  refine of_remembers (remembers_modifyObject same) (fun id => ?_) fun _ _ _ holds =>
    callable.held _ _ _ ((sameSnapshots_modifyObject world target update).holds.mp holds)
  rcases object_modifyObject_cases world target update id with ⟨-, made⟩ | unchanged
  · rwa [made]
  · rw [unchanged]
    exact callable.now id

theorem release (callable : world.AccessorsCallable) (realm : RealmId) (name : String) :
    (world.release realm name).AccessorsCallable := by
  unfold World.release
  split
  · rename_i snapshot found
    have objects := sameObjects_modifySnapshots world realm (·.erase name)
    have remembers : world.Remembers (world.modifySnapshots realm (·.erase name)) :=
      .of_sameObjects objects (List.prefix_refl _)
    have erased : (world.modifySnapshots realm (·.erase name)).AccessorsCallable :=
      callable.of_sameObjects objects remembers fun _ _ _ holds =>
        Or.inl (holds_of_holds_erase holds)
    refine erased.modifyObject rfl fun key property slot => remembers.canCall ?_
    exact callable.held realm name snapshot found key property slot
  · exact callable

/-- A snapshot has the slots that the object has when it is taken. -/
theorem of_captured (callable : world.AccessorsCallable)
    (captured : world.capture? target = some snapshot) :
    ∀ key property, snapshot.table.get? key = some property → world.CanCall property :=
  fun key property slot => callable.now target key property
    (((capture?_eq_some captured).2.2 default key).symm.trans slot)

theorem hold (callable : world.AccessorsCallable) (realm : RealmId) (name : String)
    (target : ObjectId) : (world.hold realm name target).AccessorsCallable := by
  unfold World.hold
  split
  · rename_i taken captured
    have objects := sameObjects_modifySnapshots (world.release realm name) realm
      (·.insert name taken)
    refine (callable.release realm name).of_sameObjects objects
      (.of_sameObjects objects (List.prefix_refl _)) fun _ _ snapshot holds => ?_
    rcases holds_of_holds_insert holds with still | rfl
    · exact Or.inl still
    · exact Or.inr fun key property slot =>
        (remembers_release world realm name).canCall (callable.of_captured captured key property slot)
  · exact callable

end World.AccessorsCallable

/-- The intrinsics have no accessors. -/
theorem Intrinsic.callableRule (which : Intrinsic) (realm : RealmId) (world : World) :
    world.callableRule.holds (which.object realm) := by
  have led (name : String) (other : Intrinsic) :
      world.callableRule.good (link realm name other).2 := World.canCall_data _ _ _ _
  have installed (builtin : Builtin) : world.callableRule.good (method realm builtin).2 :=
    World.canCall_data _ _ _ _
  have length : world.callableRule.good (lengthSlot 0) := World.canCall_data _ _ _ _
  have functions (builtin : Builtin) : world.callableRule.holds (Object.putAll (.ofCallable realm
      builtin.name builtin.arity (.builtin builtin)) (statics realm builtin)) := by
    refine world.callableRule.putAll ((Object.Newborn.function _ _ _).callableRule world) ?_
    cases builtin <;> simp [statics, led, installed]
  cases which with
  | function builtin =>
    cases builtin with
    | functionPrototype => exact world.callableRule_of_empty rfl
    | _ => exact functions _
  | _ =>
    refine world.callableRule.putAll (world.callableRule_of_empty rfl) ?_
    simp [led, installed, length]

theorem World.accessorsCallable_fresh (count : Nat) : (World.fresh count).AccessorsCallable where
  now id := by
    rcases object_fresh count id with empty | ⟨which, -, intrinsic⟩
    · exact (World.fresh count).callableRule_of_empty (congrArg Object.table empty)
    · rw [intrinsic]
      exact which.callableRule id.realm (.fresh count)
  held realm name snapshot holds := absurd holds (not_holds_fresh realm name snapshot)

/-! ### No program makes another accessor -/

/-- Programs ask for accessors by descriptions only: an object is not asked for one directly. -/
def DescribesAccessors : Permission
  | _, .define _ _ descriptor => descriptor.isAccessor = false
  | _, .defineOrThrow _ _ descriptor => descriptor.isAccessor = false
  | _, _ => True

/-- A lawful request keeps accessors callable, and what is read from a description is lawful. -/
def accessorDiscipline : Discipline where
  rule :=
    { holds := World.AccessorsCallable
      allows := World.Remembers
      refl := World.Remembers.refl
      trans := World.Remembers.trans }
  permits := DescribesAccessors
  asked world := world.callableRule.asked
  asked_of_lawful lawful := lawful.asked
  asked_of_define noAccessor := (Descriptor.Lawful.of_noAccessor noAccessor).asked
  asked_of_defineOrThrow noAccessor := (Descriptor.Lawful.of_noAccessor noAccessor).asked
  asked_of_allows remembers asked := ⟨remembers.allowsHalf asked.1, remembers.allowsHalf asked.2⟩
  quiet callable objects snapshots _ later :=
    ⟨callable.of_sameObjects objects (.of_sameObjects objects later)
        fun _ _ _ holds => Or.inl (snapshots.holds.mp holds),
      .of_sameObjects objects later⟩
  add callable newborn :=
    ⟨callable.add _ (newborn.callableRule _), World.remembers_add _ _ _⟩
  step callable step :=
    ⟨callable.modifyObject step.sameNature.callable
        ((World.callableRule _).step (callable.now _) (fun _ asked => asked) step),
      World.remembers_modifyObject step.sameNature.callable⟩
  make _ callable :=
    ⟨callable.add _ (World.callableRule_of_empty _ rfl), World.remembers_add _ _ _⟩
  hold _ callable := ⟨callable.hold _ _ _, World.remembers_hold _ _ _ _⟩
  release _ callable := ⟨callable.release _ _, World.remembers_release _ _ _⟩
  setExtensible _ callable :=
    ⟨callable.modifyObject rfl (callable.now _), World.remembers_modifyObject rfl⟩
  setPrototype _ callable :=
    ⟨callable.modifyObject rfl (callable.now _), World.remembers_modifyObject rfl⟩
  restore _ earlier callable since captured :=
    ⟨callable.modifyObject rfl fun key property slot =>
        since.canCall (earlier.of_captured captured key property slot),
      World.remembers_modifyObject rfl⟩

/-! ### Accesses by accessors -/

/-- What comes of reading by a getter: undefined if there is none, and what the function does with
the receiver if there is one. -/
inductive World.ReadBy (world : World) (levels : Nat) (realm : RealmId) (receiver : Value) :
    Option Value → Outcome Value → Prop
  | absent : ReadBy world levels realm receiver none (.done .undefined world)
  | called {function : ObjectId} {callable : Callable}
      (does : (world.object function).callable = some callable) :
      ReadBy world levels realm receiver (some (.object function))
        ((callable.behaviour.run (callWithin levels) levels realm function receiver []).outcome
          (world.logged ⟨function, receiver, [], .begun⟩))

/-- What comes of assigning by a setter: a refusal if there is none, and what the function does with
the receiver and the value if there is one, whatever it returns. -/
inductive World.AssignedBy (world : World) (levels : Nat) (realm : RealmId)
    (value receiver : Value) : Option Value → Outcome Bool → Prop
  | absent : AssignedBy world levels realm value receiver none (.done false world)
  | called {function : ObjectId} {callable : Callable}
      (does : (world.object function).callable = some callable) :
      AssignedBy world levels realm value receiver (some (.object function))
        (((callable.behaviour.run (callWithin levels) levels realm function receiver
          [value]).outcome (world.logged ⟨function, receiver, [value], .begun⟩)).andThen
            fun _ after => .done true after)

section

variable {id holder : ObjectId} {key : Key} {getter setter : Option Value}
  {enumerable configurable : Bool}

theorem exists_callable_of_isCallable {value : Value} (callable : world.isCallable value = true) :
    ∃ function callable, value = .object function ∧
      (world.object function).callable = some callable := by
  cases value with
  | object function =>
    obtain ⟨callable, does⟩ := Option.isSome_iff_exists.mp callable
    exact ⟨function, callable, rfl, does⟩
  | _ => cases callable

variable (callable : world.CanCall (.accessor getter setter enumerable configurable))
  (found : world.search id key = .found holder (.accessor getter setter enumerable configurable))
  (levels : Nat) (realm : RealmId)
include callable found

theorem readBy_getFor (receiver : Value) :
    world.ReadBy levels realm receiver getter
      ((getFor (callWithin (levels + 1)) realm id key receiver).outcome world) := by
  rw [getFor, Run.outcome_bind_of_done (Run.outcome_search_of_found found)]
  cases getter with
  | none => exact .absent
  | some half =>
    obtain ⟨function, _, rfl, does⟩ := exists_callable_of_isCallable (callable half (Or.inl rfl))
    dsimp only
    rw [outcome_callWithin levels realm receiver [] does]
    exact .called does

theorem assignedBy_setFor (value receiver : Value) :
    world.AssignedBy levels realm value receiver setter
      ((setFor (callWithin (levels + 1)) realm id key value receiver).outcome world) := by
  rw [setFor, Run.outcome_bind_of_done (Run.outcome_search_of_found found)]
  cases setter with
  | none => exact .absent
  | some half =>
    obtain ⟨function, _, rfl, does⟩ := exists_callable_of_isCallable (callable half (Or.inr rfl))
    dsimp only
    rw [Run.outcome_bind, outcome_callWithin levels realm receiver [value] does]
    exact .called does

end

/-- Accessors stay callable. In new realms there are none that cannot be called. And as long as
programs ask for accessors by descriptions only, whatever else they do, in every world that a run
passes through each half of each accessor is absent or can be called, and so is each that a snapshot
would put back. An access by an accessor that is found, own or inherited and on behalf of any
receiver, then does what the function does, and does not fail before it gets there. -/
theorem Program.accessors_callable :
    (∀ count, (World.fresh count).AccessorsCallable) ∧
    ∀ (program : Program) (world : World) (depth : Nat), program.Obeys DescribesAccessors →
      world.HostsObey DescribesAccessors → world.AccessorsCallable →
      ∀ reached ∈ (program.run (callWithin depth)).worlds world,
        reached.AccessorsCallable ∧
        ∀ id key holder getter setter enumerable configurable,
          reached.search id key =
            .found holder (.accessor getter setter enumerable configurable) →
          ∀ levels realm receiver,
            reached.ReadBy levels realm receiver getter
              ((getFor (callWithin (levels + 1)) realm id key receiver).outcome reached) ∧
            ∀ value, reached.AssignedBy levels realm value receiver setter
              ((setFor (callWithin (levels + 1)) realm id key value receiver).outcome reached) := by
  refine ⟨World.accessorsCallable_fresh, ?_⟩
  intro program world depth obeys hosts start reached member
  have follows := Program.follows accessorDiscipline obeys hosts start depth
  have callable : reached.AccessorsCallable := (follows.holds_of_mem ⟨start, hosts⟩ member).1
  refine ⟨callable, ?_⟩
  intro id key holder getter setter enumerable configurable found levels realm receiver
  have halves := callable.now holder key _ (World.own?_of_search_found found)
  exact ⟨readBy_getFor halves found levels realm receiver,
    fun value => assignedBy_setFor halves found levels realm value receiver⟩

/-- A program that gives all arrays a getter, as a description asks. -/
def Program.addsGetter : Program :=
  .makeFunction 0 "" 0 (fun invocation => .finish invocation.receiver) fun getter =>
    .perform 0 (.describe { getter := some (.object getter), setter := some .undefined }) fun
      | .ok description =>
        .perform 0 (.defineProperty (Intrinsic.arrayPrototype.value 0) (.ofText "first")
          description) fun _ => .finish .undefined
      | .error error => .raise error

/-- In the world in which it ends the getter is there, and can be called. -/
theorem Program.accessors_callable_of_getter :
    ∃ reached ∈ (Program.addsGetter.run (callWithin 0)).worlds (World.fresh 1),
      reached.AccessorsCallable ∧
        (reached.object (Intrinsic.arrayPrototype.id 0)).own? (.text "first") =
          some (.accessor (some (.object ⟨0, 20⟩)) none false false) ∧
        reached.isCallable (.object ⟨0, 20⟩) = true := by
  obtain ⟨value, reached, ended⟩ : ∃ value reached,
      (Program.addsGetter.run (callWithin 0)).outcome (World.fresh 1) = .done value reached :=
    ⟨_, _, rfl⟩
  have slot : (((Program.addsGetter.run (callWithin 0)).outcome (World.fresh 1)).last?.bind
      fun reached => (reached.object (Intrinsic.arrayPrototype.id 0)).own? (.text "first")) =
        some (.accessor (some (.object ⟨0, 20⟩)) none false false) := rfl
  have obeys : Program.addsGetter.Obeys DescribesAccessors := by
    refine ⟨fun _ => trivial, fun getter => ⟨trivial, fun reply => ?_⟩⟩
    cases reply with
    | ok description => exact ⟨trivial, fun _ => trivial⟩
    | error error => exact trivial
  have member := Run.mem_worlds_of_done ended
  obtain ⟨callable, -⟩ := Program.accessors_callable.2 Program.addsGetter (World.fresh 1) 0 obeys
    (World.hostsObey_fresh _ 1) (Program.accessors_callable.1 1) reached member
  rw [ended] at slot
  exact ⟨reached, member, callable, slot, callable.now _ _ _ slot _ (Or.inl rfl)⟩

end EcmaCore
