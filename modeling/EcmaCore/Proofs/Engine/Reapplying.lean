/-
This file proves that defining a property of an object as its own description says changes
nothing. The slot is described by a new object, the description reads back as a descriptor that
says all that the slot holds, and the object that is asked for it allows it and stays as it is,
extensible or not, frozen or not.

Arrays are the case with an argument behind it, since a length is converted and written anew.
The length that comes back is the one that was there because lengths in arrays are exact, and
they are exact in every world that a program can reach, so nothing has to be asked of them.
-/

import EcmaCore.Proofs.Engine.Defining
import EcmaCore.Proofs.Engine.Describing
import EcmaCore.Proofs.Object.Reapplying
import EcmaCore.Proofs.Text.Pieces
import EcmaCore.Proofs.World.Arrays

namespace EcmaCore

/-! ### Worlds with exact lengths -/

/-- Putting the snapshot back leaves an exact length, whatever the object is by then. -/
def Snapshot.ExactLength (snapshot : Snapshot) : Prop :=
  ∀ object, (snapshot.onto object).ExactLength

/-- The lengths of all arrays are exact, and those that snapshots of arrays would put back. -/
structure World.LengthsExact (world : World) : Prop where
  now : ∀ id, (world.object id).isArray = true → (world.object id).ExactLength
  held : ∀ realm name snapshot, world.Holds realm name snapshot →
    world.Has snapshot.target ∧
      ((world.object snapshot.target).isArray = true → snapshot.ExactLength)

namespace World.LengthsExact

variable {before after world : World} {id target : ObjectId} {snapshot : Snapshot}

/-- A change of the memory keeps lengths exact if what is held from then on was held before, or is
good to put back. -/
theorem of_sameObjects (exact : before.LengthsExact) (same : before.SameObjects after)
    (held : ∀ realm name snapshot, after.Holds realm name snapshot →
      before.Holds realm name snapshot ∨ before.Has snapshot.target ∧
        ((before.object snapshot.target).isArray = true → snapshot.ExactLength)) :
    after.LengthsExact where
  now id array := by
    rw [same.object] at array ⊢
    exact exact.now id array
  held realm name snapshot holds := by
    rw [same.object, same.has]
    rcases held realm name snapshot holds with still | good
    · exact exact.held realm name snapshot still
    · exact good

theorem add (exact : world.LengthsExact) (realm : RealmId) {object : Object}
    (new : object.isArray = true → object.ExactLength) : (world.add realm object).LengthsExact where
  now id array := by
    rcases object_add_cases world realm object id with ⟨-, made⟩ | same
    · rw [made] at array ⊢
      exact new array
    · rw [same] at array ⊢
      exact exact.now id array
  held another name snapshot holds := by
    obtain ⟨made, good⟩ := exact.held another name snapshot
      ((sameSnapshots_add world realm object).holds.mp holds)
    rw [object_add_of_ne made.ne_nextId]
    exact ⟨made.add realm object, good⟩

theorem modifyObject (exact : world.LengthsExact) {update : Object → Object}
    (kind : (update (world.object target)).kind = (world.object target).kind)
    (keeps : (world.object target).isArray = true → (world.object target).ExactLength →
      (update (world.object target)).ExactLength) :
    (world.modifyObject target update).LengthsExact where
  now id array := by
    rcases object_modifyObject_cases world target update id with ⟨rfl, made⟩ | same
    · rw [made] at array ⊢
      rw [Object.isArray, kind] at array
      exact keeps array (exact.now id array)
    · rw [same] at array ⊢
      exact exact.now id array
  held realm name snapshot holds := by
    obtain ⟨made, good⟩ := exact.held realm name snapshot
      ((sameSnapshots_modifyObject world target update).holds.mp holds)
    refine ⟨(has_modifyObject update _).mpr made, fun array => good ?_⟩
    rwa [Object.isArray, (sameKinds_modifyObject kind _ made).2] at array

theorem release (exact : world.LengthsExact) (realm : RealmId) (name : String) :
    (world.release realm name).LengthsExact := by
  unfold World.release
  split
  · rename_i snapshot found
    have objects := sameObjects_modifySnapshots world realm (·.erase name)
    have erased : (world.modifySnapshots realm (·.erase name)).LengthsExact :=
      exact.of_sameObjects objects fun _ _ _ holds => Or.inl (holds_of_holds_erase holds)
    refine erased.modifyObject rfl fun array _ => ?_
    rw [objects.object] at array
    exact (exact.held realm name snapshot found).2 array _
  · exact exact

/-- A snapshot of an array with an exact length is good to put back. -/
theorem of_captured (exact : world.LengthsExact) (captured : world.capture? id = some snapshot)
    (array : (world.object id).isArray = true) : snapshot.ExactLength := fun object =>
  (exact.now id array).congr ((capture?_eq_some captured).2.2 object .length)

theorem hold (exact : world.LengthsExact) (realm : RealmId) (name : String) (target : ObjectId) :
    (world.hold realm name target).LengthsExact := by
  unfold World.hold
  split
  · rename_i taken captured
    obtain ⟨made, rfl, -⟩ := capture?_eq_some captured
    obtain ⟨madeStill, sameKind⟩ := sameKinds_release world realm name _ made
    refine (exact.release realm name).of_sameObjects (sameObjects_modifySnapshots _ realm _) ?_
    intro another asked snapshot holds
    rcases holds_of_holds_insert holds with still | rfl
    · exact Or.inl still
    · refine Or.inr ⟨madeStill, fun array => exact.of_captured captured ?_⟩
      rwa [Object.isArray, sameKind] at array
  · exact exact

end World.LengthsExact

/-! ### No program makes another length -/

/-- The engine's own new arrays have an exact length. -/
theorem Object.Newborn.exactLength {realm : RealmId} {object : Object}
    (newborn : object.Newborn realm) (array : object.isArray = true) : object.ExactLength := by
  cases newborn with
  | plain => cases array
  | string units =>
    rw [Object.ofString, isArray, (sameNature_putAll _ _).kind] at array
    cases array
  | array => exact exactLength_put_number _ (Nat.zero_le maxLength) _ _ _
  | function name arity behaviour => cases array

/-- Whatever a program does, the lengths of arrays stay exact. -/
def exactLengthDiscipline : Discipline where
  rule :=
    { holds := World.LengthsExact
      allows := World.SameKinds
      refl := World.SameKinds.refl
      trans := World.SameKinds.trans }
  permits _ _ := True
  asked _ _ := True
  asked_of_lawful _ := trivial
  asked_of_define _ := trivial
  asked_of_defineOrThrow _ := trivial
  asked_of_allows _ _ := trivial
  quiet exact objects snapshots _ _ :=
    ⟨exact.of_sameObjects objects fun _ _ _ holds => Or.inl (snapshots.holds.mp holds),
      .of_sameObjects objects⟩
  add exact newborn := ⟨exact.add _ newborn.exactLength, World.sameKinds_add _ _ _⟩
  step exact step :=
    ⟨exact.modifyObject step.sameNature.kind step.exactLength,
      World.sameKinds_modifyObject step.sameNature.kind⟩
  make _ exact :=
    ⟨exact.add _ fun _ => Object.exactLength_of_absent rfl, World.sameKinds_add _ _ _⟩
  hold _ exact := ⟨exact.hold _ _ _, World.sameKinds_hold _ _ _ _⟩
  release _ exact := ⟨exact.release _ _, World.sameKinds_release _ _ _⟩
  setExtensible _ exact :=
    ⟨exact.modifyObject rfl fun _ length => length.congr rfl, World.sameKinds_modifyObject rfl⟩
  setPrototype _ exact :=
    ⟨exact.modifyObject rfl fun _ length => length.congr rfl, World.sameKinds_modifyObject rfl⟩
  restore _ exactThen exact since captured := by
    obtain ⟨made, rfl, -⟩ := World.capture?_eq_some captured
    refine ⟨exact.modifyObject rfl fun array _ => ?_, World.sameKinds_modifyObject rfl⟩
    rw [Object.isArray, (since _ made).2] at array
    exact exactThen.of_captured captured array _

theorem World.lengthsExact_fresh (count : Nat) : (World.fresh count).LengthsExact where
  now id array := by
    rcases object_fresh count id with empty | ⟨which, -, intrinsic⟩
    · rw [empty]
      exact Object.exactLength_of_absent rfl
    · rw [intrinsic] at array ⊢
      cases which with
      | arrayPrototype =>
        have fresh : (Object.put {} .length (lengthSlot 0)).ExactLength :=
          Object.exactLength_put_number _ (Nat.zero_le maxLength) _ _ _
        exact fresh.congr rfl
      | function builtin => cases builtin <;> cases array
      | _ => cases array
  held realm name snapshot holds := absurd holds (not_holds_fresh realm name snapshot)

/-- In every world that a program reaches from new realms, the lengths of arrays are exact. -/
theorem Program.lengthsExact (program : Program) (depth count : Nat) {reached : World}
    (member : reached ∈ (program.run (callWithin depth)).worlds (.fresh count)) :
    reached.LengthsExact := by
  have start := World.lengthsExact_fresh count
  have hosts := World.hostsObey_fresh (fun _ _ => True) count
  have follows := Program.follows exactLengthDiscipline program.obeys_anything hosts start depth
  exact (follows.holds_of_mem ⟨start, hosts⟩ member).1

/-! ### Defining a property as it is -/

variable {call : Caller} {realm : RealmId} {world : World} {id : ObjectId} {key : Key}
  {property : Property}

/-- The halves of an accessor that are present can be called. -/
def World.CanCall (world : World) (property : Property) : Prop :=
  ∀ half, property.getter? = some (some half) ∨ property.setter? = some (some half) →
    world.isCallable half = true

theorem World.CanCall.halvesDefined (callable : world.CanCall property) :
    property.HalvesDefined := by
  constructor
  · intro present
    cases callable .undefined (Or.inl present)
  · intro present
    cases callable .undefined (Or.inr present)

/-- So what a slot says is a lawful descriptor. -/
theorem World.CanCall.lawful (callable : world.CanCall property) :
    (Descriptor.ofProperty property).Lawful world := by
  cases property with
  | data value writable enumerable configurable => exact ⟨nofun, nofun, nofun⟩
  | accessor getter setter enumerable configurable =>
    have allows (half : Option Value)
        (called : ∀ value, half = some value → world.isCallable value = true) :
        world.AllowsHalf (some (half.getD .undefined)) := by
      intro value given
      cases half with
      | none => exact Or.inl (Option.some.inj given).symm
      | some present => exact Or.inr (Option.some.inj given ▸ called present rfl)
    exact ⟨fun _ => rfl,
      allows getter fun value present => callable value (Or.inl (congrArg some present)),
      allows setter fun value present => callable value (Or.inr (congrArg some present))⟩

/-- An array that is well formed and has an exact length, or an object that is no array. -/
def Object.Sound (object : Object) : Prop :=
  object.isArray = true → object.WellFormedArray ∧ object.ExactLength

/-- The definition of a slot as it is is allowed and leaves the world as it is. -/
theorem outcome_define_ofProperty (call : Caller) (realm : RealmId)
    (sound : (world.object id).Sound) (slot : (world.object id).own? key = some property)
    (defined : property.HalvesDefined) :
    (define call realm id key (.ofProperty property)).outcome world = .done true world := by
  have unchanged : (world.modifyObject id fun _ => world.object id) = world := by
    have same : (world.modifyObject id fun _ => world.object id) =
        world.modifyObject id fun object => object := World.modifyObject_congr rfl
    rw [same, World.modifyObject_id]
  by_cases converts : (world.object id).Converts key (.ofProperty property)
  · obtain ⟨array, rfl, -⟩ := converts
    obtain ⟨wellFormed, exact⟩ := sound array
    obtain ⟨length, bound, writable, held⟩ := wellFormed.own?_length exact
    obtain rfl := Option.some.inj (slot.symm.trans held)
    have given :
        (Descriptor.ofProperty (.data (.number (.ofNat length)) writable false false)).value =
          some (.number (.ofNat length)) := rfl
    rw [outcome_define_length call realm array given rfl bound (Number.integer?_ofNat_of_le bound),
      Object.lengthDefined_ofProperty bound held, unchanged]
  · have same := Object.defined?_ofProperty (fun array => (sound array).1) slot defined
    rw [outcome_define_of_defined call realm converts same, unchanged]

/-- The string of the code units of a key is converted to that key. -/
theorem outcome_toKey_units (call : Caller) (realm : RealmId) (key : Key) (world : World) :
    (toKey call realm (.string key.units)).outcome world = .done key world := by
  have converted : (toKey call realm (.string key.units)).outcome world =
    .done (.ofUnits key.units) world := rfl
  rw [converted, Key.ofUnits_units]

/-- A slot is described by an object, which reads back as the descriptor that says all of the
slot. -/
theorem exists_outcome_ownDescription (call : Caller) (free : world.FieldsFree realm)
    (slot : (world.object id).own? key = some property) (callable : world.CanCall property) :
    ∃ description after,
      (ownDescription call realm (.object id) (.string key.units)).outcome world =
        .done (.object description) after ∧
      after.Extends world ∧
      (readDescription call realm (.object description)).outcome after =
        .done (.ofProperty property) after := by
  obtain ⟨description, after, described, extended, read⟩ :=
    exists_outcome_describe call free callable.lawful
  refine ⟨description, after, ?_, extended, read⟩
  have target : (toObject realm (.object id)).outcome world = .done id world := rfl
  rw [ownDescription, Run.outcome_bind_of_done target,
    Run.outcome_bind_of_done (outcome_toKey_units call realm key world),
    Run.outcome_bind_of_done (Run.outcome_object id world), slot]
  dsimp only
  rw [Run.outcome_bind_of_done described]
  rfl

/-- Defines a property of an object as its own description says. -/
def redefineDescribed (call : Caller) (depth : Nat) (realm : RealmId)
    (receiver target key : Value) : Run Value := do
  let described ←
    Builtin.run call depth realm receiver [target, key] .objectGetOwnPropertyDescriptor
  Builtin.run call depth realm receiver [target, key, described] .objectDefineProperty

/-- Defining an own property of an object as its own description says does nothing. The description
is made, the definition succeeds and returns the object, and every object that was there stays as it
was: ordinary, function, boxed string or array, extensible or not, under any key, the length of
an array among them. What is asked for is that no field of a description is inherited, that the
accessors that are present can be called, and that an array is well formed with an exact length;
and in every world that a program reaches from new realms, all lengths are exact. -/
theorem redefineDescribed_unchanged :
    (∀ (call : Caller) (depth : Nat) (realm : RealmId) (receiver : Value) (world : World)
      (id : ObjectId) (key : Key) (property : Property),
      world.FieldsFree realm → (world.object id).own? key = some property →
      world.CanCall property → (world.object id).Sound →
      ∃ after, (redefineDescribed call depth realm receiver (.object id)
          (.string key.units)).outcome world = .done (.object id) after ∧
        after.Extends world) ∧
    ∀ (program : Program) (depth count : Nat),
      ∀ reached ∈ (program.run (callWithin depth)).worlds (.fresh count),
        ∀ id, (reached.object id).isArray = true → (reached.object id).ExactLength := by
  refine ⟨?_, fun program depth count reached member =>
    (program.lengthsExact depth count member).now⟩
  intro call depth realm receiver world id key property free slot callable sound
  have made : world.Has id := by
    refine Decidable.byContradiction fun missing => ?_
    rw [World.object_of_not_has missing] at slot
    cases slot
  obtain ⟨description, after, described, extended, read⟩ :=
    exists_outcome_ownDescription call free slot callable
  -- The object is defined in the later world, in which it is as it was.
  have same := extended.object id made
  have defined := outcome_define_ofProperty call realm (same.symm ▸ sound)
    (same.symm ▸ slot) callable.halvesDefined
  refine ⟨after, ?_, extended⟩
  show (ownDescription call realm (.object id) (.string key.units) >>= fun described =>
    defineProperty call realm (.object id) (.string key.units) described).outcome world = _
  rw [Run.outcome_bind_of_done described, defineProperty,
    Run.outcome_bind_of_done (outcome_toKey_units call realm key after),
    Run.outcome_bind_of_done read, defineOrThrow, Run.outcome_bind,
    Run.outcome_bind_of_done defined]
  rfl

/-- An array of length 5 without elements, frozen. -/
def Object.frozenArray : Object :=
  Object.put { prototype := some (Intrinsic.arrayPrototype.id 0), extensible := false,
               kind := .array } .length (.data (.number (.ofNat 5)) false false false)

theorem Object.sound_frozenArray : frozenArray.Sound := by
  have bound : 5 ≤ maxLength := by decide
  refine fun _ => ⟨⟨rfl, 5, bound, ?_, ?_⟩, ?_⟩
  · exact hasLength_put_length (Number.integer?_ofNat_of_le bound)
  · exact IndicesBelow.put_length (fun key index present => by cases present) _
  · exact exactLength_put_number _ bound _ _ _

/-- The read-only length of a frozen array can be defined as it is. -/
theorem redefineDescribed_unchanged_frozen :
    let world := (World.fresh 1).add 0 .frozenArray
    let id := (World.fresh 1).nextId 0
    world.FieldsFree 0 ∧ (world.object id).Sound ∧
      ∃ after, (redefineDescribed (callWithin 0) 0 0 .undefined (.object id)
          (.ofText "length")).outcome world = .done (.object id) after ∧
        after.object id = .frozenArray := by
  intro world id
  have region : (World.fresh 1).HasRealm 0 := World.hasRealm_fresh Nat.zero_lt_one
  have free : world.FieldsFree 0 :=
    (World.fieldsFree_fresh Nat.zero_lt_one).of_extends (World.extends_add _ _ _)
  have object : world.object id = .frozenArray := World.object_add_nextId region _
  have sound : (world.object id).Sound := object ▸ Object.sound_frozenArray
  have slot : (world.object id).own? .length =
      some (.data (.number (.ofNat 5)) false false false) := by
    rw [object]
    exact Object.own?_put_self _ _ _
  have callable : world.CanCall (.data (.number (.ofNat 5)) false false false) := by
    rintro half (present | present) <;> cases present
  obtain ⟨after, done, extended⟩ := redefineDescribed_unchanged.1 (callWithin 0) 0 0 .undefined
    world id .length _ free slot callable sound
  exact ⟨free, sound, after, done,
    (extended.object id (World.has_add_nextId region _)).trans object⟩

end EcmaCore
