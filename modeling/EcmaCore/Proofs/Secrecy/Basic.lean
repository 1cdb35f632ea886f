/-
This file says what it means that scripts have not got hold of an object. Its identity is
then a secret: no other object leads to it, no memory holds it, and no program that is
still to run has it. Identities cannot be guessed, so a run that starts without the
secret comes to know only what it reads, and whatever it reads it has read from an
object, from a memory or from the reply of an operation.

That a run is discreet is shown from its parts, along with what is known about its value.
There is one way in which a run may come by the secret without being told: it may make an
object that gets this very identity. So a run is followed as long as it does not, and
whether it does is seen from the world in which it ends, since what was given out is never
taken back.
-/

import EcmaCore.Proofs.Confinement.Territory
import EcmaCore.Proofs.Run.Course

namespace EcmaCore

variable {α β : Type}

/-- An identity that scripts have not got hold of. It is none of the places of the intrinsics, which
everything in a realm leads to. -/
structure Secret where
  id : ObjectId
  late : Intrinsic.all.length ≤ id.slot

/-! ### Values -/

/-- The value is not the secret object. -/
def Value.Avoids (secret : Secret) (value : Value) : Prop := value ≠ .object secret.id

/-- The secret object is not among the values. -/
def Secret.Absent (secret : Secret) (values : List Value) : Prop :=
  ∀ value ∈ values, value.Avoids secret

section

variable {secret : Secret} {value : Value} {values others : List Value} {id : ObjectId}

@[simp]
theorem Value.avoids_object : (Value.object id).Avoids secret ↔ id ≠ secret.id := by
  rw [Avoids, Ne, Value.object.injEq]

/-- Only an object can be the secret one. -/
theorem Value.avoids_of_primitive (primitive : value.object? = none) : value.Avoids secret := by
  rintro rfl
  cases primitive

@[simp]
theorem Secret.absent_nil : secret.Absent [] := List.forall_mem_nil _

@[simp]
theorem Secret.absent_cons :
    secret.Absent (value :: values) ↔ value.Avoids secret ∧ secret.Absent values :=
  List.forall_mem_cons

theorem Secret.absent_singleton : secret.Absent [value] ↔ value.Avoids secret :=
  List.forall_mem_singleton

theorem Secret.absent_primitive (primitive : value.object? = none) : secret.Absent [value] :=
  Secret.absent_singleton.mpr (Value.avoids_of_primitive primitive)

/-- No intrinsic is a secret. -/
theorem Secret.intrinsic_ne (secret : Secret) (which : Intrinsic) (realm : RealmId) :
    which.id realm ≠ secret.id := by
  intro same
  have early : (which.id realm).slot < Intrinsic.all.length :=
    List.idxOf_lt_length_of_mem which.mem_all
  rw [same] at early
  exact Nat.not_lt_of_le secret.late early

end

/-! ### Programs and objects -/

/-- The program does not have the secret, and it does not come by it as long as no reply gives it
away. -/
def Program.Avoids (secret : Secret) : Program → Prop
  | .finish value => value.Avoids secret
  | .raise _ => True
  | @perform shape _ operation next =>
    secret.Absent operation.values ∧
      ∀ reply, (∀ answer, reply = .ok answer → secret.Absent (shape.values answer)) →
        (next reply).Avoids secret
  | .makeFunction _ _ _ body next =>
    (∀ invocation, secret.Absent invocation.values → (body invocation).Avoids secret) ∧
      ∀ id, id ≠ secret.id → (next id).Avoids secret

/-- A call of the function does not have the secret unless it is told. -/
def Behaviour.Avoids (secret : Secret) : Behaviour → Prop
  | .host body =>
    ∀ invocation, secret.Absent invocation.values → (body invocation).Avoids secret
  | _ => True

/-- The own properties of an object do not lead to the secret. -/
def Table.Avoids (secret : Secret) (table : Table Key Property) : Prop :=
  ∀ key property, table.get? key = some property → secret.Absent property.values

/-- Nothing about the object leads to the secret. -/
structure Object.Avoids (secret : Secret) (object : Object) : Prop where
  table : object.table.Avoids secret
  prototype : ∀ parent, object.prototype = some parent → parent ≠ secret.id
  callable : ∀ callable, object.callable = some callable → callable.behaviour.Avoids secret

/-- The snapshot is one of another object, and it does not lead to the secret. -/
structure Snapshot.Avoids (secret : Secret) (snapshot : Snapshot) : Prop where
  target : snapshot.target ≠ secret.id
  table : snapshot.table.Avoids secret
  prototype : ∀ parent, snapshot.prototype = some parent → parent ≠ secret.id

/-! ### Worlds -/

/-- No object but the secret one leads to the secret, and no memory does. -/
structure World.Hides (secret : Secret) (world : World) : Prop where
  object : ∀ id, id ≠ secret.id → (world.object id).Avoids secret
  binding : ∀ realm name value,
    (world.realm realm).memory.bindings.get? name = some value → value.Avoids secret
  snapshot : ∀ realm name snapshot,
    (world.realm realm).memory.snapshots.get? name = some snapshot → snapshot.Avoids secret

/-- Between the two worlds the secret has not been given out. -/
def World.Withholds (secret : Secret) (before after : World) : Prop :=
  after.Has secret.id → before.Has secret.id

/-- The secret is still one, and its object is as it was. -/
structure World.Spares (secret : Secret) (before after : World) : Prop where
  hides : after.Hides secret
  object : after.object secret.id = before.object secret.id

namespace World

variable {secret : Secret} {world : World} {realm : RealmId} {id : ObjectId} {object : Object}

/-- A change of the objects that leaves the memories alone hides what the objects hide. -/
theorem Hides.of_objects (hides : world.Hides secret) {after : World}
    (memory : ∀ realm, (after.realm realm).memory = (world.realm realm).memory)
    (avoids : ∀ id, id ≠ secret.id → (after.object id).Avoids secret) : after.Hides secret where
  object := avoids
  binding realm name value found := by
    rw [memory] at found
    exact hides.binding realm name value found
  snapshot realm name snapshot found := by
    rw [memory] at found
    exact hides.snapshot realm name snapshot found

theorem Hides.add (hides : world.Hides secret) (avoids : object.Avoids secret) :
    (world.add realm object).Hides secret := by
  refine hides.of_objects (view_modifyRealm Realm.memory fun _ => rfl) fun id other => ?_
  rcases object_add_cases world realm object id with ⟨-, made⟩ | same
  · rwa [made]
  · rw [same]
    exact hides.object id other

theorem Hides.modifyObject (hides : world.Hides secret) {update : Object → Object}
    (avoids : id ≠ secret.id → (update (world.object id)).Avoids secret) :
    (world.modifyObject id update).Hides secret := by
  refine hides.of_objects (view_modifyRealm Realm.memory fun _ => rfl) fun other different => ?_
  rcases object_modifyObject_cases world id update other with ⟨rfl, made⟩ | same
  · rw [made]
    exact avoids different
  · rw [same]
    exact hides.object other different

/-- A new object does not get the secret identity, as long as that is not given out. -/
theorem nextId_ne_secret (withholds : world.Withholds secret (world.add realm object)) :
    world.nextId realm ≠ secret.id := by
  intro same
  by_cases made : world.HasRealm realm
  · have given := withholds (same ▸ has_add_nextId made object)
    rw [← same] at given
    exact not_has_nextId given
  · -- In a realm that was never made the next place is the first one, which is an intrinsic's.
    have first : (world.nextId realm).slot = 0 := by
      have outside : world.realms.size ≤ realm := Nat.le_of_not_lt made
      have nothing : world.realm realm = default := by
        simp [World.realm, Array.getElem?_eq_none outside]
      rw [nextId, nothing]
      rfl
    have late := secret.late
    rw [← same, first] at late
    exact absurd late (by decide)

theorem Spares.add (hides : world.Hides secret) (avoids : object.Avoids secret)
    (withholds : world.Withholds secret (world.add realm object)) :
    world.Spares secret (world.add realm object) :=
  ⟨hides.add avoids, object_add_of_ne (nextId_ne_secret withholds).symm object⟩

end World

/-! ### Runs -/

/-- As long as the secret is not given out, no change on the way from a world gives it away or
touches its object, and the value at the end meets a goal. -/
def Run.Conceals (secret : Secret) (goal : α → Prop) : Run α → World → Prop
  | .done value, _ => goal value
  | .threw _, _ => True
  | .cutOff, _ => True
  | .look next, world => (next world).Conceals secret goal world
  | .change update next, world =>
    world.Withholds secret (update world) →
      world.Spares secret (update world) ∧ (next ()).Conceals secret goal (update world)

/-- The run conceals the secret from every world that hides it. -/
structure Run.Discreet (secret : Secret) (goal : α → Prop) (run : Run α) : Prop where
  conceals : ∀ world, world.Hides secret → run.Conceals secret goal world

/-- The run is discreet, whatever its value. -/
abbrev Run.Silent (secret : Secret) (run : Run α) : Prop := run.Discreet secret fun _ => True

/-- Calls are discreet that are made without the secret, and do not return it. -/
def Caller.Discreet (secret : Secret) (call : Caller) : Prop :=
  ∀ realm function receiver arguments, secret.Absent (function :: receiver :: arguments) →
    (call realm function receiver arguments).Discreet secret (Value.Avoids secret)

namespace Run

variable {secret : Secret} {goal : α → Prop} {run : Run α} {world : World}

/-! ### Single steps -/

theorem discreet_pure {value : α} (met : goal value) :
    (pure value : Run α).Discreet secret goal where
  conceals _ _ := met

theorem discreet_throw (error : Error) : (throw error : Run α).Discreet secret goal where
  conceals _ _ := trivial

theorem discreet_cutOff : (cutOff : Run α).Discreet secret goal where
  conceals _ _ := trivial

theorem discreet_read {view : World → α} (met : ∀ world, world.Hides secret → goal (view world)) :
    (read view).Discreet secret goal where
  conceals := met

theorem silent_modify {update : World → World}
    (spares : ∀ world : World, world.Hides secret → world.Spares secret (update world)) :
    (modify update).Silent secret where
  conceals world hides _ := ⟨spares world hides, trivial⟩

/-- A new object that does not lead to the secret is another one. -/
theorem discreet_allocate (realm : RealmId) {object : Object} (avoids : object.Avoids secret) :
    (allocate realm object).Discreet secret (· ≠ secret.id) where
  conceals _ hides withholds :=
    ⟨.add hides avoids withholds, World.nextId_ne_secret withholds⟩

/-! ### One run after another -/

theorem Conceals.bind {middle : α → Prop} {goal : β → Prop} {continuation : α → Run β}
    (first : run.Conceals secret middle world) (hides : world.Hides secret)
    (rest : ∀ value, middle value → (continuation value).Discreet secret goal) :
    (run >>= continuation).Conceals secret goal world := by
  change (run.andThen continuation).Conceals secret goal world
  induction run generalizing world with
  | done value => exact (rest value first).conceals world hides
  | threw error => exact trivial
  | cutOff => exact trivial
  | look next inductionHypothesis => exact inductionHypothesis world first hides
  | change update next inductionHypothesis =>
    intro withholds
    obtain ⟨spares, later⟩ := first withholds
    exact ⟨spares, inductionHypothesis () later spares.hides⟩

theorem Discreet.bind {middle : α → Prop} {goal : β → Prop} {continuation : α → Run β}
    (first : run.Discreet secret middle)
    (rest : ∀ value, middle value → (continuation value).Discreet secret goal) :
    (run >>= continuation).Discreet secret goal where
  conceals world hides := (first.conceals world hides).bind hides rest

theorem Conceals.weaken {weaker : α → Prop} (conceals : run.Conceals secret goal world)
    (enough : ∀ value, goal value → weaker value) : run.Conceals secret weaker world := by
  induction run generalizing world with
  | done value => exact enough value conceals
  | threw error => exact trivial
  | cutOff => exact trivial
  | look next inductionHypothesis => exact inductionHypothesis world conceals
  | change update next inductionHypothesis =>
    exact fun withholds => (conceals withholds).imp_right (inductionHypothesis ())

theorem Discreet.weaken {weaker : α → Prop} (discreet : run.Discreet secret goal)
    (enough : ∀ value, goal value → weaker value) : run.Discreet secret weaker where
  conceals world hides := (discreet.conceals world hides).weaken enough

/-! ### Errors as values -/

/-- An error gives nothing away. -/
theorem Discreet.attempt (discreet : run.Discreet secret goal) :
    run.attempt.Discreet secret fun reply => ∀ value, reply = .ok value → goal value := by
  refine ⟨fun world hides => ?_⟩
  have conceals := discreet.conceals world hides
  clear discreet hides
  induction run generalizing world with
  | done value =>
    rintro _ ⟨⟩
    exact conceals
  | threw error => exact nofun
  | cutOff => exact trivial
  | look next inductionHypothesis => exact inductionHypothesis world world conceals
  | change update next inductionHypothesis =>
    exact fun withholds => (conceals withholds).imp_right (inductionHypothesis () _)

theorem Conceals.followedBy {last : World → World} (conceals : run.Conceals secret goal world)
    (hides : world.Hides secret)
    (spares : ∀ reached : World, reached.Hides secret → reached.Spares secret (last reached)) :
    (run.followedBy last).Conceals secret goal world := by
  induction run generalizing world with
  | done value => exact fun _ => ⟨spares world hides, conceals⟩
  | threw error => exact fun _ => ⟨spares world hides, trivial⟩
  | cutOff => exact trivial
  | look next inductionHypothesis => exact inductionHypothesis world conceals hides
  | change update next inductionHypothesis =>
    intro withholds
    obtain ⟨since, later⟩ := conceals withholds
    exact ⟨since, inductionHypothesis () later since.hides⟩

theorem Discreet.followedBy {last : World → World} (discreet : run.Discreet secret goal)
    (spares : ∀ reached : World, reached.Hides secret → reached.Spares secret (last reached)) :
    (run.followedBy last).Discreet secret goal where
  conceals world hides := (discreet.conceals world hides).followedBy hides spares

/-! ### The worlds on the way -/

section Growth

variable {rule : Rule} {anything : α → Prop} (conceals : run.Conceals secret goal world)
  (grows : run.Follows rule anything world)
  (keeps : ∀ {before after : World}, rule.allows before after →
    before.Has secret.id → after.Has secret.id)
include conceals grows keeps

/-- As long as no world takes back what was given out, a run that has not given out the secret has
kept it up to there. -/
theorem Conceals.spares_of_mem (hides : world.Hides secret) {reached : World}
    (member : reached ∈ run.worlds world) (withholds : world.Withholds secret reached) :
    world.Spares secret reached := by
  induction run generalizing world with
  | done value =>
    obtain rfl := List.mem_singleton.mp member
    exact ⟨hides, rfl⟩
  | threw error =>
    obtain rfl := List.mem_singleton.mp member
    exact ⟨hides, rfl⟩
  | cutOff =>
    obtain rfl := List.mem_singleton.mp member
    exact ⟨hides, rfl⟩
  | look next inductionHypothesis =>
    exact inductionHypothesis world conceals grows hides member withholds
  | change update next inductionHypothesis =>
    rcases List.mem_cons.mp member with rfl | later
    · exact ⟨hides, rfl⟩
    · have first : world.Withholds secret (update world) := fun given =>
        withholds (keeps (grows.2.allows_of_mem later) given)
      obtain ⟨spares, conceals⟩ := conceals first
      have second : (update world).Withholds secret reached := fun given =>
        keeps grows.1.allows (withholds given)
      have rest := inductionHypothesis () conceals grows.2 spares.hides later second
      exact ⟨rest.hides, rest.object.trans spares.object⟩

/-- The value of a run that has not given out the secret meets the goal. -/
theorem Conceals.goal_of_done {value : α} {after : World}
    (ended : run.outcome world = .done value after) (withholds : world.Withholds secret after) :
    goal value := by
  induction run generalizing world with
  | done result =>
    cases ended
    exact conceals
  | threw error => cases ended
  | cutOff => cases ended
  | look next inductionHypothesis =>
    exact inductionHypothesis world conceals grows ended withholds
  | change update next inductionHypothesis =>
    have later : after ∈ (next ()).worlds (update world) := mem_worlds_of_done ended
    obtain ⟨_, conceals⟩ := conceals fun given =>
      withholds (keeps (grows.2.allows_of_mem later) given)
    refine inductionHypothesis () conceals grows.2 ended fun given => ?_
    exact keeps grows.1.allows (withholds given)

end Growth

end Run

end EcmaCore
