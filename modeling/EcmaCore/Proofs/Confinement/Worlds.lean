/-
This file is about worlds in which a territory is kept to: whatever belongs to it leads to
nothing foreign. Two such worlds may agree on the territory and differ in everything else.
A look that sees no further cannot tell them apart, and a change that is confined leaves
them in agreement, while it does nothing to what is foreign.

A walk along a prototype chain is bounded by the number of all objects, the foreign ones
included, which two agreeing worlds need not have in common. Yet it sees the territory
only: if a walk within the bound does not end, none does, however long it is.
-/

import EcmaCore.Proofs.Confinement.Territory
import EcmaCore.Proofs.World.Chains

namespace EcmaCore

variable {α β : Type} {territory : Territory}

/-- Nothing that is remembered leads to anything foreign. -/
structure Memory.Within (territory : Territory) (memory : Memory) : Prop where
  binding : ∀ name value, memory.bindings.get? name = some value → value.Within territory
  snapshot : ∀ name snapshot, memory.snapshots.get? name = some snapshot →
    snapshot.Within territory

/-- The objects and the memories of the territory lead to nothing foreign. -/
structure World.KeepsTo (territory : Territory) (world : World) : Prop where
  object : ∀ id, territory.owns id → (world.object id).Within territory
  memory : ∀ realm, territory.governs realm → (world.realm realm).memory.Within territory

/-- The realms have equally many objects, run the same joins and remember the same. -/
structure Realm.Alike (left right : Realm) : Prop where
  places : right.objects.size = left.objects.size
  joining : right.joining = left.joining
  memory : right.memory = left.memory

/-- The worlds have equally many realms. They agree about some objects and how many calls of each
have come to which stage, and some realms are alike. -/
structure World.AgreesOn (ids : ObjectId → Prop) (realms : RealmId → Prop)
    (left right : World) : Prop where
  count : right.realms.size = left.realms.size
  object : ∀ id, ids id → right.object id = left.object id
  has : ∀ id, ids id → (right.Has id ↔ left.Has id)
  calls : ∀ id, ids id → ∀ stage,
    right.callsOf stage (.object id) = left.callsOf stage (.object id)
  alike : ∀ realm, realms realm → (left.realm realm).Alike (right.realm realm)

/-- The worlds agree on all that belongs to the territory. -/
abbrev World.AgreesWithin (territory : Territory) : World → World → Prop :=
  World.AgreesOn territory.owns territory.governs

/-- The worlds agree on all that is foreign to the territory. -/
abbrev World.AgreesOutside (territory : Territory) : World → World → Prop :=
  World.AgreesOn (¬ territory.owns ·) (¬ territory.governs ·)

namespace Realm.Alike

variable {first second third : Realm}

theorem refl (realm : Realm) : realm.Alike realm := ⟨rfl, rfl, rfl⟩

theorem symm (alike : first.Alike second) : second.Alike first :=
  ⟨alike.places.symm, alike.joining.symm, alike.memory.symm⟩

theorem trans (early : first.Alike second) (late : second.Alike third) : first.Alike third :=
  ⟨late.places.trans early.places, late.joining.trans early.joining,
    late.memory.trans early.memory⟩

end Realm.Alike

namespace World.AgreesOn

variable {ids fewerIds : ObjectId → Prop} {realms fewerRealms : RealmId → Prop}
  {first second third : World}

theorem refl (world : World) : world.AgreesOn ids realms world where
  count := rfl
  object _ _ := rfl
  has _ _ := Iff.rfl
  calls _ _ _ := rfl
  alike _ _ := .refl _

theorem symm (agrees : first.AgreesOn ids realms second) : second.AgreesOn ids realms first where
  count := agrees.count.symm
  object id inside := (agrees.object id inside).symm
  has id inside := (agrees.has id inside).symm
  calls id inside stage := (agrees.calls id inside stage).symm
  alike realm inside := (agrees.alike realm inside).symm

theorem trans (early : first.AgreesOn ids realms second)
    (late : second.AgreesOn ids realms third) : first.AgreesOn ids realms third where
  count := late.count.trans early.count
  object id inside := (late.object id inside).trans (early.object id inside)
  has id inside := (late.has id inside).trans (early.has id inside)
  calls id inside stage := (late.calls id inside stage).trans (early.calls id inside stage)
  alike realm inside := (early.alike realm inside).trans (late.alike realm inside)

theorem mono (agrees : first.AgreesOn ids realms second) (fewer : ∀ id, fewerIds id → ids id)
    (fewerRealm : ∀ realm, fewerRealms realm → realms realm) :
    first.AgreesOn fewerIds fewerRealms second where
  count := agrees.count
  object id inside := agrees.object id (fewer id inside)
  has id inside := agrees.has id (fewer id inside)
  calls id inside := agrees.calls id (fewer id inside)
  alike realm inside := agrees.alike realm (fewerRealm realm inside)

/-- Two changes leave two agreeing worlds in agreement on what neither of them changes. -/
theorem frame {left right leftAfter rightAfter : World} {kept : ObjectId → Prop}
    {keptRealms : RealmId → Prop} (agrees : left.AgreesOn ids realms right)
    (leftKept : left.AgreesOn kept keptRealms leftAfter)
    (rightKept : right.AgreesOn kept keptRealms rightAfter) :
    leftAfter.AgreesOn (fun id => ids id ∧ kept id) (fun realm => realms realm ∧ keptRealms realm)
      rightAfter :=
  ((leftKept.symm.mono (fun _ => And.right) fun _ => And.right).trans
    (agrees.mono (fun _ => And.left) fun _ => And.left)).trans
    (rightKept.mono (fun _ => And.right) fun _ => And.right)

theorem hasRealm (agrees : first.AgreesOn ids realms second) (realm : RealmId) :
    second.HasRealm realm ↔ first.HasRealm realm := by
  rw [HasRealm, HasRealm, agrees.count]

end World.AgreesOn

theorem World.KeepsTo.of_agreesWithin {left right : World} (keeps : left.KeepsTo territory)
    (agrees : left.AgreesWithin territory right) : right.KeepsTo territory where
  object id owned := by
    rw [agrees.object id owned]
    exact keeps.object id owned
  memory realm governed := by
    rw [(agrees.alike realm governed).memory]
    exact keeps.memory realm governed

/-! ### What a change leaves alone -/

namespace World

theorem agreesOn_modifyObject (world : World) (id : ObjectId) (update : Object → Object) :
    world.AgreesOn (· ≠ id) (fun _ => True) (world.modifyObject id update) where
  count := Array.size_modify
  object _ different := object_modifyObject_of_ne different update
  has other _ := has_modifyObject update other
  calls _ _ _ := rfl
  alike another _ := by
    refine ⟨view_modifyRealm (·.objects.size) (fun _ => Array.size_modify) another,
      view_modifyRealm Realm.joining ?_ another, view_modifyRealm Realm.memory ?_ another⟩
    · exact fun _ => rfl
    · exact fun _ => rfl

theorem agreesOn_modifyRealm (world : World) (realm : RealmId) {change : Realm → Realm}
    (unseen : ∀ region, (change region).objects = region.objects) :
    world.AgreesOn (fun _ => True) (· ≠ realm) (world.modifyRealm realm change) where
  count := Array.size_modify
  object id _ := (SameObjects.modifyRealm unseen).object id
  has id _ := (SameObjects.modifyRealm unseen).has id
  calls _ _ _ := rfl
  alike _ different := by
    rw [realm_modifyRealm_of_ne different]
    exact .refl _

theorem agreesOn_add (world : World) (realm : RealmId) (object : Object) :
    world.AgreesOn (· ≠ world.nextId realm) (· ≠ realm) (world.add realm object) where
  count := Array.size_modify
  object _ different := object_add_of_ne different object
  has _ different := ⟨fun made => has_of_has_add made different, fun made => made.add realm object⟩
  calls _ _ _ := rfl
  alike _ different := by
    rw [add, realm_modifyRealm_of_ne different]
    exact .refl _

/-- A call that is noted counts for its function and its stage only. -/
theorem callsOf_logged (world : World) (call : Call) (stage : Stage) (id : ObjectId) :
    (world.logged call).callsOf stage (.object id) =
      world.callsOf stage (.object id) +
        if call.stage = stage ∧ call.callee = id then 1 else 0 := by
  simp [callsOf, logged, List.countP_append, List.countP_cons]

theorem agreesOn_logged (world : World) (call : Call) :
    world.AgreesOn (· ≠ call.callee) (fun _ => True) (world.logged call) where
  count := rfl
  object _ _ := rfl
  has _ _ := Iff.rfl
  calls id different stage := by
    rw [callsOf_logged, if_neg fun same => different same.2.symm, Nat.add_zero]
  alike _ _ := .refl _

end World

/-! ### Memories -/

namespace Memory.Within

variable {memory : Memory} (within : memory.Within territory) (name : String)
include within

theorem bind {value : Value} (bound : value.Within territory) :
    ({ memory with bindings := memory.bindings.insert name value } : Memory).Within territory := by
  refine ⟨fun other found slot => ?_, within.snapshot⟩
  by_cases same : other = name
  · rw [same, Table.get?_insert_self] at slot
    exact Option.some.inj slot ▸ bound
  · rw [Table.get?_insert_of_ne _ same] at slot
    exact within.binding other found slot

theorem keep {snapshot : Snapshot} (taken : snapshot.Within territory) :
    ({ memory with snapshots := memory.snapshots.insert name snapshot } : Memory).Within
      territory := by
  refine ⟨within.binding, fun other found slot => ?_⟩
  by_cases same : other = name
  · rw [same, Table.get?_insert_self] at slot
    exact Option.some.inj slot ▸ taken
  · rw [Table.get?_insert_of_ne _ same] at slot
    exact within.snapshot other found slot

theorem forget :
    ({ memory with snapshots := memory.snapshots.erase name } : Memory).Within territory := by
  refine ⟨within.binding, fun other found slot => ?_⟩
  by_cases same : other = name
  · rw [same, Table.get?_erase_self] at slot
    cases slot
  · rw [Table.get?_erase_of_ne _ same] at slot
    exact within.snapshot other found slot

end Memory.Within

/-! ### Looks -/

/-- What is seen is the same in agreeing worlds, and meets a goal where the territory is kept to. -/
structure Territory.Sees (territory : Territory) (view : World → α) (goal : α → Prop) : Prop where
  agree : ∀ {left right : World}, left.KeepsTo territory → left.AgreesWithin territory right →
    view right = view left
  met : ∀ {world : World}, world.KeepsTo territory → goal (view world)

namespace Territory

variable {id : ObjectId} {realm : RealmId}

theorem sees_const {goal : α → Prop} {value : α} (met : goal value) :
    territory.Sees (fun _ => value) goal where
  agree _ _ := rfl
  met _ := met

/-- What an object of the territory shows of itself. -/
theorem sees_object {goal : α → Prop} (owned : territory.owns id) (view : Object → α)
    (met : ∀ object : Object, object.Within territory → goal (view object)) :
    territory.Sees (fun world => view (world.object id)) goal where
  agree _ agrees := by rw [agrees.object id owned]
  met keeps := met _ (keeps.object id owned)

theorem sees_isCallable {value : Value} (within : value.Within territory) :
    territory.Sees (·.isCallable value) fun _ => True := by
  cases value with
  | object id =>
    exact sees_object (Value.within_object.mp within) (·.callable.isSome) fun _ _ => trivial
  | _ => exact sees_const trivial

theorem sees_isArray {value : Value} (within : value.Within territory) :
    territory.Sees (·.isArray value) fun _ => True := by
  cases value with
  | object id => exact sees_object (Value.within_object.mp within) Object.isArray fun _ _ => trivial
  | _ => exact sees_const trivial

theorem sees_display {value : Value} (within : value.Within territory) :
    territory.Sees (·.display value) fun _ => True where
  agree _ agrees := by
    cases value with
    | object id =>
      rw [World.display, World.display, agrees.object id (Value.within_object.mp within)]
    | _ => rfl
  met _ := trivial

theorem sees_joining (governed : territory.governs realm) :
    territory.Sees (fun world => (world.realm realm).joining) fun _ => True where
  agree _ agrees := (agrees.alike realm governed).joining
  met _ := trivial

theorem sees_callsOf (stage : Stage) {value : Value} (within : value.Within territory) :
    territory.Sees (·.callsOf stage value) fun _ => True where
  agree {left right} _ agrees := by
    cases value with
    | object id => exact agrees.calls id (Value.within_object.mp within) stage
    | _ =>
      -- A primitive value was never called.
      have never (world : World) {value : Value} (primitive : value.object? = none) :
          world.callsOf stage value = 0 := by
        refine List.countP_eq_zero.mpr fun entry _ same => ?_
        rw [← beq_iff_eq.mp (Bool.and_eq_true_iff.mp same).2] at primitive
        cases primitive
      rw [never left rfl, never right rfl]
  met _ := trivial

theorem sees_load (governed : territory.governs realm) (name : String) :
    territory.Sees (·.load realm name) (Value.Within territory) where
  agree _ agrees := by rw [World.load, World.load, (agrees.alike realm governed).memory]
  met {world} keeps := by
    rw [World.load]
    cases bound : (world.realm realm).memory.bindings.get? name with
    | none => exact Value.within_undefined
    | some value => exact (keeps.memory realm governed).binding name value bound

theorem sees_snapshot (governed : territory.governs realm) (name : String) :
    territory.Sees (fun world => (world.realm realm).memory.snapshots.get? name)
      fun held => ∀ snapshot, held = some snapshot → snapshot.Within territory where
  agree _ agrees := by rw [(agrees.alike realm governed).memory]
  met keeps snapshot held := (keeps.memory realm governed).snapshot name snapshot held

theorem sees_capture? (owned : territory.owns id) :
    territory.Sees (·.capture? id)
      fun captured => ∀ snapshot, captured = some snapshot → snapshot.Within territory where
  agree _ agrees := by
    rw [World.capture?, World.capture?, agrees.object id owned]
    exact if_congr (agrees.has id owned) rfl rfl
  met keeps snapshot captured := by
    have within := keeps.object id owned
    rw [World.capture?] at captured
    split at captured
    · cases captured
      exact ⟨owned, within.table, within.prototype⟩
    · cases captured

end Territory

/-! ### Walks along prototype chains -/

namespace World.KeepsTo

variable {world left right : World} {key : Key} {id : ObjectId} {steps : Nat}

/-- What a walk finds was found in an object of the territory. -/
theorem searchWithin (keeps : world.KeepsTo territory) (owned : territory.owns id)
    {holder : ObjectId} {property : Property}
    (found : world.searchWithin key steps id = .found holder property) :
    territory.OwnsAll property.values := by
  induction steps generalizing id with
  | zero => cases found
  | succ steps inductionHypothesis =>
    rw [World.searchWithin] at found
    cases slot : (world.object id).own? key with
    | some own =>
      rw [slot] at found
      cases found
      exact (keeps.object _ owned).own? slot
    | none =>
      cases next : (world.object id).prototype with
      | none =>
        rw [slot, next] at found
        cases found
      | some parent =>
        rw [slot, next] at found
        exact inductionHypothesis ((keeps.object id owned).prototype parent next) found

theorem chainWithin (keeps : world.KeepsTo territory) (owned : territory.owns id)
    {chain : List ObjectId} (ended : world.chainWithin steps id = some chain) :
    ∀ member ∈ chain, territory.owns member := by
  induction steps generalizing id chain with
  | zero => cases ended
  | succ steps inductionHypothesis =>
    rw [World.chainWithin] at ended
    cases next : (world.object id).prototype with
    | none =>
      rw [next] at ended
      cases ended
      exact List.forall_mem_singleton.mpr owned
    | some parent =>
      rw [next] at ended
      obtain ⟨rest, found, rfl⟩ := Option.map_eq_some_iff.mp ended
      exact List.forall_mem_cons.mpr
        ⟨owned, inductionHypothesis ((keeps.object id owned).prototype parent next) found⟩

variable (keeps : left.KeepsTo territory) (agrees : left.AgreesWithin territory right)
include keeps agrees

theorem searchWithin_eq (owned : territory.owns id) :
    right.searchWithin key steps id = left.searchWithin key steps id := by
  induction steps generalizing id with
  | zero => rfl
  | succ steps inductionHypothesis =>
    rw [World.searchWithin, World.searchWithin, agrees.object id owned]
    cases (left.object id).own? key with
    | some property => rfl
    | none =>
      cases next : (left.object id).prototype with
      | none => rfl
      | some parent => exact inductionHypothesis ((keeps.object id owned).prototype parent next)

theorem chainWithin_eq (owned : territory.owns id) :
    right.chainWithin steps id = left.chainWithin steps id := by
  induction steps generalizing id with
  | zero => rfl
  | succ steps inductionHypothesis =>
    rw [World.chainWithin, World.chainWithin, agrees.object id owned]
    cases next : (left.object id).prototype with
    | none => rfl
    | some parent =>
      have above := inductionHypothesis ((keeps.object id owned).prototype parent next)
      exact congrArg (Option.map (id :: ·)) above

/-- Neither search can end where the other does not, though their bounds differ. -/
theorem search_eq (owned : territory.owns id) : right.search id key = left.search id key := by
  by_cases endless : left.search id key = .endless
  · rw [endless, World.search, keeps.searchWithin_eq agrees owned]
    exact World.searchWithin_endless_of_search endless _
  · have same : right.searchWithin key (left.population + 1) id = left.search id key :=
      keeps.searchWithin_eq agrees owned
    rw [← same] at endless ⊢
    exact World.search_of_searchWithin endless

theorem chain?_eq (owned : territory.owns id) : right.chain? id = left.chain? id := by
  cases chain : left.chain? id with
  | none =>
    rw [World.chain?, keeps.chainWithin_eq agrees owned]
    exact World.chainWithin_eq_none_of_chain? chain _
  | some members =>
    have ended : right.chainWithin (left.population + 1) id = some members :=
      (keeps.chainWithin_eq agrees owned).trans chain
    exact World.chain?_of_chainWithin ended

omit keeps in
theorem enumerated_eq {visited : List Key} {chain : List ObjectId}
    (owned : ∀ member ∈ chain, territory.owns member) :
    right.enumerated visited chain = left.enumerated visited chain := by
  induction chain generalizing visited with
  | nil => rfl
  | cons id rest inductionHypothesis =>
    obtain ⟨first, others⟩ := List.forall_mem_cons.mp owned
    rw [World.enumerated, World.enumerated, agrees.object id first, inductionHypothesis others]

end World.KeepsTo

namespace Territory

variable {id : ObjectId}

/-- The values that a search found belong to the territory. -/
def Finds (territory : Territory) (result : Search) : Prop :=
  ∀ holder property, result = .found holder property → territory.OwnsAll property.values

theorem sees_search (owned : territory.owns id) (key : Key) :
    territory.Sees (·.search id key) territory.Finds where
  agree keeps agrees := keeps.search_eq agrees owned
  met keeps _ _ found := keeps.searchWithin owned found

theorem sees_chain? (owned : territory.owns id) :
    territory.Sees (·.chain? id)
      fun found => ∀ chain, found = some chain → ∀ member ∈ chain, territory.owns member where
  agree keeps agrees := keeps.chain?_eq agrees owned
  met keeps _ found := keeps.chainWithin owned found

theorem sees_enumerated (visited : List Key) {chain : List ObjectId}
    (owned : ∀ member ∈ chain, territory.owns member) :
    territory.Sees (·.enumerated visited chain) fun _ => True where
  agree _ agrees := World.KeepsTo.enumerated_eq agrees owned
  met _ := trivial

end Territory

/-! ### Changes -/

/-- The change leaves what is foreign as it is, and makes of agreeing worlds agreeing worlds, in
which the territory is still kept to. -/
structure Territory.Confines (territory : Territory) (update : World → World) : Prop where
  keeps : ∀ {world : World}, world.KeepsTo territory → (update world).KeepsTo territory
  outside : ∀ {world : World}, world.KeepsTo territory →
    world.AgreesOutside territory (update world)
  within : ∀ {left right : World}, left.KeepsTo territory → left.AgreesWithin territory right →
    (update left).AgreesWithin territory (update right)

namespace Territory

variable {id : ObjectId} {realm : RealmId} {first second : World → World}

theorem Confines.comp (late : territory.Confines second) (early : territory.Confines first) :
    territory.Confines fun world => second (first world) where
  keeps keeps := late.keeps (early.keeps keeps)
  outside keeps := (early.outside keeps).trans (late.outside (early.keeps keeps))
  within keeps agrees := late.within (early.keeps keeps) (early.within keeps agrees)

/-- A change may depend on what is seen of the territory, and may not happen at all. -/
theorem Sees.confines {view : World → Option α} {goal : α → Prop}
    (sees : territory.Sees view fun found => ∀ value, found = some value → goal value)
    (update : World → α → World)
    (confines : ∀ value, goal value → territory.Confines (update · value)) :
    territory.Confines fun world => (view world).elim world (update world) := by
  refine ⟨fun {world} keeps => ?_, fun {world} keeps => ?_, fun {left right} keeps agrees => ?_⟩
  · cases found : view world with
    | none => exact keeps
    | some value => exact (confines value (sees.met keeps value found)).keeps keeps
  · cases found : view world with
    | none => exact .refl world
    | some value => exact (confines value (sees.met keeps value found)).outside keeps
  · rw [sees.agree keeps agrees]
    cases found : view left with
    | none => exact agrees
    | some value => exact (confines value (sees.met keeps value found)).within keeps agrees

/-- Only the objects of the territory may change, to ones that lead to nothing foreign. -/
theorem confines_modifyObject (owned : territory.owns id) {update : Object → Object}
    (within : ∀ object : Object, object.Within territory → (update object).Within territory) :
    territory.Confines (·.modifyObject id update) where
  keeps {world} keeps := by
    refine ⟨fun other inside => ?_, fun realm governed => ?_⟩
    · rcases World.object_modifyObject_cases world id update other with ⟨rfl, made⟩ | same
      · rw [made]
        exact within _ (keeps.object other inside)
      · rw [same]
        exact keeps.object other inside
    · rw [((World.agreesOn_modifyObject world id update).alike realm trivial).memory]
      exact keeps.memory realm governed
  outside {world} _ := (World.agreesOn_modifyObject world id update).mono
    (fun _ foreign same => foreign (same ▸ owned)) fun _ _ => trivial
  within {left right} _ agrees := by
    have apart : (left.modifyObject id update).AgreesOn
        (fun other => territory.owns other ∧ other ≠ id) territory.governs
        (right.modifyObject id update) :=
      (agrees.frame (World.agreesOn_modifyObject left id update)
        (World.agreesOn_modifyObject right id update)).mono
        (fun _ inside => inside) fun _ governed => ⟨governed, trivial⟩
    refine { apart with
      object := fun other inside => ?_
      has := fun other inside => ?_
      calls := agrees.calls }
    · by_cases changed : other = id
      · subst changed
        by_cases made : left.Has other
        · have madeRight := (agrees.has other inside).mpr made
          rw [World.object_modifyObject_self made, World.object_modifyObject_self madeRight,
            agrees.object other inside]
        · have missing := fun given => made ((agrees.has other inside).mp given)
          rw [World.object_modifyObject_of_not_has made,
            World.object_modifyObject_of_not_has missing, agrees.object other inside]
      · exact apart.object other ⟨inside, changed⟩
    · rw [World.has_modifyObject, World.has_modifyObject]
      exact agrees.has other inside

/-- The memory of a realm and its running joins may change, as long as what is remembered leads to
nothing foreign. -/
theorem confines_modifyRealm (governed : territory.governs realm)
    (joining : List ObjectId → List ObjectId) {remember : Memory → Memory}
    (within : ∀ memory : Memory, memory.Within territory → (remember memory).Within territory) :
    territory.Confines (·.modifyRealm realm fun region =>
      { region with joining := joining region.joining, memory := remember region.memory }) := by
  have alone (world : World) : world.AgreesOn (fun _ => True) (· ≠ realm)
      (world.modifyRealm realm fun region =>
        { region with joining := joining region.joining, memory := remember region.memory }) :=
    World.agreesOn_modifyRealm world realm fun _ => rfl
  refine ⟨fun {world} keeps => ⟨fun id owned => ?_, fun another governs => ?_⟩,
    fun {world} _ => (alone world).mono (fun _ _ => trivial) fun _ foreign same =>
      foreign (same ▸ governed), fun {left right} _ agrees => ?_⟩
  · rw [(alone world).object id trivial]
    exact keeps.object id owned
  · by_cases made : world.HasRealm realm
    · by_cases same : another = realm
      · subst same
        rw [World.realm_modifyRealm_self made]
        exact within _ (keeps.memory another governs)
      · rw [World.realm_modifyRealm_of_ne same]
        exact keeps.memory another governs
    · rw [World.modifyRealm_of_not_hasRealm made]
      exact keeps.memory another governs
  · have apart := agrees.frame (alone left) (alone right)
    by_cases made : left.HasRealm realm
    · have madeRight := (agrees.hasRealm realm).mpr made
      refine ⟨apart.count, fun id owned => apart.object id ⟨owned, trivial⟩,
        fun id owned => apart.has id ⟨owned, trivial⟩, agrees.calls, fun another governs => ?_⟩
      by_cases same : another = realm
      · subst same
        rw [World.realm_modifyRealm_self made, World.realm_modifyRealm_self madeRight]
        have alike := agrees.alike another governs
        exact ⟨alike.places, congrArg joining alike.joining, congrArg remember alike.memory⟩
      · exact apart.alike another ⟨governs, same⟩
    · have missing := fun given => made ((agrees.hasRealm realm).mp given)
      rw [World.modifyRealm_of_not_hasRealm made, World.modifyRealm_of_not_hasRealm missing]
      exact agrees

theorem confines_enterJoin (governed : territory.governs realm) (id : ObjectId) :
    territory.Confines (·.enterJoin realm id) :=
  confines_modifyRealm governed (id :: ·) fun _ within => within

theorem confines_leaveJoin (governed : territory.governs realm) :
    territory.Confines (·.leaveJoin realm) :=
  confines_modifyRealm governed List.tail fun _ within => within

theorem confines_store (governed : territory.governs realm) (name : String) {value : Value}
    (within : value.Within territory) : territory.Confines (·.store realm name value) :=
  confines_modifyRealm governed (fun joining => joining) fun _ remembered =>
    remembered.bind name within

/-- An object of the territory may be put back, if what it was led to nothing foreign. -/
theorem confines_restore {snapshot : Snapshot} (within : snapshot.Within territory) :
    territory.Confines (·.restore snapshot) :=
  confines_modifyObject within.target fun _ now => ⟨within.table, within.prototype, now.callable⟩

theorem confines_release (governed : territory.governs realm) (name : String) :
    territory.Confines (·.release realm name) := by
  have chosen (world : World) : world.release realm name =
      ((world.realm realm).memory.snapshots.get? name).elim world fun snapshot =>
        (world.modifySnapshots realm (·.erase name)).restore snapshot := by
    unfold World.release
    cases (world.realm realm).memory.snapshots.get? name <;> rfl
  have forgets : territory.Confines (·.modifySnapshots realm (·.erase name)) :=
    confines_modifyRealm governed (fun joining => joining) fun _ remembered =>
      remembered.forget name
  simp only [chosen]
  exact (sees_snapshot governed name).confines
    (fun world snapshot => (world.modifySnapshots realm (·.erase name)).restore snapshot)
    fun _ within => (confines_restore within).comp forgets

theorem confines_hold (governed : territory.governs realm) (name : String)
    (owned : territory.owns id) : territory.Confines (·.hold realm name id) := by
  have chosen (world : World) : world.hold realm name id =
      (world.capture? id).elim world fun snapshot =>
        (world.release realm name).modifySnapshots realm (·.insert name snapshot) := by
    unfold World.hold
    cases world.capture? id <;> rfl
  simp only [chosen]
  refine (sees_capture? owned).confines
    (fun world snapshot =>
      (world.release realm name).modifySnapshots realm (·.insert name snapshot))
    fun snapshot within => ?_
  have keeps : territory.Confines (·.modifySnapshots realm (·.insert name snapshot)) :=
    confines_modifyRealm governed (fun joining => joining) fun _ remembered =>
      remembered.keep name within
  exact keeps.comp (confines_release governed name)

/-- A call of a function of the territory is noted. -/
theorem confines_logged {call : Call} (owned : territory.owns call.callee) :
    territory.Confines (·.logged call) where
  keeps keeps := ⟨keeps.object, keeps.memory⟩
  outside {world} _ := (World.agreesOn_logged world call).mono
    (fun _ foreign same => foreign (same ▸ owned)) fun _ _ => trivial
  within _ agrees := { agrees with
    calls := fun id inside stage => by
      rw [World.callsOf_logged, World.callsOf_logged, agrees.calls id inside stage] }

end Territory

end EcmaCore
