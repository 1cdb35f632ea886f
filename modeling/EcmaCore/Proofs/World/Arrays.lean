/-
This file proves that arrays stay well formed over whole runs. An array may be put back
to a state that a snapshot holds, so what is kept is more than the array: it is well
formed now, and so it would be after putting back any snapshot of it that is held.

No operation whatsoever can break an array that is in order in this sense, not even a
mixed descriptor or a script that changes the array while its length is converted. And
every array that is made on the way is in order from the start, unless a program makes
an object of the class of arrays by hand, which has no length.
-/

import EcmaCore.Proofs.Discipline.Calls
import EcmaCore.Proofs.Object.Arrays
import EcmaCore.Proofs.World.Fresh

namespace EcmaCore

namespace World

/-- The array is well formed, and it would be after putting back any snapshot of it. -/
structure SoundArray (world : World) (id : ObjectId) : Prop where
  has : world.Has id
  now : (world.object id).WellFormedArray
  held : ∀ realm name snapshot, world.Holds realm name snapshot → snapshot.target = id →
    (snapshot.onto (world.object id)).WellFormedArray

variable {before after world : World} {id target : ObjectId} {realm : RealmId} {name : String}
  {snapshot : Snapshot}

/-! ### Snapshots that are held -/

theorem SameSnapshots.holds (same : before.SameSnapshots after) :
    after.Holds realm name snapshot ↔ before.Holds realm name snapshot := by
  rw [Holds, same]
  rfl

theorem sameSnapshots_modifyObject (world : World) (id : ObjectId) (update : Object → Object) :
    world.SameSnapshots (world.modifyObject id update) :=
  view_modifyRealm (fun region => region.memory.snapshots) fun _ => rfl

theorem sameSnapshots_add (world : World) (realm : RealmId) (object : Object) :
    world.SameSnapshots (world.add realm object) :=
  view_modifyRealm (fun region => region.memory.snapshots) fun _ => rfl

/-- A realm's own snapshots change as asked, and those of other realms stay. -/
theorem holds_modifySnapshots {change : Table String Snapshot → Table String Snapshot}
    {another : RealmId} (held : (world.modifySnapshots realm change).Holds another name snapshot) :
    world.Holds another name snapshot ∨
      another = realm ∧
        (change (world.realm realm).memory.snapshots).get? name = some snapshot := by
  by_cases made : world.HasRealm realm
  · by_cases same : another = realm
    · subst same
      rw [Holds, modifySnapshots, realm_modifyRealm_self made] at held
      exact Or.inr ⟨rfl, held⟩
    · rw [Holds, modifySnapshots, realm_modifyRealm_of_ne same] at held
      exact Or.inl held
  · rw [modifySnapshots, modifyRealm_of_not_hasRealm made] at held
    exact Or.inl held

theorem holds_of_holds_erase {another : RealmId} {asked : String}
    (held : (world.modifySnapshots realm (·.erase asked)).Holds another name snapshot) :
    world.Holds another name snapshot := by
  rcases holds_modifySnapshots held with still | ⟨rfl, found⟩
  · exact still
  · by_cases same : name = asked
    · rw [same, Table.get?_erase_self] at found
      cases found
    · rwa [Table.get?_erase_of_ne _ same] at found

theorem holds_of_holds_insert {another : RealmId} {asked : String} {taken : Snapshot}
    (held : (world.modifySnapshots realm (·.insert asked taken)).Holds another name snapshot) :
    world.Holds another name snapshot ∨ snapshot = taken := by
  rcases holds_modifySnapshots held with still | ⟨rfl, found⟩
  · exact Or.inl still
  · by_cases same : name = asked
    · rw [same, Table.get?_insert_self] at found
      exact Or.inr (Option.some.inj found).symm
    · rw [Table.get?_insert_of_ne _ same] at found
      exact Or.inl found

/-- A snapshot has the own properties that its object had when it was taken. -/
theorem capture?_eq_some (captured : world.capture? id = some snapshot) :
    world.Has id ∧ snapshot.target = id ∧
      ∀ object key, (snapshot.onto object).own? key = (world.object id).own? key := by
  rw [capture?] at captured
  split at captured
  · rename_i made
    cases captured
    exact ⟨made, rfl, fun _ _ => rfl⟩
  · cases captured

/-! ### What keeps an array in order -/

theorem SoundArray.of_sameObjects (sound : before.SoundArray id) (same : before.SameObjects after)
    (fewer : ∀ realm name snapshot, after.Holds realm name snapshot →
      before.Holds realm name snapshot) : after.SoundArray id where
  has := (same.has id).mpr sound.has
  now := by
    rw [same.object]
    exact sound.now
  held realm name snapshot held isTarget := by
    rw [same.object]
    exact sound.held realm name snapshot (fewer realm name snapshot held) isTarget

theorem SoundArray.add (sound : world.SoundArray id) (realm : RealmId) (object : Object) :
    (world.add realm object).SoundArray id := by
  have same : (world.add realm object).object id = world.object id :=
    object_add_of_ne sound.has.ne_nextId object
  refine ⟨sound.has.add realm object, same ▸ sound.now,
    fun another name snapshot held isTarget => ?_⟩
  rw [same]
  exact sound.held another name snapshot
    ((sameSnapshots_add world realm object).holds.mp held) isTarget

/-- A change of an object keeps the array in order if it is not this one, or leaves it well
formed. -/
theorem SoundArray.modifyObject (sound : world.SoundArray id) {update : Object → Object}
    (keeps : target = id → (update (world.object id)).WellFormedArray) :
    (world.modifyObject target update).SoundArray id := by
  have fewer {realm name snapshot}
      (held : (world.modifyObject target update).Holds realm name snapshot) :
      world.Holds realm name snapshot :=
    (sameSnapshots_modifyObject world target update).holds.mp held
  refine ⟨(has_modifyObject update id).mpr sound.has, ?_,
    fun realm name snapshot held isTarget => ?_⟩
  · by_cases changed : target = id
    · rw [changed, object_modifyObject_self sound.has]
      exact keeps changed
    · rw [object_modifyObject_of_ne (Ne.symm changed)]
      exact sound.now
  · have putBack := sound.held realm name snapshot (fewer held) isTarget
    by_cases changed : target = id
    · rw [changed, object_modifyObject_self sound.has]
      exact putBack.congr (keeps changed).isArray fun _ => rfl
    · rw [object_modifyObject_of_ne (Ne.symm changed)]
      exact putBack

theorem SoundArray.restore (sound : world.SoundArray id)
    (putBack : snapshot.target = id → (snapshot.onto (world.object id)).WellFormedArray) :
    (world.restore snapshot).SoundArray id :=
  sound.modifyObject putBack

theorem SoundArray.release (sound : world.SoundArray id) (realm : RealmId) (name : String) :
    (world.release realm name).SoundArray id := by
  unfold World.release
  split
  · rename_i snapshot found
    have objects := sameObjects_modifySnapshots world realm (·.erase name)
    refine (sound.of_sameObjects objects fun _ _ _ => holds_of_holds_erase).restore ?_
    intro isTarget
    rw [objects.object]
    exact sound.held realm name snapshot found isTarget
  · exact sound

/-- A snapshot that was taken of a well-formed array puts it back well formed. -/
theorem wellFormedArray_onto (captured : before.capture? target = some snapshot)
    (wellFormedThen : (before.object target).WellFormedArray) {object : Object}
    (array : object.isArray = true) : (snapshot.onto object).WellFormedArray :=
  wellFormedThen.congr array ((capture?_eq_some captured).2.2 object)

theorem SoundArray.hold (sound : world.SoundArray id) (realm : RealmId) (name : String)
    (target : ObjectId) : (world.hold realm name target).SoundArray id := by
  unfold World.hold
  split
  · rename_i taken captured
    have released := sound.release realm name
    have objects := sameObjects_modifySnapshots (world.release realm name) realm
      (·.insert name taken)
    refine ⟨(objects.has id).mpr released.has, by rw [objects.object]; exact released.now, ?_⟩
    intro another asked snapshot held isTarget
    rw [objects.object]
    rcases holds_of_holds_insert held with still | rfl
    · exact released.held another asked snapshot still isTarget
    · have same : target = id := (capture?_eq_some captured).2.1.symm.trans isTarget
      subst same
      exact wellFormedArray_onto captured sound.now released.now.isArray
  · exact sound

end World

/-! ### Arrays that were there -/

/-- One array in order, as a rule. -/
def oldArrayRule (id : ObjectId) : Rule where
  holds world := world.SoundArray id
  allows _ _ := True
  refl _ := trivial
  trans _ _ := trivial

theorem oldArrayRule_moves {before after : World} {id : ObjectId} (sound : after.SoundArray id) :
    (oldArrayRule id).Moves before after :=
  ⟨sound, trivial⟩

/-- Whatever a program does, an array in order stays so. -/
def oldArrayDiscipline (id : ObjectId) : Discipline where
  rule := oldArrayRule id
  permits _ _ := True
  asked _ _ := True
  asked_of_lawful _ := trivial
  asked_of_define _ := trivial
  asked_of_defineOrThrow _ := trivial
  asked_of_allows _ _ := trivial
  quiet sound objects snapshots _ _ :=
    oldArrayRule_moves (sound.of_sameObjects objects fun _ _ _ => snapshots.holds.mp)
  add sound _ := oldArrayRule_moves (sound.add _ _)
  step sound step :=
    oldArrayRule_moves (sound.modifyObject fun same =>
      step.wellFormedArray (same.symm ▸ sound.now))
  make _ sound := oldArrayRule_moves (sound.add _ _)
  hold _ sound := oldArrayRule_moves (sound.hold _ _ _)
  release _ sound := oldArrayRule_moves (sound.release _ _)
  setExtensible _ sound :=
    oldArrayRule_moves (sound.modifyObject fun _ => sound.now.congr sound.now.isArray fun _ => rfl)
  setPrototype _ sound :=
    oldArrayRule_moves (sound.modifyObject fun _ => sound.now.congr sound.now.isArray fun _ => rfl)
  restore _ soundThen sound _ captured := by
    refine oldArrayRule_moves (sound.restore fun isTarget => ?_)
    have same := (World.capture?_eq_some captured).2.1.symm.trans isTarget
    subst same
    exact World.wellFormedArray_onto captured soundThen.now sound.now.isArray

/-! ### Arrays that are new -/

/-- The operations that make no object of the class of arrays without its length. -/
def MakesNoBareArray : Permission
  | _, .makeObject _ kind => kind ≠ .array
  | _, _ => True

/-- Realms hold snapshots only of objects that are there. -/
def World.SnapshotsExist (world : World) : Prop :=
  ∀ realm name snapshot, world.Holds realm name snapshot → world.Has snapshot.target

/-- Every array that is not in an earlier world is in order. -/
def World.NewArraysSound (start world : World) : Prop :=
  ∀ id, world.Has id → ¬ start.Has id → (world.object id).isArray = true → world.SoundArray id

namespace World

variable {start before after world : World} {id target : ObjectId} {realm : RealmId}
  {name : String} {snapshot : Snapshot}

theorem has_release (realm : RealmId) (name : String) :
    (world.release realm name).Has id ↔ world.Has id := by
  unfold release
  split
  · rw [restore, has_modifyObject, (sameObjects_modifySnapshots world realm _).has]
  · exact Iff.rfl

theorem has_hold (realm : RealmId) (name : String) (target : ObjectId) :
    (world.hold realm name target).Has id ↔ world.Has id := by
  unfold hold
  split
  · rw [(sameObjects_modifySnapshots _ realm _).has, has_release]
  · exact Iff.rfl

theorem holds_of_holds_release {another : RealmId} {asked : String}
    (held : (world.release realm asked).Holds another name snapshot) :
    world.Holds another name snapshot := by
  rw [release] at held
  split at held
  · exact holds_of_holds_erase ((sameSnapshots_modifyObject _ _ _).holds.mp held)
  · exact held

/-- What is held after a snapshot was taken was held before or is that snapshot. -/
theorem holds_of_holds_hold {another : RealmId} {asked : String}
    (held : (world.hold realm asked target).Holds another name snapshot) :
    world.Holds another name snapshot ∨ world.capture? target = some snapshot := by
  rw [hold] at held
  split at held
  · rename_i taken captured
    rcases holds_of_holds_insert held with still | rfl
    · exact Or.inl (holds_of_holds_release still)
    · exact Or.inr captured
  · exact Or.inl held

end World

/-- Every array made since the start is in order, as a rule. -/
def newArrayRule (start : World) : Rule where
  holds world := world.SnapshotsExist ∧ start.NewArraysSound world
  allows := World.SameKinds
  refl _ _ made := ⟨made, rfl⟩
  trans := World.SameKinds.trans

/-- A change in place keeps the rule if it keeps every single array in order that is there. -/
theorem newArrayRule_moves {start before after : World} (holds : (newArrayRule start).holds before)
    (has : ∀ id, after.Has id → before.Has id) (kinds : before.SameKinds after)
    (fewer : ∀ realm name snapshot, after.Holds realm name snapshot →
      before.Has snapshot.target)
    (sound : ∀ id, ¬ start.Has id → before.SoundArray id → after.SoundArray id) :
    (newArrayRule start).Moves before after := by
  refine ⟨⟨fun realm name snapshot held => (kinds _ (fewer realm name snapshot held)).1, ?_⟩, kinds⟩
  intro id madeAfter new array
  have made := has id madeAfter
  rw [Object.isArray, (kinds id made).2] at array
  exact sound id new (holds.2 id made new array)

/-- A new object keeps the rule if it is no array or a well-formed one. -/
theorem newArrayRule_add {start world : World} (holds : (newArrayRule start).holds world)
    (realm : RealmId) {object : Object}
    (wellFormed : object.isArray = true → object.WellFormedArray) :
    (newArrayRule start).Moves world (world.add realm object) := by
  obtain ⟨snapshots, sound⟩ := holds
  refine ⟨⟨fun another name snapshot held => ?_, fun id made new array => ?_⟩,
    World.sameKinds_add world realm object⟩
  · exact (snapshots another name snapshot
      ((World.sameSnapshots_add world realm object).holds.mp held)).add realm object
  · by_cases last : id = world.nextId realm
    · subst last
      by_cases region : world.HasRealm realm
      · rw [World.object_add_nextId region] at array
        refine ⟨made, by rw [World.object_add_nextId region]; exact wellFormed array, ?_⟩
        intro another name snapshot held isTarget
        have there := snapshots another name snapshot
          ((World.sameSnapshots_add world realm object).holds.mp held)
        rw [isTarget] at there
        exact absurd there World.not_has_nextId
      · rw [World.add, World.modifyRealm_of_not_hasRealm region] at made
        exact absurd made World.not_has_nextId
    · have there := World.has_of_has_add made last
      rw [World.object_add_of_ne last] at array
      exact (sound id there new array).add realm object

/-- A change of one object in place keeps the rule if it keeps the class and, of an array, the good
order. -/
theorem newArrayRule_modifyObject {start world : World} (holds : (newArrayRule start).holds world)
    (target : ObjectId) {update : Object → Object}
    (kind : (update (world.object target)).kind = (world.object target).kind)
    (keeps : ¬ start.Has target → world.SoundArray target →
      (update (world.object target)).WellFormedArray) :
    (newArrayRule start).Moves world (world.modifyObject target update) := by
  refine newArrayRule_moves holds (fun id => (World.has_modifyObject update id).mp)
    (World.sameKinds_modifyObject kind) ?_ ?_
  · intro realm name snapshot held
    exact holds.1 realm name snapshot
      ((World.sameSnapshots_modifyObject world target update).holds.mp held)
  · intro id new sound
    refine sound.modifyObject fun same => ?_
    subst same
    exact keeps new sound

/-- The engine's own new objects are no arrays or well-formed ones. -/
theorem Object.Newborn.wellFormedArray {realm : RealmId} {object : Object}
    (newborn : object.Newborn realm) (array : object.isArray = true) : object.WellFormedArray := by
  cases newborn with
  | plain => cases array
  | string units =>
    rw [Object.ofString, isArray, (sameNature_putAll _ _).kind] at array
    cases array
  | array => exact wellFormedArray_new _
  | function name arity behaviour => cases array

/-- Whatever a program does but make bare arrays, every array made since the start is in order. -/
def newArrayDiscipline (start : World) : Discipline where
  rule := newArrayRule start
  permits := MakesNoBareArray
  asked _ _ := True
  asked_of_lawful _ := trivial
  asked_of_define _ := trivial
  asked_of_defineOrThrow _ := trivial
  asked_of_allows _ _ := trivial
  quiet holds objects snapshots _ _ :=
    newArrayRule_moves holds (fun id => (objects.has id).mp) (.of_sameObjects objects)
      (fun realm name snapshot held => holds.1 realm name snapshot (snapshots.holds.mp held))
      fun _ _ sound => sound.of_sameObjects objects fun _ _ _ => snapshots.holds.mp
  add holds newborn := newArrayRule_add holds _ newborn.wellFormedArray
  step holds step :=
    newArrayRule_modifyObject holds _ step.sameNature.kind fun _ sound =>
      step.wellFormedArray sound.now
  make permitted holds :=
    newArrayRule_add holds _ fun array => absurd (beq_iff_eq.mp array) permitted
  hold _ holds := by
    refine newArrayRule_moves holds (fun id => (World.has_hold _ _ _).mp)
      (World.sameKinds_hold _ _ _ _) (fun realm name snapshot held => ?_)
      fun _ _ sound => sound.hold _ _ _
    rcases World.holds_of_holds_hold held with still | captured
    · exact holds.1 realm name snapshot still
    · obtain ⟨made, isTarget, _⟩ := World.capture?_eq_some captured
      exact isTarget ▸ made
  release _ holds :=
    newArrayRule_moves holds (fun id => (World.has_release _ _).mp) (World.sameKinds_release _ _ _)
      (fun realm name snapshot held =>
        holds.1 realm name snapshot (World.holds_of_holds_release held))
      fun _ _ sound => sound.release _ _
  setExtensible _ holds :=
    newArrayRule_modifyObject holds _ rfl fun _ sound =>
      sound.now.congr sound.now.isArray fun _ => rfl
  setPrototype _ holds :=
    newArrayRule_modifyObject holds _ rfl fun _ sound =>
      sound.now.congr sound.now.isArray fun _ => rfl
  restore _ holdsThen holds since captured := by
    obtain ⟨made, isTarget, _⟩ := World.capture?_eq_some captured
    subst isTarget
    refine newArrayRule_modifyObject holds _ rfl fun new sound => ?_
    have array := sound.now.isArray
    rw [Object.isArray, (since _ made).2] at array
    exact World.wellFormedArray_onto captured (holdsThen.2 _ made new array).now sound.now.isArray

/-! ### Whole runs -/

/-- The prototype of arrays is an array itself, without elements. -/
theorem wellFormedArray_arrayPrototype (realm : RealmId) :
    (Intrinsic.arrayPrototype.object realm).WellFormedArray := by
  have bare := Object.wellFormedArray_new (some (Intrinsic.objectPrototype.id realm))
  have link : Key.text "constructor" ≠ .length ∧ (Key.text "constructor").arrayIndex? = none := by
    decide
  have map : Key.text "map" ≠ .length ∧ (Key.text "map").arrayIndex? = none := by decide
  have join : Key.text "join" ≠ .length ∧ (Key.text "join").arrayIndex? = none := by decide
  have text : Key.text "toString" ≠ .length ∧ (Key.text "toString").arrayIndex? = none := by decide
  exact (((bare.put link.1 link.2 _).put map.1 map.2 _).put join.1 join.2 _).put text.1 text.2 _

theorem World.soundArray_fresh {count : Nat} {realm : RealmId} (made : realm < count) :
    (World.fresh count).SoundArray (Intrinsic.arrayPrototype.id realm) := by
  have region : (World.fresh count).realm realm = Realm.initial realm := by
    rw [World.realm_fresh, if_pos made]
  have object := World.object_fresh_intrinsic made .arrayPrototype
  refine ⟨?_, object ▸ wellFormedArray_arrayPrototype realm, fun another name snapshot held => ?_⟩
  · show Intrinsic.all.idxOf .arrayPrototype < ((World.fresh count).realm realm).objects.size
    rw [region, Realm.initial, List.size_toArray, List.length_map]
    decide
  · exact absurd held (World.not_holds_fresh another name snapshot)

/-- The array prototype of a new realm is a well-formed array. Over the run of any program, with all
calls that it makes and all scripts that these enter again, an array that was in order at the start
is so at every point. And if no bare array is made by hand, every array that is made on the way is
in order at every point, too. -/
theorem Program.arrays_wellFormed :
    (∀ count realm, realm < count →
      (World.fresh count).SoundArray (Intrinsic.arrayPrototype.id realm)) ∧
    (∀ (program : Program) (world : World) (depth : Nat) (id : ObjectId), world.SoundArray id →
      ∀ reached ∈ (program.run (callWithin depth)).worlds world, reached.SoundArray id) ∧
    (∀ (program : Program) (world : World) (depth : Nat), program.Obeys MakesNoBareArray →
      world.HostsObey MakesNoBareArray → world.SnapshotsExist →
      ∀ reached ∈ (program.run (callWithin depth)).worlds world, ∀ id, reached.Has id →
        ¬ world.Has id → (reached.object id).isArray = true → reached.SoundArray id) := by
  refine ⟨fun count realm made => World.soundArray_fresh made, ?_, ?_⟩
  · intro program world depth id sound reached member
    have follows := Program.follows (oldArrayDiscipline id) program.obeys_anything
      world.hostsObey_anything sound depth
    exact (follows.holds_of_mem ⟨sound, world.hostsObey_anything⟩ member).1
  · intro program world depth obeys hosts snapshots reached member id made new array
    have start : (newArrayRule world).holds world :=
      ⟨snapshots, fun id made new => absurd made new⟩
    have follows := Program.follows (newArrayDiscipline world) obeys hosts start depth
    exact (follows.holds_of_mem ⟨start, hosts⟩ member).1.2 id made new array

/-- An array is filled and emptied again in a new realm. -/
theorem Program.arrays_wellFormed_in_new_realm :
    ∀ reached ∈ ((Program.perform 0 (.arrayOf [.null, .null]) fun
        | .ok id => .perform 0 (.set id .length (.number .zero)) fun _ => .finish (.object id)
        | .error error => .raise error).run (callWithin 1)).worlds (World.fresh 1),
      reached.SoundArray (Intrinsic.arrayPrototype.id 0) ∧
        ∀ id, reached.Has id → ¬ (World.fresh 1).Has id → (reached.object id).isArray = true →
          reached.SoundArray id := by
  intro reached member
  refine ⟨Program.arrays_wellFormed.2.1 _ _ 1 _ (Program.arrays_wellFormed.1 1 0 Nat.zero_lt_one)
      reached member,
    Program.arrays_wellFormed.2.2 _ _ 1 ?_ (World.hostsObey_fresh _ 1) ?_ reached member⟩
  · refine ⟨trivial, fun reply => ?_⟩
    cases reply with
    | ok id => exact ⟨trivial, fun _ => trivial⟩
    | error error => exact trivial
  · exact fun realm name snapshot held => absurd held (World.not_holds_fresh realm name snapshot)

end EcmaCore
