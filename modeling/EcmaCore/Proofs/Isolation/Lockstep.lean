/-
This file follows one run from two worlds that agree on a territory. The run goes through
the same steps from both: what it looks at is the same, so it goes on in the same way, and
what it changes it changes alike. Neither world is changed outside the territory meanwhile.

A new object gets the next identity of its realm. Agreeing worlds have equally many objects
in each realm of the territory, so it is even the same identity. That it was foreign to
nobody is why the identities that are still to be given out are part of the territory.

Two runs in step are two trees that are walked at once, so what is said of them is shown by
induction on the walk; and since being in step obeys the rules of a confinement, every
program within the territory is in step with itself.
-/

import EcmaCore.Proofs.Confinement.Calls
import EcmaCore.Proofs.Run.Course

namespace EcmaCore

variable {α β : Type} {territory : Territory}

/-- The territory is whole: its realms were made, all that its realms will make belongs to it, and
it leads to nothing foreign. -/
structure World.Encloses (territory : Territory) (world : World) : Prop where
  keeps : world.KeepsTo territory
  made : ∀ realm, territory.governs realm → world.HasRealm realm
  next : ∀ id, territory.governs id.realm → ¬ world.Has id → territory.owns id

/-- The first world encloses the territory, and the second agrees with it on the territory. -/
structure World.Twins (territory : Territory) (left right : World) : Prop where
  encloses : left.Encloses territory
  agrees : left.AgreesWithin territory right

namespace World

variable {world left right : World} {realm : RealmId} {object : Object}

theorem Encloses.twins (encloses : world.Encloses territory) : world.Twins territory world :=
  ⟨encloses, .refl world⟩

/-- A world that agrees on a whole territory encloses it, too. -/
theorem Twins.encloses_right (twins : left.Twins territory right) : right.Encloses territory where
  keeps := twins.encloses.keeps.of_agreesWithin twins.agrees
  made realm governed := (twins.agrees.hasRealm realm).mpr (twins.encloses.made realm governed)
  next id governed missing := by
    have places := (twins.agrees.alike id.realm governed).places
    refine twins.encloses.next id governed fun given => missing ?_
    rw [Has, places]
    exact given

/-- A territory stays whole if nothing foreign changes. What was given out meanwhile was part of it
before. -/
theorem Encloses.of_agreesOutside {after : World} (encloses : world.Encloses territory)
    (outside : world.AgreesOutside territory after) (keeps : after.KeepsTo territory) :
    after.Encloses territory where
  keeps := keeps
  made realm governed := (outside.hasRealm realm).mpr (encloses.made realm governed)
  next id governed missing := by
    by_contra foreign
    have early : ¬ world.Has id := fun given => missing ((outside.has id foreign).mpr given)
    exact foreign (encloses.next id governed early)

/-! ### Confined changes -/

theorem Encloses.update {update : World → World} (confines : territory.Confines update)
    (encloses : world.Encloses territory) : (update world).Encloses territory :=
  encloses.of_agreesOutside (confines.outside encloses.keeps) (confines.keeps encloses.keeps)

theorem Twins.update {update : World → World} (confines : territory.Confines update)
    (twins : left.Twins territory right) : (update left).Twins territory (update right) :=
  ⟨twins.encloses.update confines, confines.within twins.encloses.keeps twins.agrees⟩

/-! ### New objects -/

section

variable (governed : territory.governs realm)
include governed

theorem Encloses.owns_nextId (encloses : world.Encloses territory) :
    territory.owns (world.nextId realm) :=
  encloses.next _ governed not_has_nextId

theorem Encloses.outside_add (encloses : world.Encloses territory) (object : Object) :
    world.AgreesOutside territory (world.add realm object) :=
  (agreesOn_add world realm object).mono
    (fun _ foreign same => foreign (same ▸ encloses.owns_nextId governed))
    fun _ foreign same => foreign (same ▸ governed)

theorem Encloses.add (encloses : world.Encloses territory) (within : object.Within territory) :
    (world.add realm object).Encloses territory := by
  refine encloses.of_agreesOutside (encloses.outside_add governed object)
    ⟨fun id owned => ?_, fun another governs => ?_⟩
  · rcases object_add_cases world realm object id with ⟨-, made⟩ | same
    · rwa [made]
    · rw [same]
      exact encloses.keeps.object id owned
  · have same : ((world.add realm object).realm another).memory = (world.realm another).memory := by
      refine view_modifyRealm Realm.memory ?_ another
      exact fun _ => rfl
    rw [same]
    exact encloses.keeps.memory another governs

theorem Twins.nextId (twins : left.Twins territory right) :
    right.nextId realm = left.nextId realm :=
  congrArg (ObjectId.mk realm) (twins.agrees.alike realm governed).places

theorem Twins.add (twins : left.Twins territory right) (within : object.Within territory) :
    (left.add realm object).Twins territory (right.add realm object) := by
  have madeLeft := twins.encloses.made realm governed
  have madeRight := twins.encloses_right.made realm governed
  have rightAlone := agreesOn_add right realm object
  rw [twins.nextId governed] at rightAlone
  have apart := twins.agrees.frame (agreesOn_add left realm object) rightAlone
  refine ⟨twins.encloses.add governed within, apart.count, fun id owned => ?_,
    fun id owned => ?_, twins.agrees.calls, fun another governs => ?_⟩
  · by_cases last : id = left.nextId realm
    · rw [last, object_add_nextId madeLeft, ← twins.nextId governed, object_add_nextId madeRight]
    · exact apart.object id ⟨owned, last⟩
  · by_cases last : id = left.nextId realm
    · have given := has_add_nextId madeRight object
      rw [twins.nextId governed] at given
      rw [last]
      exact iff_of_true given (has_add_nextId madeLeft object)
    · exact apart.has id ⟨owned, last⟩
  · by_cases same : another = realm
    · subst same
      have alike := twins.agrees.alike another governs
      rw [World.add, World.add, realm_modifyRealm_self madeLeft, realm_modifyRealm_self madeRight]
      refine ⟨?_, alike.joining, alike.memory⟩
      rw [Array.size_push, Array.size_push, alike.places]
    · exact apart.alike another ⟨governs, same⟩

end

end World

/-! ### Two runs in step -/

/-- Two runs go through the same steps from their worlds, and their values are the same and meet a
goal. The first world is changed within the territory only, and the two stay twins. -/
inductive Run.InStep (territory : Territory) (goal : α → Prop) :
    Run α → World → Run α → World → Prop
  | done {value : α} {left right : World} (met : goal value) :
      InStep territory goal (.done value) left (.done value) right
  | threw {error : Error} {left right : World} :
      InStep territory goal (.threw error) left (.threw error) right
  | cutOff {left right : World} : InStep territory goal .cutOff left .cutOff right
  | look {next nextRight : World → Run α} {left right : World}
      (rest : InStep territory goal (next left) left (nextRight right) right) :
      InStep territory goal (.look next) left (.look nextRight) right
  | change {update updateRight : World → World} {next nextRight : Unit → Run α}
      {left right : World} (outside : left.AgreesOutside territory (update left))
      (twins : (update left).Twins territory (updateRight right))
      (rest : InStep territory goal (next ()) (update left) (nextRight ()) (updateRight right)) :
      InStep territory goal (.change update next) left (.change updateRight nextRight) right

/-- The run is in step with itself from any twins. -/
def Run.Local (territory : Territory) (goal : α → Prop) (run : Run α) : Prop :=
  ∀ left right : World, left.Twins territory right → run.InStep territory goal left run right

namespace Run

variable {goal : α → Prop} {run runRight : Run α} {left right : World}

/-! ### The rules of a confinement -/

theorem InStep.bind {middle : α → Prop} {goal : β → Prop} {continuation : α → Run β}
    (first : run.InStep territory middle left runRight right)
    (twins : left.Twins territory right)
    (rest : ∀ value, middle value → (continuation value).Local territory goal) :
    (run >>= continuation).InStep territory goal left (runRight >>= continuation) right := by
  change (run.andThen continuation).InStep territory goal left (runRight.andThen continuation) right
  induction first with
  | done met => exact rest _ met _ _ twins
  | threw => exact .threw
  | cutOff => exact .cutOff
  | look _ inductionHypothesis => exact .look (inductionHypothesis twins)
  | change outside after _ inductionHypothesis =>
    exact .change outside after (inductionHypothesis after)

theorem InStep.weaken {weaker : α → Prop} (inStep : run.InStep territory goal left runRight right)
    (enough : ∀ value, goal value → weaker value) :
    run.InStep territory weaker left runRight right := by
  induction inStep with
  | done met => exact .done (enough _ met)
  | threw => exact .threw
  | cutOff => exact .cutOff
  | look _ inductionHypothesis => exact .look inductionHypothesis
  | change outside after _ inductionHypothesis => exact .change outside after inductionHypothesis

theorem InStep.attempt (inStep : run.InStep territory goal left runRight right) :
    run.attempt.InStep territory (fun reply => ∀ value, reply = .ok value → goal value) left
      runRight.attempt right := by
  induction inStep with
  | done met => exact .done fun _ same => Except.ok.inj same ▸ met
  | threw => exact .done nofun
  | cutOff => exact .cutOff
  | look _ inductionHypothesis => exact .look inductionHypothesis
  | change outside after _ inductionHypothesis => exact .change outside after inductionHypothesis

theorem InStep.followedBy {last : World → World}
    (inStep : run.InStep territory goal left runRight right)
    (confines : territory.Confines last) (twins : left.Twins territory right) :
    (run.followedBy last).InStep territory goal left (runRight.followedBy last) right := by
  induction inStep with
  | done met =>
    exact .change (confines.outside twins.encloses.keeps) (twins.update confines) (.done met)
  | threw => exact .change (confines.outside twins.encloses.keeps) (twins.update confines) .threw
  | cutOff => exact .cutOff
  | look _ inductionHypothesis => exact .look (inductionHypothesis twins)
  | change outside after _ inductionHypothesis =>
    exact .change outside after (inductionHypothesis after)

theorem local_read {view : World → α} (sees : territory.Sees view goal) :
    (read view).Local territory goal := by
  intro left right twins
  refine .look ?_
  rw [sees.agree twins.encloses.keeps twins.agrees]
  exact .done (sees.met twins.encloses.keeps)

theorem local_modify {update : World → World} (confines : territory.Confines update) :
    (modify update).Local territory fun _ => True := fun _ _ twins =>
  .change (confines.outside twins.encloses.keeps) (twins.update confines) (.done trivial)

theorem local_allocate {realm : RealmId} {object : Object} (governed : territory.governs realm)
    (within : object.Within territory) :
    (allocate realm object).Local territory territory.owns := by
  intro left right twins
  refine .look (.change (twins.encloses.outside_add governed object) (twins.add governed within) ?_)
  show InStep _ _ (.done (left.nextId realm)) _ (.done (right.nextId realm)) _
  rw [twins.nextId governed]
  exact .done (twins.encloses.owns_nextId governed)

theorem local_joinOnce {realm : RealmId} {id : ObjectId} {run : Run Units}
    (governed : territory.governs realm) (inside : run.Local territory fun _ => True) :
    (joinOnce realm id run).Local territory fun _ => True := by
  intro left right twins
  have enters : (modify (·.enterJoin realm id)).Local territory fun _ => True :=
    local_modify (Territory.confines_enterJoin governed id)
  refine (local_read (Territory.sees_joining governed) left right twins).bind twins
    fun joining _ left right twins => ?_
  split
  · exact .done trivial
  · exact (enters left right twins).bind twins fun _ _ left right twins =>
      (inside left right twins).followedBy (Territory.confines_leaveJoin governed) twins

end Run

/-- To be in step with itself is a judgement on runs that have only what belongs to the
territory. -/
def Territory.inStep (territory : Territory) : Judgement territory where
  judges := Run.Local territory
  done met _ _ _ := .done met
  throw _ _ _ _ := .threw
  cutOff _ _ _ := .cutOff
  bind first rest left right twins := (first left right twins).bind twins rest
  weaken confined enough left right twins := (confined left right twins).weaken enough
  attempt confined left right twins := (confined left right twins).attempt
  followedBy confined confines _ left right twins :=
    (confined left right twins).followedBy confines twins
  read := Run.local_read
  modify confines _ := Run.local_modify confines
  joinOnce := Run.local_joinOnce
  allocate := Run.local_allocate

/-- Calls of functions of the territory are noted in step. -/
def Territory.lockstep (territory : Territory) : Confinement territory :=
  territory.inStep.confinement fun owned => Run.local_modify (confines_logged owned)

/-! ### Where runs in step end -/

/-- Two runs end alike: in the same value or with the same error, in twins, or neither ends. -/
inductive Outcome.Alike (territory : Territory) : Outcome α → Outcome α → Prop
  | done {left right : World} (value : α) (twins : left.Twins territory right) :
      Alike territory (.done value left) (.done value right)
  | threw {left right : World} (error : Error) (twins : left.Twins territory right) :
      Alike territory (.threw error left) (.threw error right)
  | cutOff : Alike territory .cutOff .cutOff

namespace Run.InStep

variable {goal : α → Prop} {run runRight : Run α} {left right : World}
  (inStep : run.InStep territory goal left runRight right)
include inStep

theorem outcome (twins : left.Twins territory right) :
    (run.outcome left).Alike territory (runRight.outcome right) := by
  induction inStep with
  | done _ => exact .done _ twins
  | threw => exact .threw _ twins
  | cutOff => exact .cutOff
  | look _ inductionHypothesis => exact inductionHypothesis twins
  | change _ after _ inductionHypothesis => exact inductionHypothesis after

/-- On its way the run changes nothing outside the territory, and the territory stays whole. -/
theorem of_mem (encloses : left.Encloses territory) {reached : World}
    (member : reached ∈ run.worlds left) :
    left.AgreesOutside territory reached ∧ reached.Encloses territory := by
  induction inStep with
  | look _ inductionHypothesis => exact inductionHypothesis encloses member
  | change outside after _ inductionHypothesis =>
    rcases List.mem_cons.mp member with rfl | later
    · exact ⟨.refl _, encloses⟩
    · obtain ⟨further, whole⟩ := inductionHypothesis after.encloses later
      exact ⟨outside.trans further, whole⟩
  | _ =>
    obtain rfl := List.mem_singleton.mp member
    exact ⟨.refl _, encloses⟩

end Run.InStep

end EcmaCore
