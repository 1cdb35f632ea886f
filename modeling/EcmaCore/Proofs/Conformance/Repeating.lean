/-
This file puts the mapping check together. In a realm that nobody has tampered with the
verdict is a pass. On the way the check changes one object that was there before, the array
prototype, and that is put back. What it leaves behind is a few new objects and some
entries in the log of calls. So a realm with its intrinsics as they were made is still one
afterwards, and the check may be run as often as one likes.

The verdict depends on the log, in which calls of the setter are counted. It names only
functions that are there, whatever programs have done before, so none of the entries from
before the check can be one of the new setter.
-/

import EcmaCore.Proofs.Conformance.Doubling
import EcmaCore.Proofs.Conformance.Restoring
import EcmaCore.Proofs.World.Joins

namespace EcmaCore

/-! ### The whole check -/

/-- Of a function that no note names, no call has come to any stage. -/
theorem World.callsOf_eq_zero {world : World} {stage : Stage} {id : ObjectId}
    (uncalled : ∀ call ∈ world.log, call.callee ≠ id) : world.callsOf stage (.object id) = 0 := by
  refine List.countP_eq_zero.mpr fun call member same => ?_
  have equal : Value.object call.callee = .object id :=
    beq_iff_eq.mp (Bool.and_eq_true_iff.mp same).2
  exact uncalled call (Array.mem_toList_iff.mp member) (Value.object.inj equal)

/-- The numbers that the check maps. -/
def mappedNumbers : List Number := [.ofNat 1, .ofNat 2, .ofNat 3]

section

variable {realm : RealmId} {world : World}

/-- In a realm as it was made, the result is judged to be right, and of the old objects none but the
array prototype is changed. -/
theorem World.Original.outcome_judgedMapping (original : world.Original realm) {source : ObjectId}
    (hasSource : world.Has source) (apart : source ≠ Intrinsic.arrayPrototype.id realm)
    (array : (world.object source).IsArrayOf realm (mappedNumbers.map .number)) (depth : Nat)
    (warns : Bool) :
    ∃ getter setter double after,
      (judgedMapping (callWithin (depth + 2)) realm warns source).outcome world =
        .done .passed after ∧
      after.object (Intrinsic.arrayPrototype.id realm) = plantedPrototype realm getter setter ∧
      world.Spends [Intrinsic.arrayPrototype.id realm]
        [(Intrinsic.function .objectDefineProperty).id realm,
          (Intrinsic.function .arrayMap).id realm, double] after ∧ after.Has double := by
  obtain ⟨getter, setter, first, planting, planted, spendsFirst, newSetter, hasSetter⟩ :=
    original.outcome_plantAccessor (depth + 1) warns
  obtain ⟨double, second, plantedDouble, spendsSecond, newDouble, hasDouble, doubles⟩ :=
    outcome_plantProbe (spendsFirst.hasRealm realm original.hasRealm) "" 3 .double
  -- What the check goes on with is as it was: only the array prototype has been changed.
  have spends : world.Spends [Intrinsic.arrayPrototype.id realm]
      [(Intrinsic.function .objectDefineProperty).id realm] second :=
    spendsFirst.trans (spendsSecond.mono (List.nil_subset _) (List.nil_subset _))
  have kept (which : Intrinsic) (other : which ≠ .arrayPrototype) :
      second.object (which.id realm) = which.object realm := by
    have apart : which.id realm ∉ [Intrinsic.arrayPrototype.id realm] := fun member =>
      other (Intrinsic.id_injective realm (List.mem_singleton.mp member))
    rw [spends.object _ (original.has which) apart, original.object]
  have plantedSecond := planted
  rw [← spendsSecond.object _ (spendsFirst.has _ (original.has .arrayPrototype)) nofun]
    at plantedSecond
  have arraySecond := array
  rw [← spends.object source hasSource fun member => apart (List.mem_singleton.mp member)]
    at arraySecond
  obtain ⟨result, after, mapped, spendsThird, -, -, shape⟩ := outcome_invoke_map
    (spends.hasRealm realm original.hasRealm) (spends.has _ hasSource) arraySecond
    (by rw [doubles]; rfl) plantedSecond (kept (.function .arrayMap) nofun) (by decide) depth
  have plantedThird := plantedSecond
  rw [← spendsThird.object _ (spends.has _ (original.has .arrayPrototype)) nofun] at plantedThird
  have arrayThird := arraySecond
  rw [← spendsThird.object source (spends.has _ hasSource) nofun] at arrayThird
  have baseThird := kept .objectPrototype nofun
  rw [← spendsThird.object _ (spends.has _ (original.has .objectPrototype)) nofun] at baseThird
  have spendsAll : world.Spends [Intrinsic.arrayPrototype.id realm]
      [(Intrinsic.function .objectDefineProperty).id realm,
        (Intrinsic.function .arrayMap).id realm, double] after :=
    (spends.mono (List.Subset.refl _) (by simp)).trans
      (spendsThird.mono (List.nil_subset _) (by simp))
  -- The setter is newer than all functions that were called but the callback, which is newer.
  have uncalled : ∀ call ∈ after.log, call.callee ≠ setter := by
    rintro call member rfl
    rcases spendsAll.log call member with old | new
    · exact newSetter (original.logged call old)
    · simp only [List.mem_cons, List.not_mem_nil, or_false] at new
      rcases new with same | same | same
      · exact newSetter (same ▸ original.has _)
      · exact newSetter (same ▸ original.has _)
      · exact newDouble (same ▸ hasSetter)
  have judged := outcome_judgeMapped (callWithin (depth + 2)) arrayThird shape
    (by decide +kernel) nofun (by decide) plantedThird baseThird (World.callsOf_eq_zero uncalled)
  refine ⟨getter, setter, double, after, ?_, plantedThird, spendsAll, spendsThird.has _ hasDouble⟩
  rw [judgedMapping, Run.outcome_bind_of_done planting, Run.outcome_bind_of_done plantedDouble,
    Run.outcome_bind_of_done mapped, judged]

/-- What was planted is gone when the prototype is put back. -/
theorem onto_plantedPrototype {snapshot : Snapshot} {getter setter : ObjectId}
    (original : world.Original realm)
    (taken : snapshot = world.snapshotOf (Intrinsic.arrayPrototype.id realm)) :
    snapshot.onto (plantedPrototype realm getter setter) =
      Intrinsic.arrayPrototype.object realm := by
  rw [taken, World.snapshotOf, original.object]
  rfl

/-- The check passes, and it leaves the realm as it was made. -/
theorem World.Original.outcome_checkMap (original : world.Original realm) (depth : Nat)
    (warns : Bool) :
    ∃ after, (checkMap (callWithin (depth + 2)) realm warns).outcome world =
        .done .passed after ∧ after.Original realm := by
  have entered := EcmaCore.outcome_checkMap (callWithin (depth + 2)) realm warns world
  have spendsArray : world.Spends [] [] (world.add realm
      ((Object.emptyArray realm).createdAll (indexed (mappedNumbers.map .number)))) :=
    World.spends_add _ _ _
  have array := Object.isArrayOf_createdAll realm (mappedNumbers.map .number) (by decide)
  rw [← World.object_add_nextId original.hasRealm
    ((Object.emptyArray realm).createdAll (indexed (mappedNumbers.map .number)))] at array
  have hasSource := World.has_add_nextId original.hasRealm
    ((Object.emptyArray realm).createdAll (indexed (mappedNumbers.map .number)))
  change _ = ((Run.preserving _ _).outcome (world.add realm
    ((Object.emptyArray realm).createdAll
      (indexed (mappedNumbers.map .number))))).attempted.andThen _ at entered
  generalize world.add realm _ = start at *
  have originalStart := original.of_idle spendsArray
  obtain ⟨getter, setter, double, reached, judged, planted, spends, hasDouble⟩ :=
    originalStart.outcome_judgedMapping hasSource
      (original.has .arrayPrototype).ne_nextId.symm array depth warns
  have restored : reached.Spends [Intrinsic.arrayPrototype.id realm] []
      (reached.restore (start.snapshotOf (Intrinsic.arrayPrototype.id realm))) :=
    World.spends_modifyObject (List.mem_singleton_self _) _
  refine ⟨reached.restore (start.snapshotOf (Intrinsic.arrayPrototype.id realm)), ?_,
    originalStart.of_spends (spends.trans (restored.mono (List.Subset.refl _)
      (List.nil_subset _))) ?_ fun which member => ?_⟩
  · rw [entered, outcome_preserving (originalStart.has .arrayPrototype), judged]
    rfl
  · have functions := fun which : Intrinsic =>
      restored.has _ (spends.has _ (originalStart.has which))
    simp only [List.forall_mem_cons, List.not_mem_nil, false_implies, implies_true, and_true]
    exact ⟨functions _, functions _, restored.has _ hasDouble⟩
  · obtain rfl := Intrinsic.id_injective realm (List.mem_singleton.mp member)
    have put : (reached.restore (start.snapshotOf (Intrinsic.arrayPrototype.id realm))).object
        (Intrinsic.arrayPrototype.id realm) = _ :=
      World.object_modifyObject_self (spends.has _ (originalStart.has .arrayPrototype)) _
    rw [put, planted]
    exact onto_plantedPrototype originalStart rfl

theorem World.Original.outcome_checksFrom (original : world.Original realm) (depth : Nat)
    (warns : Bool) (collected : List Verdict) (index remaining : Nat) :
    ∃ after, (Run.collectFrom (fun _ => checkMap (callWithin (depth + 2)) realm warns) collected
        index remaining).outcome world =
          .done (collected.reverse ++ List.replicate remaining .passed) after ∧
      after.Original realm := by
  induction remaining generalizing world collected index with
  | zero => exact ⟨world, by rw [List.replicate_zero, List.append_nil]; rfl, original⟩
  | succ remaining inductionHypothesis =>
    obtain ⟨between, passed, originalBetween⟩ := original.outcome_checkMap depth warns
    obtain ⟨after, ended, originalAfter⟩ :=
      inductionHypothesis originalBetween (.passed :: collected) (index + 1)
    refine ⟨after, ?_, originalAfter⟩
    rw [Run.collectFrom, Run.outcome_bind_of_done passed, ended, List.reverse_cons,
      List.append_assoc, List.singleton_append, List.replicate_succ]

/-- So it passes again, any number of times. -/
theorem World.Original.outcome_checks (original : world.Original realm) (depth count : Nat)
    (warns : Bool) :
    ∃ after, (Run.collect count fun _ =>
        checkMap (callWithin (depth + 2)) realm warns).outcome world =
        .done (List.replicate count .passed) after ∧ after.Original realm := by
  obtain ⟨after, ended, originalAfter⟩ := original.outcome_checksFrom depth warns [] 0 count
  exact ⟨after, ended, originalAfter⟩

end

/-! ### Worlds that programs bring about -/

/-- All calls so far were of functions that are there. -/
def World.CallsKnown (world : World) : Prop := ∀ call ∈ world.log, world.Has call.callee

/-- Only what was given out is called, as a rule. -/
def callRule : Rule where
  holds := World.CallsKnown
  allows := World.SameKinds
  refl := World.SameKinds.refl
  trans := World.SameKinds.trans

theorem callRule_moves {before after : World} (known : before.CallsKnown)
    (kinds : before.SameKinds after)
    (log : ∀ call ∈ after.log, call ∈ before.log ∨ before.Has call.callee) :
    callRule.Moves before after := by
  refine ⟨fun call member => ?_, kinds⟩
  rcases log call member with old | made
  · exact (kinds _ (known call old)).1
  · exact (kinds _ made).1

theorem callRule_moves_of_log {before after : World} (known : before.CallsKnown)
    (kinds : before.SameKinds after) (log : after.log = before.log) :
    callRule.Moves before after :=
  callRule_moves known kinds fun _ member => Or.inl (log ▸ member)

/-- Whatever a program does, only what was given out is called. -/
def callDiscipline : Discipline where
  rule := callRule
  permits _ _ := True
  asked _ _ := True
  asked_of_lawful _ := trivial
  asked_of_define _ := trivial
  asked_of_defineOrThrow _ := trivial
  asked_of_allows _ _ := trivial
  quiet known objects _ log _ := callRule_moves known (.of_sameObjects objects) log
  add known _ := callRule_moves_of_log known (World.sameKinds_add _ _ _) rfl
  step known step :=
    callRule_moves_of_log known (World.sameKinds_modifyObject step.sameNature.kind) rfl
  make _ known := callRule_moves_of_log known (World.sameKinds_add _ _ _) rfl
  hold _ known :=
    callRule_moves_of_log known (World.sameKinds_hold _ _ _ _) (World.runsAlike_hold _).log
  release _ known :=
    callRule_moves_of_log known (World.sameKinds_release _ _ _) (World.runsAlike_release _).log
  setExtensible _ known := callRule_moves_of_log known (World.sameKinds_modifyObject rfl) rfl
  setPrototype _ known := callRule_moves_of_log known (World.sameKinds_modifyObject rfl) rfl
  restore _ _ known _ _ := callRule_moves_of_log known (World.sameKinds_modifyObject rfl) rfl

/-- A program may do what it likes: a realm whose intrinsics it leaves as they were made is one in
which the check passes. -/
theorem Program.original_of_mem (program : Program) (depth : Nat) {count : Nat} {realm : RealmId}
    (inside : realm < count) {reached : World}
    (member : reached ∈ (program.run (callWithin depth)).worlds (World.fresh count))
    (object : ∀ which : Intrinsic, reached.object (which.id realm) = which.object realm) :
    reached.Original realm where
  hasIntrinsics := Program.hasIntrinsics_of_mem (World.hasIntrinsics_fresh inside) depth member
  object := object
  logged := by
    have start : (World.fresh count).CallsKnown := by simp [World.CallsKnown, World.fresh]
    have follows := Program.follows callDiscipline program.obeys_anything
      (World.fresh count).hostsObey_anything start depth
    exact (follows.holds_of_mem ⟨start, World.hostsObey_anything _⟩ member).1

/-! ### The check is hermetic -/

/-- Whatever scripts stand in the way of the check, and whether warnings are shown or not, it ends in
a verdict, if it ends at all, and then the array prototype has the properties, the prototype and the
openness that it had. So where the intrinsics are as they were made, the check passes, and it passes
again as often as it is run. These are all worlds that a program leaves with the intrinsics of the
realm as they were. -/
theorem checkMap_hermetic :
    (∀ (world : World) (realm : RealmId) (depth : Nat) (warns : Bool),
      world.Has (Intrinsic.arrayPrototype.id realm) →
      (∀ error after,
        (checkMap (callWithin depth) realm warns).outcome world ≠ .threw error after) ∧
      ∀ verdict after,
        (checkMap (callWithin depth) realm warns).outcome world = .done verdict after →
        (world.object (Intrinsic.arrayPrototype.id realm)).SameState
          (after.object (Intrinsic.arrayPrototype.id realm))) ∧
    (∀ (world : World) (realm : RealmId), world.Original realm → ∀ depth count warns,
      ∃ after, (Run.collect count fun _ =>
          checkMap (callWithin (depth + 2)) realm warns).outcome world =
        .done (List.replicate count .passed) after ∧ after.Original realm) ∧
    (∀ (program : Program) (depth count : Nat) (realm : RealmId), realm < count →
      ∀ reached ∈ (program.run (callWithin depth)).worlds (World.fresh count),
        (∀ which : Intrinsic, reached.object (which.id realm) = which.object realm) →
        reached.Original realm) := by
  refine ⟨fun world realm depth warns made => ⟨fun error after => ?_, fun verdict after ended => ?_⟩,
    fun world realm original depth count warns => ?_, fun program depth count realm inside => ?_⟩
  · exact checkMap_ne_threw _ realm warns world error after
  · exact sameState_checkMap made ended
  · exact original.outcome_checks depth count warns
  · exact fun reached member object => program.original_of_mem depth inside member object

/-- A new realm in which a host function has taken the place of the mapping function. It locks the
array prototype and fails. -/
def World.sabotaged : World :=
  let spoil (_ : Invocation) : Program :=
    .perform 0 (.setExtensible (Intrinsic.arrayPrototype.id 0) false) fun _ =>
      .raise (.raised .thrown "spoilt")
  ((fresh 1).add 0 (.ofCallable 0 "map" 0 (.host spoil))).modifyObject
    (Intrinsic.arrayPrototype.id 0) (·.put (.text "map") (.hidden (.object ⟨0, 20⟩)))

/-- The check is broken by that function and leaves the prototype open. In a realm as it was made it
passes three times. -/
theorem checkMap_hermetic_under_sabotage :
    (∃ after, (checkMap (callWithin 2) 0 false).outcome .sabotaged =
        .done (.broken (.raised .thrown "spoilt")) after ∧
      (after.object (Intrinsic.arrayPrototype.id 0)).extensible = true) ∧
    ∃ after, (Run.collect 3 fun _ => checkMap (callWithin 2) 0 false).outcome (World.fresh 1) =
      .done [.passed, .passed, .passed] after := by
  obtain ⟨hermetic, repeated, original⟩ := checkMap_hermetic
  constructor
  · obtain ⟨after, ended⟩ := Outcome.exists_of_value? (by decide +kernel :
      ((checkMap (callWithin 2) 0 false).outcome .sabotaged).value? =
        some (.broken (.raised .thrown "spoilt")))
    have restored := (hermetic _ 0 2 false (by decide +kernel)).2 _ after ended
    exact ⟨after, ended, restored.extensible.trans (by decide +kernel)⟩
  · have made := original (.finish .undefined) 0 1 0 Nat.zero_lt_one (World.fresh 1)
      (List.mem_singleton_self _) (World.object_fresh_intrinsic Nat.zero_lt_one)
    obtain ⟨after, ended, -⟩ := repeated _ 0 made 0 3 false
    exact ⟨after, ended⟩

end EcmaCore
