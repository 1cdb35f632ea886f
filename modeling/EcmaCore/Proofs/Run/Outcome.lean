/-
This file says how each way of putting runs together ends. A run that goes on after
another ends as the second does from where the first left the world; an error or a
cut-off of the first is the end of both. A loop whose steps all end, and keep the world as
it has to be, ends in the list of what they yield.
-/

import EcmaCore.World.Loop

namespace EcmaCore

variable {α β : Type}

/-- The outcome after going on from a value. -/
def Outcome.andThen : Outcome α → (α → World → Outcome β) → Outcome β
  | .done value world, continuation => continuation value world
  | .threw error world, _ => .threw error world
  | .cutOff, _ => .cutOff

@[simp]
theorem Outcome.andThen_done (value : α) (world : World) (continuation : α → World → Outcome β) :
    (Outcome.done value world).andThen continuation = continuation value world := rfl

@[simp]
theorem Outcome.andThen_threw (error : Error) (world : World)
    (continuation : α → World → Outcome β) :
    (Outcome.threw error world).andThen continuation = .threw error world := rfl

@[simp]
theorem Outcome.andThen_cutOff (continuation : α → World → Outcome β) :
    (Outcome.cutOff : Outcome α).andThen continuation = .cutOff := rfl

/-- The outcome with its error as a value. -/
def Outcome.attempted : Outcome α → Outcome (Except Error α)
  | .done value world => .done (.ok value) world
  | .threw error world => .done (.error error) world
  | .cutOff => .cutOff

/-- The outcome after a last change of the world. -/
def Outcome.followedBy (outcome : Outcome α) (last : World → World) : Outcome α :=
  match outcome with
  | .done value world => .done value (last world)
  | .threw error world => .threw error (last world)
  | .cutOff => .cutOff

/-- The value in which a run ended. -/
def Outcome.value? : Outcome α → Option α
  | .done value _ => some value
  | _ => none

theorem Outcome.exists_of_value? {outcome : Outcome α} {value : α}
    (ended : outcome.value? = some value) : ∃ world, outcome = .done value world := by
  cases outcome with
  | done other world =>
    cases ended
    exact ⟨world, rfl⟩
  | threw error world => cases ended
  | cutOff => cases ended

namespace Run

theorem outcome_bind (run : Run α) (continuation : α → Run β) (world : World) :
    (run >>= continuation).outcome world =
      (run.outcome world).andThen fun value after => (continuation value).outcome after := by
  change (run.andThen continuation).outcome world = _
  induction run generalizing world with
  | done value => rfl
  | threw error => rfl
  | cutOff => rfl
  | look next inductionHypothesis => exact inductionHypothesis world world
  | change update next inductionHypothesis => exact inductionHypothesis () (update world)

/-- A run goes on where a run that ended in a value left the world. -/
theorem outcome_bind_of_done {run : Run α} {value : α} {world after : World}
    (ended : run.outcome world = .done value after) (continuation : α → Run β) :
    (run >>= continuation).outcome world = (continuation value).outcome after := by
  rw [outcome_bind, ended]
  rfl

/-- A run that went on after another and ended in a value did so in two parts. -/
theorem exists_of_outcome_bind {run : Run α} {continuation : α → Run β} {world after : World}
    {value : β} (ended : (run >>= continuation).outcome world = .done value after) :
    ∃ first between, run.outcome world = .done first between ∧
      (continuation first).outcome between = .done value after := by
  rw [outcome_bind] at ended
  cases begun : run.outcome world with
  | done first between =>
    rw [begun] at ended
    exact ⟨first, between, rfl, ended⟩
  | _ =>
    rw [begun] at ended
    cases ended

/-- A run that went on after another and failed did so in the first part or in the second. -/
theorem cases_of_bind_threw {run : Run α} {continuation : α → Run β} {world after : World}
    {error : Error} (ended : (run >>= continuation).outcome world = .threw error after) :
    run.outcome world = .threw error after ∨
      ∃ first between, run.outcome world = .done first between ∧
        (continuation first).outcome between = .threw error after := by
  rw [outcome_bind] at ended
  cases begun : run.outcome world with
  | done first between =>
    rw [begun] at ended
    exact Or.inr ⟨first, between, rfl, ended⟩
  | threw failure between =>
    rw [begun] at ended
    cases ended
    exact Or.inl rfl
  | cutOff =>
    rw [begun] at ended
    cases ended

theorem outcome_attempt (run : Run α) (world : World) :
    run.attempt.outcome world = (run.outcome world).attempted := by
  induction run generalizing world with
  | done value => rfl
  | threw error => rfl
  | cutOff => rfl
  | look next inductionHypothesis => exact inductionHypothesis world world
  | change update next inductionHypothesis => exact inductionHypothesis () (update world)

theorem outcome_followedBy (run : Run α) (last : World → World) (world : World) :
    (run.followedBy last).outcome world = (run.outcome world).followedBy last := by
  induction run generalizing world with
  | done value => rfl
  | threw error => rfl
  | cutOff => rfl
  | look next inductionHypothesis => exact inductionHypothesis world world
  | change update next inductionHypothesis => exact inductionHypothesis () (update world)

@[simp]
theorem outcome_pure (value : α) (world : World) :
    (pure value : Run α).outcome world = .done value world := rfl

@[simp]
theorem outcome_throw (error : Error) (world : World) :
    (throw error : Run α).outcome world = .threw error world := rfl

@[simp]
theorem outcome_read (view : World → α) (world : World) :
    (read view).outcome world = .done (view world) world := rfl

@[simp]
theorem outcome_object (id : ObjectId) (world : World) :
    (object id).outcome world = .done (world.object id) world := rfl

@[simp]
theorem outcome_allocate (realm : RealmId) (object : Object) (world : World) :
    (allocate realm object).outcome world =
      .done (world.nextId realm) (world.add realm object) := rfl

/-! ### Loops -/

variable {world : World} {keeps : World → Prop}

theorem exists_outcome_collectFrom {step : Nat → Run β} {result : Nat → β} {index remaining : Nat}
    (ends : ∀ other, index ≤ other → other < index + remaining → ∀ before, keeps before →
      ∃ after, keeps after ∧ (step other).outcome before = .done (result other) after)
    {before : World} (start : keeps before) (collected : List β) :
    ∃ after, keeps after ∧ (collectFrom step collected index remaining).outcome before =
      .done (collected.reverse ++ (List.range' index remaining).map result) after := by
  induction remaining generalizing index before collected with
  | zero => exact ⟨before, start, by simp [collectFrom]⟩
  | succ remaining inductionHypothesis =>
    obtain ⟨between, kept, ended⟩ := ends index (Nat.le_refl index) (by omega) before start
    have later : ∀ other, index + 1 ≤ other → other < index + 1 + remaining → ∀ before,
        keeps before → ∃ after, keeps after ∧
          (step other).outcome before = .done (result other) after :=
      fun other after inside => ends other (by omega) (by omega)
    obtain ⟨after, keptAfter, endedAfter⟩ :=
      inductionHypothesis later kept (result index :: collected)
    refine ⟨after, keptAfter, ?_⟩
    rw [collectFrom, outcome_bind_of_done ended, endedAfter, List.range'_succ, List.map_cons,
      List.reverse_cons, List.append_assoc, List.singleton_append]

/-- If every step keeps the world as it has to be, so does the loop. -/
theorem exists_outcome_collect {step : Nat → Run β} {result : Nat → β} {count : Nat}
    (ends : ∀ index < count, ∀ before, keeps before →
      ∃ after, keeps after ∧ (step index).outcome before = .done (result index) after)
    {before : World} (start : keeps before) :
    ∃ after, keeps after ∧
      (collect count step).outcome before = .done ((List.range count).map result) after := by
  have each : ∀ index, 0 ≤ index → index < 0 + count → ∀ before, keeps before →
      ∃ after, keeps after ∧ (step index).outcome before = .done (result index) after :=
    fun index _ inside => ends index (by omega)
  have loop := exists_outcome_collectFrom each start []
  rwa [List.reverse_nil, List.nil_append, ← List.range_eq_range'] at loop

/-- A loop whose steps leave the world as it is ends in the list of what they yield. -/
theorem outcome_collect {step : Nat → Run β} {result : Nat → β} {count : Nat}
    (ends : ∀ index < count, (step index).outcome world = .done (result index) world) :
    (collect count step).outcome world = .done ((List.range count).map result) world := by
  have each : ∀ index < count, ∀ before, before = world →
      ∃ after, after = world ∧ (step index).outcome before = .done (result index) after :=
    fun index inside before same => ⟨world, rfl, same ▸ ends index inside⟩
  obtain ⟨after, rfl, ended⟩ := exists_outcome_collect each rfl
  exact ended

theorem outcome_traverseFrom {step : α → Run β} {result : α → β} {members : List α}
    (ends : ∀ member ∈ members, (step member).outcome world = .done (result member) world)
    (collected : List β) :
    (traverseFrom step collected members).outcome world =
      .done (collected.reverse ++ members.map result) world := by
  induction members generalizing collected with
  | nil => rw [traverseFrom, outcome_pure, List.map_nil, List.append_nil]
  | cons member members inductionHypothesis =>
    rw [traverseFrom, outcome_bind_of_done (ends member List.mem_cons_self),
      inductionHypothesis fun other later => ends other (List.mem_cons_of_mem member later),
      List.map_cons, List.reverse_cons, List.append_assoc, List.singleton_append]

theorem outcome_traverse {step : α → Run β} {result : α → β} {members : List α}
    (ends : ∀ member ∈ members, (step member).outcome world = .done (result member) world) :
    (traverse members step).outcome world = .done (members.map result) world := by
  rw [traverse, outcome_traverseFrom ends, List.reverse_nil, List.nil_append]

end Run

end EcmaCore
