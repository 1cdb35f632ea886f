/-
This file is about the course of a run: the worlds that it passes through, and not only
the one in which it ends. A rule says which worlds are in order and which world may come
after which. A run keeps a rule if from every world in order each of its changes does,
and then all worlds on its way are in order and any two of them may come in their order.
Of a world that comes right after another a rule may ask more.

That a run keeps a rule is shown from its parts. What goes on after a value may count on
what is known about the value, and what is done last, after an error too, may count on
how the world has come about since the start.
-/

import EcmaCore.World.Loop
import Mathlib.Data.List.Forall2

namespace EcmaCore

variable {α β : Type}

/-- The worlds that a run passes through, the first and the last included. -/
def Run.worlds : Run α → World → List World
  | .done _, world => [world]
  | .threw _, world => [world]
  | .cutOff, world => [world]
  | .look next, world => (next world).worlds world
  | .change update next, world => world :: (next ()).worlds (update world)

/-- What is asked of the worlds of a run. -/
structure Rule where
  holds : World → Prop
  allows : World → World → Prop
  refl : ∀ world, allows world world
  trans : ∀ {first second third}, allows first second → allows second third → allows first third
  /-- The second world may come right after the first. -/
  single : World → World → Prop := allows
  allows_of_single : ∀ {before after}, single before after → allows before after := by
    exact fun allowed => allowed

/-- The rule that asks nothing: all worlds are in order, and any may come after any other. -/
def Rule.free : Rule where
  holds _ := True
  allows _ _ := True
  refl _ := trivial
  trans _ _ := trivial

/-- The second world may come next. -/
structure Rule.Moves (rule : Rule) (before after : World) : Prop where
  holds : rule.holds after
  single : rule.single before after

theorem Rule.Moves.allows {rule : Rule} {before after : World} (moves : rule.Moves before after) :
    rule.allows before after := rule.allows_of_single moves.single

/-- Every change on the way from a world keeps the rule, and the value at the end meets a goal. -/
def Run.Follows (rule : Rule) (goal : α → Prop) : Run α → World → Prop
  | .done value, _ => goal value
  | .threw _, _ => True
  | .cutOff, _ => True
  | .look next, world => (next world).Follows rule goal world
  | .change update next, world =>
    rule.Moves world (update world) ∧ (next ()).Follows rule goal (update world)

/-- The run follows the rule from every world in order. -/
structure Run.Keeps (rule : Rule) (goal : α → Prop) (run : Run α) : Prop where
  follows : ∀ world, rule.holds world → run.Follows rule goal world

/-- The run keeps the rule, whatever its value. -/
abbrev Run.Steady (rule : Rule) (run : Run α) : Prop := run.Keeps rule fun _ => True

namespace Run

variable {rule : Rule} {goal : α → Prop} {run : Run α} {world : World}

/-! ### The worlds on the way -/

theorem Follows.holds_of_mem (follows : run.Follows rule goal world) (start : rule.holds world)
    {reached : World} (member : reached ∈ run.worlds world) : rule.holds reached := by
  induction run generalizing world with
  | done value => exact List.mem_singleton.mp member ▸ start
  | threw error => exact List.mem_singleton.mp member ▸ start
  | cutOff => exact List.mem_singleton.mp member ▸ start
  | look next inductionHypothesis => exact inductionHypothesis world follows start member
  | change update next inductionHypothesis =>
    obtain ⟨moves, rest⟩ := follows
    rcases List.mem_cons.mp member with rfl | later
    · exact start
    · exact inductionHypothesis () rest moves.holds later

theorem Follows.allows_of_mem (follows : run.Follows rule goal world) {reached : World}
    (member : reached ∈ run.worlds world) : rule.allows world reached := by
  induction run generalizing world with
  | done value => exact List.mem_singleton.mp member ▸ rule.refl world
  | threw error => exact List.mem_singleton.mp member ▸ rule.refl world
  | cutOff => exact List.mem_singleton.mp member ▸ rule.refl world
  | look next inductionHypothesis => exact inductionHypothesis world follows member
  | change update next inductionHypothesis =>
    obtain ⟨moves, rest⟩ := follows
    rcases List.mem_cons.mp member with rfl | later
    · exact rule.refl _
    · exact rule.trans moves.allows (inductionHypothesis () rest later)

/-- Of two worlds on the way, the later may come after the earlier. -/
theorem Follows.pairwise (follows : run.Follows rule goal world) :
    (run.worlds world).Pairwise rule.allows := by
  induction run generalizing world with
  | done value => exact List.pairwise_singleton _ _
  | threw error => exact List.pairwise_singleton _ _
  | cutOff => exact List.pairwise_singleton _ _
  | look next inductionHypothesis => exact inductionHypothesis world follows
  | change update next inductionHypothesis =>
    obtain ⟨moves, rest⟩ := follows
    refine List.pairwise_cons.mpr ⟨fun later member => ?_, inductionHypothesis () rest⟩
    exact rule.trans moves.allows (rest.allows_of_mem member)

/-- The first world of a run is the one in which it starts. -/
theorem exists_worlds_eq_cons (run : Run α) (world : World) :
    ∃ rest, run.worlds world = world :: rest := by
  induction run generalizing world with
  | look next inductionHypothesis => exact inductionHypothesis world world
  | change update next inductionHypothesis => exact ⟨_, rfl⟩
  | _ => exact ⟨[], rfl⟩

/-- Of two worlds that follow on each other, the second may come right after the first. -/
theorem Follows.isChain (follows : run.Follows rule goal world) :
    (run.worlds world).IsChain rule.single := by
  induction run generalizing world with
  | done value => exact .singleton _
  | threw error => exact .singleton _
  | cutOff => exact .singleton _
  | look next inductionHypothesis => exact inductionHypothesis world follows
  | change update next inductionHypothesis =>
    obtain ⟨moves, rest⟩ := follows
    have later := inductionHypothesis () rest
    obtain ⟨others, next⟩ := exists_worlds_eq_cons (next ()) (update world)
    rw [worlds, next]
    rw [next] at later
    exact .cons_cons moves.single later

/-! ### Single steps -/

theorem keeps_pure {value : α} (met : goal value) : (pure value : Run α).Keeps rule goal where
  follows _ _ := met

theorem steady_pure (value : α) : (pure value : Run α).Steady rule := keeps_pure trivial

theorem keeps_throw (error : Error) : (throw error : Run α).Keeps rule goal where
  follows _ _ := trivial

theorem keeps_cutOff : (cutOff : Run α).Keeps rule goal where
  follows _ _ := trivial

theorem steady_read (view : World → α) : (read view).Steady rule where
  follows _ _ := trivial

theorem steady_modify {update : World → World}
    (moves : ∀ world, rule.holds world → rule.Moves world (update world)) :
    (modify update).Steady rule where
  follows world start := ⟨moves world start, trivial⟩

theorem steady_allocate {realm : RealmId} {object : Object}
    (moves : ∀ world, rule.holds world → rule.Moves world (world.add realm object)) :
    (allocate realm object).Steady rule where
  follows world start := ⟨moves world start, trivial⟩

/-! ### One run after another -/

/-- What goes on after a value may count on how the run has come to it. -/
theorem Follows.bind_of_done {middle : α → Prop} {goal : β → Prop} {continuation : α → Run β}
    (first : run.Follows rule middle world) (start : rule.holds world)
    (rest : ∀ value after, run.outcome world = .done value after → middle value →
      rule.holds after → rule.allows world after →
      (continuation value).Follows rule goal after) :
    (run >>= continuation).Follows rule goal world := by
  change (run.andThen continuation).Follows rule goal world
  induction run generalizing world with
  | done value => exact rest value world rfl first start (rule.refl world)
  | threw error => exact trivial
  | cutOff => exact trivial
  | look next inductionHypothesis => exact inductionHypothesis world first start rest
  | change update next inductionHypothesis =>
    refine ⟨first.1, inductionHypothesis () first.2 first.1.holds ?_⟩
    intro value after ended met holds since
    exact rest value after ended met holds (rule.trans first.1.allows since)

theorem Follows.bind {middle : α → Prop} {goal : β → Prop} {continuation : α → Run β}
    (first : run.Follows rule middle world) (start : rule.holds world)
    (rest : ∀ value, middle value → (continuation value).Keeps rule goal) :
    (run >>= continuation).Follows rule goal world :=
  first.bind_of_done start fun value after _ met holds _ => (rest value met).follows after holds

/-- What goes on after a look goes on with what the world shows. -/
theorem follows_read_bind {view : World → α} {goal : β → Prop} {continuation : α → Run β}
    (follows : (continuation (view world)).Follows rule goal world) :
    (read view >>= continuation).Follows rule goal world := follows

theorem Keeps.bind {middle : α → Prop} {goal : β → Prop} {continuation : α → Run β}
    (first : run.Keeps rule middle)
    (rest : ∀ value, middle value → (continuation value).Keeps rule goal) :
    (run >>= continuation).Keeps rule goal where
  follows world start := (first.follows world start).bind start rest

theorem Steady.bind {goal : β → Prop} {continuation : α → Run β} (first : run.Steady rule)
    (rest : ∀ value, (continuation value).Keeps rule goal) :
    (run >>= continuation).Keeps rule goal :=
  Keeps.bind first fun value _ => rest value

theorem Follows.weaken {weaker : α → Prop} (follows : run.Follows rule goal world)
    (enough : ∀ value, goal value → weaker value) : run.Follows rule weaker world := by
  induction run generalizing world with
  | done value => exact enough value follows
  | threw error => exact trivial
  | cutOff => exact trivial
  | look next inductionHypothesis => exact inductionHypothesis world follows
  | change update next inductionHypothesis => exact ⟨follows.1, inductionHypothesis () follows.2⟩

theorem Keeps.steady (keeps : run.Keeps rule goal) : run.Steady rule where
  follows world start := (keeps.follows world start).weaken fun _ _ => trivial

/-! ### Errors as values -/

theorem Steady.attempt (steady : run.Steady rule) : run.attempt.Steady rule := by
  refine ⟨fun world start => ?_⟩
  have follows := steady.follows world start
  clear steady start
  induction run generalizing world with
  | done value => exact trivial
  | threw error => exact trivial
  | cutOff => exact trivial
  | look next inductionHypothesis => exact inductionHypothesis world world follows
  | change update next inductionHypothesis =>
    exact ⟨follows.1, inductionHypothesis () _ follows.2⟩

/-- What is done last is done in a world that has come about by the rule since some earlier one. -/
theorem Follows.followedBy {last : World → World} {earlier : World}
    (follows : run.Follows rule goal world) (start : rule.holds world)
    (since : rule.allows earlier world)
    (moves : ∀ reached, rule.holds reached → rule.allows earlier reached →
      rule.Moves reached (last reached)) :
    (run.followedBy last).Follows rule goal world := by
  induction run generalizing world with
  | done value => exact ⟨moves world start since, follows⟩
  | threw error => exact ⟨moves world start since, trivial⟩
  | cutOff => exact trivial
  | look next inductionHypothesis => exact inductionHypothesis world follows start since
  | change update next inductionHypothesis =>
    exact ⟨follows.1, inductionHypothesis () follows.2 follows.1.holds
      (rule.trans since follows.1.allows)⟩

theorem Steady.followedBy {last : World → World} (steady : run.Steady rule)
    (moves : ∀ world, rule.holds world → rule.Moves world (last world)) :
    (run.followedBy last).Steady rule where
  follows world start := (steady.follows world start).followedBy start (rule.refl world)
    fun reached holds _ => moves reached holds

/-! ### Loops -/

theorem keeps_collectFrom {goal : β → Prop} {step : Nat → Run β}
    (keeps : ∀ index, (step index).Keeps rule goal) {collected : List β}
    (met : ∀ result ∈ collected, goal result) (index remaining : Nat) :
    (collectFrom step collected index remaining).Keeps rule
      fun results => ∀ result ∈ results, goal result := by
  induction remaining generalizing collected index with
  | zero => exact keeps_pure fun result member => met result (List.mem_reverse.mp member)
  | succ remaining inductionHypothesis =>
    refine (keeps index).bind fun result good => inductionHypothesis ?_ (index + 1)
    exact List.forall_mem_cons.mpr ⟨good, met⟩

/-- What every step yields, all results of the loop are. -/
theorem keeps_collect {goal : β → Prop} {step : Nat → Run β}
    (keeps : ∀ index, (step index).Keeps rule goal) (count : Nat) :
    (collect count step).Keeps rule fun results => ∀ result ∈ results, goal result :=
  keeps_collectFrom keeps (List.forall_mem_nil _) 0 count

theorem steady_collect {step : Nat → Run β} (steady : ∀ index, (step index).Steady rule)
    (count : Nat) : (collect count step).Steady rule :=
  (keeps_collect steady count).steady

theorem keeps_traverseFrom {goal : α → β → Prop} {step : α → Run β}
    (keeps : ∀ member, (step member).Keeps rule (goal member)) {before : List α}
    {collected : List β} (met : List.Forall₂ goal before.reverse collected.reverse)
    (members : List α) :
    (traverseFrom step collected members).Keeps rule
      fun results => List.Forall₂ goal (before.reverse ++ members) results := by
  induction members generalizing before collected with
  | nil => exact keeps_pure (by rwa [List.append_nil])
  | cons member rest inductionHypothesis =>
    refine (keeps member).bind fun result good => ?_
    have longer : List.Forall₂ goal (member :: before).reverse (result :: collected).reverse := by
      rw [List.reverse_cons, List.reverse_cons]
      exact List.rel_append met (.cons good .nil)
    have later := inductionHypothesis longer
    rwa [List.reverse_cons, List.append_assoc, List.singleton_append] at later

/-- Each result of the loop is what the step yields for the member at the same place. -/
theorem keeps_traverse {goal : α → β → Prop} {step : α → Run β}
    (keeps : ∀ member, (step member).Keeps rule (goal member)) (members : List α) :
    (traverse members step).Keeps rule fun results => List.Forall₂ goal members results := by
  have start : List.Forall₂ goal ([] : List α).reverse ([] : List β).reverse := .nil
  exact keeps_traverseFrom keeps start members

theorem steady_traverse {step : α → Run β} (steady : ∀ member, (step member).Steady rule)
    (members : List α) : (traverse members step).Steady rule :=
  (keeps_traverse steady members).steady

/-! ### Values at the end -/

/-- A run passes through the world in which it starts. -/
theorem start_mem_worlds (run : Run α) (world : World) : world ∈ run.worlds world := by
  obtain ⟨rest, worlds⟩ := exists_worlds_eq_cons run world
  rw [worlds]
  exact List.mem_cons_self

/-- The world in which a run ends is one that it passes through. -/
theorem mem_worlds_of_done {value : α} {after : World}
    (ended : run.outcome world = .done value after) : after ∈ run.worlds world := by
  induction run generalizing world with
  | done result =>
    cases ended
    exact List.mem_singleton_self _
  | threw error => cases ended
  | cutOff => cases ended
  | look next inductionHypothesis => exact inductionHypothesis world ended
  | change update next inductionHypothesis =>
    exact List.mem_cons_of_mem world (inductionHypothesis () ended)

/-- So is the world in which it fails. -/
theorem mem_worlds_of_threw {error : Error} {after : World}
    (ended : run.outcome world = .threw error after) : after ∈ run.worlds world := by
  induction run generalizing world with
  | done result => cases ended
  | threw failure =>
    cases ended
    exact List.mem_singleton_self _
  | cutOff => cases ended
  | look next inductionHypothesis => exact inductionHypothesis world ended
  | change update next inductionHypothesis =>
    exact List.mem_cons_of_mem world (inductionHypothesis () ended)

/-- What goes on after a run passes through the worlds of the run first. -/
theorem worlds_subset_bind (continuation : α → Run β) :
    run.worlds world ⊆ (run >>= continuation).worlds world := by
  change run.worlds world ⊆ (run.andThen continuation).worlds world
  induction run generalizing world with
  | done value => exact List.cons_subset.mpr ⟨start_mem_worlds _ world, List.nil_subset _⟩
  | threw error => exact List.Subset.refl _
  | cutOff => exact List.Subset.refl _
  | look next inductionHypothesis => exact inductionHypothesis world
  | change update next inductionHypothesis =>
    exact List.cons_subset_cons world (inductionHypothesis ())

/-- Then it passes through those that come after the value. -/
theorem worlds_subset_bind_of_done {continuation : α → Run β} {value : α} {after : World}
    (ended : run.outcome world = .done value after) :
    (continuation value).worlds after ⊆ (run >>= continuation).worlds world := by
  change (continuation value).worlds after ⊆ (run.andThen continuation).worlds world
  induction run generalizing world with
  | done result =>
    cases ended
    exact List.Subset.refl _
  | threw error => cases ended
  | cutOff => cases ended
  | look next inductionHypothesis => exact inductionHypothesis world ended
  | change update next inductionHypothesis =>
    exact List.subset_cons_of_subset world (inductionHypothesis () ended)

theorem worlds_read_bind (view : World → α) (continuation : α → Run β) (world : World) :
    (read view >>= continuation).worlds world = (continuation (view world)).worlds world := rfl

theorem worlds_attempt (run : Run α) (world : World) :
    run.attempt.worlds world = run.worlds world := by
  induction run generalizing world with
  | look next inductionHypothesis => exact inductionHypothesis world world
  | change update next inductionHypothesis =>
    exact congrArg (world :: ·) (inductionHypothesis () (update world))
  | _ => rfl

theorem worlds_subset_followedBy (last : World → World) :
    run.worlds world ⊆ (run.followedBy last).worlds world := by
  induction run generalizing world with
  | done value => exact List.cons_subset.mpr ⟨List.mem_cons_self, List.nil_subset _⟩
  | threw error => exact List.cons_subset.mpr ⟨List.mem_cons_self, List.nil_subset _⟩
  | cutOff => exact List.Subset.refl _
  | look next inductionHypothesis => exact inductionHypothesis world
  | change update next inductionHypothesis =>
    exact List.cons_subset_cons world (inductionHypothesis ())

/-- The value in which a run ends meets the goal. -/
theorem Follows.goal_of_done (follows : run.Follows rule goal world) {value : α} {after : World}
    (ended : run.outcome world = .done value after) : goal value := by
  induction run generalizing world with
  | done result =>
    cases ended
    exact follows
  | threw error => cases ended
  | cutOff => cases ended
  | look next inductionHypothesis => exact inductionHypothesis world follows ended
  | change update next inductionHypothesis => exact inductionHypothesis () follows.2 ended

/-- Every run keeps the rule that asks nothing. -/
theorem steady_free (run : Run α) : run.Steady .free := by
  refine ⟨fun world start => ?_⟩
  clear start
  induction run generalizing world with
  | done value => exact trivial
  | threw error => exact trivial
  | cutOff => exact trivial
  | look next inductionHypothesis => exact inductionHypothesis world world
  | change update next inductionHypothesis =>
    exact ⟨⟨trivial, trivial⟩, inductionHypothesis () (update world)⟩

end Run

/-- Every call of a function value keeps the rule. -/
def Caller.Steady (rule : Rule) (call : Caller) : Prop :=
  ∀ realm function receiver arguments, (call realm function receiver arguments).Steady rule

end EcmaCore
