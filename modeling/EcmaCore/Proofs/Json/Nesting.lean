/-
This file says when conversion to JSON fails. Conversion goes from a container to what it
holds: from an array to its elements, from any other object that is no function to the
values of its enumerable own properties. Where all that it reads on the way shows without a
call, it fails for two reasons only, and each of them is there to be pointed at: a container
that holds itself, directly or through others, or a path through more than 512 containers.

The proof follows the containers that enclose the current value. They are a path from the
value that conversion began with, without repetition. So one that is met again among them
lies on a cycle, and one that is met when there is no room left is the end of a path that is
too long. A container that is merely shared is not among those that enclose it.
-/

import EcmaCore.Proofs.Engine.Assigning
import EcmaCore.Proofs.Json.RoundTrip
import Mathlib.Data.List.Chain
import Mathlib.Logic.Relation

namespace EcmaCore

variable {α β : Type}

/-! ### Runs that fail for a reason -/

/-- From a world on, which is left as it is, the run ends in a value and what is expected then
holds, or it fails with an error for which there is a reason. -/
inductive Run.Settles (run : Run α) (world : World) (expected : Prop) (reason : Error → Prop) : Prop
  | done {value : α} (ended : run.outcome world = .done value world) (holds : expected) :
      Settles run world expected reason
  | threw {error : Error} (ended : run.outcome world = .threw error world)
      (because : reason error) : Settles run world expected reason

namespace Run

variable {world : World} {expected later : Prop} {reason : Error → Prop}

theorem Settles.bind {run : Run α} {continuation : α → Run β}
    (first : run.Settles world expected reason)
    (rest : ∀ value, expected → (continuation value).Settles world later reason) :
    (run >>= continuation).Settles world later reason := by
  cases first with
  | done ended holds =>
    cases rest _ holds with
    | done endedLater holdsLater =>
      exact .done (by rw [outcome_bind_of_done ended, endedLater]) holdsLater
    | threw endedLater because =>
      exact .threw (by rw [outcome_bind_of_done ended, endedLater]) because
  | threw ended because => exact .threw (by rw [outcome_bind, ended]; rfl) because

/-- A run that goes on after one that is known settles as what is left of it does. -/
theorem Settles.after {run : Run α} {continuation : α → Run β} {value : α}
    (ended : run.outcome world = .done value world)
    (rest : (continuation value).Settles world expected reason) :
    (run >>= continuation).Settles world expected reason := by
  cases rest with
  | done endedLater holds => exact .done (by rw [outcome_bind_of_done ended, endedLater]) holds
  | threw endedLater because =>
    exact .threw (by rw [outcome_bind_of_done ended, endedLater]) because

theorem Settles.map {run : Run α} (settles : run.Settles world expected reason) (result : α → β) :
    (run >>= fun value => pure (result value)).Settles world expected reason :=
  settles.bind fun value holds => .done (outcome_pure (result value) world) holds

theorem Settles.imp {run : Run α} (settles : run.Settles world expected reason)
    (enough : expected → later) : run.Settles world later reason := by
  cases settles with
  | done ended holds => exact .done ended (enough holds)
  | threw ended because => exact .threw ended because

theorem settles_collectFrom {step : Nat → Run β} {expected : Nat → Prop} {index remaining : Nat}
    (settles : ∀ other, index ≤ other → other < index + remaining →
      (step other).Settles world (expected other) reason) (collected : List β) :
    (collectFrom step collected index remaining).Settles world
      (∀ other, index ≤ other → other < index + remaining → expected other) reason := by
  induction remaining generalizing index collected with
  | zero => exact .done (outcome_pure _ world) fun other after before => by omega
  | succ remaining inductionHypothesis =>
    rw [collectFrom]
    refine (settles index (Nat.le_refl index) (by omega)).bind fun value here => ?_
    have later : ∀ other, index + 1 ≤ other → other < index + 1 + remaining →
        (step other).Settles world (expected other) reason :=
      fun other after before => settles other (by omega) (by omega)
    have rest := inductionHypothesis later (value :: collected)
    refine rest.imp fun others other after before => ?_
    rcases Nat.eq_or_lt_of_le after with rfl | further
    · exact here
    · exact others other further (by omega)

/-- A loop settles if each of its steps does. -/
theorem settles_collect {step : Nat → Run β} {expected : Nat → Prop} {count : Nat}
    (settles : ∀ index < count, (step index).Settles world (expected index) reason) :
    (collect count step).Settles world (∀ index < count, expected index) reason :=
  (settles_collectFrom (fun index _ inside => settles index (by omega)) []).imp
    fun all index inside => all index (Nat.zero_le index) (by omega)

theorem settles_traverseFrom {step : α → Run β} {expected : α → Prop} {members : List α}
    (settles : ∀ member ∈ members, (step member).Settles world (expected member) reason)
    (collected : List β) :
    (traverseFrom step collected members).Settles world
      (∀ member ∈ members, expected member) reason := by
  induction members generalizing collected with
  | nil => exact .done (outcome_pure _ world) (List.forall_mem_nil _)
  | cons member members inductionHypothesis =>
    rw [traverseFrom]
    refine (settles member List.mem_cons_self).bind fun value here => ?_
    have rest := inductionHypothesis
      (fun other further => settles other (List.mem_cons_of_mem member further))
      (value :: collected)
    exact rest.imp fun others => List.forall_mem_cons.mpr ⟨here, others⟩

theorem settles_traverse {step : α → Run β} {expected : α → Prop} {members : List α}
    (settles : ∀ member ∈ members, (step member).Settles world (expected member) reason) :
    (traverse members step).Settles world (∀ member ∈ members, expected member) reason :=
  settles_traverseFrom settles []

end Run

/-! ### What containers hold -/

namespace World

variable {world : World} {start value : Value} {id inner : ObjectId} {path : List ObjectId}

/-- The object is a container: conversion goes into it, as it does into all but functions. -/
def IsContainer (world : World) (id : ObjectId) : Prop := world.isCallable (.object id) = false

/-- The number of elements of an array, if its length shows and is no object. -/
def shownLength? (world : World) (id : ObjectId) : Option Nat :=
  match world.shown? id .length with
  | some (.object _) => none
  | some primitive => some primitive.primitiveNumber.toLength
  | none => none

/-- The object holds the value: an array among its elements, any other object in an enumerable
property of its own. -/
inductive Contains (world : World) (id : ObjectId) : Value → Prop
  | element {length index : Nat} {value : Value} (array : world.isArray (.object id) = true)
      (counted : world.shownLength? id = some length) (inside : index < length)
      (shown : world.shown? id (.ofIndex index) = some value) : Contains world id value
  | member {key : Key} {value : Value} (noArray : world.isArray (.object id) = false)
      (listed : key ∈ (world.object id).enumerableKeys)
      (shown : world.shown? id key = some value) : Contains world id value

/-- A container holds another. -/
structure Nests (world : World) (outer inner : ObjectId) : Prop where
  fromContainer : world.IsContainer outer
  toContainer : world.IsContainer inner
  contains : world.Contains outer (.object inner)

/-- Conversion of a value comes to another: to itself, and to what a container holds to which it
comes. -/
inductive Meets (world : World) (start : Value) : Value → Prop
  | start : Meets world start start
  | inside {id : ObjectId} {value : Value} (outer : Meets world start (.object id))
      (container : world.IsContainer id) (contains : world.Contains id value) :
      Meets world start value

/-- The containers are on a path from the value, each held by the one before. -/
structure IsPath (world : World) (start : Value) (path : List ObjectId) : Prop where
  first : ∀ id ∈ path.head?, start = .object id ∧ world.IsContainer id
  chain : path.IsChain world.Nests

/-- All that conversion reads of the object shows without a call. Nothing under `toJSON` can be
called; and if the object is a container, then a length that is no object shows of an array and so
do all elements below it, and of any other object all enumerable properties show. -/
structure Legible (world : World) (id : ObjectId) : Prop where
  inert : world.Inert id
  length : world.IsContainer id → world.isArray (.object id) = true →
    (world.shownLength? id).isSome = true
  element : world.IsContainer id → world.isArray (.object id) = true →
    ∀ length, world.shownLength? id = some length →
      ∀ index < length, (world.shown? id (.ofIndex index)).isSome = true
  member : world.IsContainer id → world.isArray (.object id) = false →
    ∀ key ∈ (world.object id).enumerableKeys, (world.shown? id key).isSome = true

/-- Whatever is looked up on a prototype chain that ends and has data properties only shows without
a call. -/
theorem isSome_shown? {chain : List ObjectId} (hasChain : world.HasChain id chain)
    (data : ∀ holder ∈ chain, (world.object holder).DataOnly) (key : Key) :
    (world.shown? id key).isSome = true := by
  rw [shown?]
  rcases hasChain.search_cases key with ⟨holder, property, nearest, found⟩ | ⟨_, absent⟩
  · obtain ⟨owner, member, own⟩ := List.exists_of_findSome?_eq_some nearest
    rw [found]
    cases property with
    | data => rfl
    | accessor => cases data owner member key _ own
  · rw [absent]
    rfl

theorem legible_of_data {chain : List ObjectId} (hasChain : world.HasChain id chain)
    (data : ∀ holder ∈ chain, (world.object holder).DataOnly)
    (noMethod : ∀ method, world.shown? id (.text "toJSON") = some method →
      world.isCallable method = false)
    (length : world.isArray (.object id) = true → (world.shownLength? id).isSome = true) :
    world.Legible id where
  inert := by
    obtain ⟨method, shown⟩ := Option.isSome_iff_exists.mp
      (isSome_shown? hasChain data (.text "toJSON"))
    exact ⟨method, shown, noMethod method shown⟩
  length _ := length
  element _ _ _ _ _ _ := isSome_shown? hasChain data _
  member _ _ _ _ := isSome_shown? hasChain data _

/-! ### Paths -/

/-- A path that is not empty begins with the value and goes on from what that holds. -/
theorem IsPath.of_cons (isPath : world.IsPath start (id :: path)) :
    start = .object id ∧ world.IsContainer id ∧
      ∀ inner ∈ path.head?, world.Contains id (.object inner) ∧
        world.IsPath (.object inner) path := by
  obtain ⟨same, container⟩ := isPath.first id rfl
  refine ⟨same, container, fun inner next => ?_⟩
  obtain ⟨rest, rfl⟩ : ∃ rest, path = inner :: rest := by
    cases path with
    | nil => cases next
    | cons other rest => cases next; exact ⟨rest, rfl⟩
  obtain ⟨nests, chain⟩ := List.isChain_cons_cons.mp isPath.chain
  refine ⟨nests.contains, ?_, chain⟩
  rintro _ ⟨⟩
  exact ⟨rfl, nests.toContainer⟩

/-- A path goes on to any container that its last one holds. -/
theorem IsPath.concat {last : ObjectId} (isPath : world.IsPath start path)
    (ends : path.getLast? = some last) (nests : world.Nests last inner) :
    world.IsPath start (path ++ [inner]) where
  first other head := by
    cases path with
    | nil => cases ends
    | cons => exact isPath.first other head
  chain := List.isChain_append.mpr ⟨isPath.chain, .singleton _, fun other isLast next same => by
    rw [ends, Option.mem_some_iff] at isLast
    cases same
    exact isLast ▸ nests⟩

/-- It goes on along any containers that hold one another. -/
theorem IsPath.extend {last : ObjectId} (isPath : world.IsPath start path)
    (ends : path.getLast? = some last) (further : Relation.TransGen world.Nests last inner) :
    ∃ longer, world.IsPath start longer ∧ longer.getLast? = some inner ∧
      path.length < longer.length := by
  induction further with
  | single nests =>
    refine ⟨_, isPath.concat ends nests, List.getLast?_concat, ?_⟩
    rw [List.length_append]
    exact Nat.lt_succ_self _
  | tail _ nests inductionHypothesis =>
    obtain ⟨between, isPathBetween, endsBetween, longer⟩ := inductionHypothesis
    refine ⟨_, isPathBetween.concat endsBetween nests, List.getLast?_concat, ?_⟩
    rw [List.length_append]
    exact Nat.lt_succ_of_lt longer

/-- A path leads to every container that conversion comes to. -/
theorem Meets.exists_path (meets : world.Meets start (.object id))
    (container : world.IsContainer id) :
    ∃ path, world.IsPath start path ∧ path.getLast? = some id := by
  generalize same : Value.object id = value at meets
  induction meets generalizing id with
  | start =>
    refine ⟨[id], ⟨?_, .singleton _⟩, rfl⟩
    rintro _ ⟨⟩
    exact ⟨same.symm, container⟩
  | inside outer outerContainer contains inductionHypothesis =>
    subst same
    obtain ⟨path, isPath, ends⟩ := inductionHypothesis outerContainer rfl
    exact ⟨_, isPath.concat ends ⟨outerContainer, container, contains⟩, List.getLast?_concat⟩

/-- Around a cycle there are paths of any length. -/
theorem exists_path_of_cycle (meets : world.Meets start (.object id))
    (cycle : Relation.TransGen world.Nests id id) (bound : Nat) :
    ∃ path, world.IsPath start path ∧ path.getLast? = some id ∧ bound ≤ path.length := by
  induction bound with
  | zero =>
    have container : world.IsContainer id := by
      obtain ⟨next, nests, _⟩ := Relation.TransGen.head'_iff.mp cycle
      exact nests.fromContainer
    obtain ⟨path, isPath, ends⟩ := meets.exists_path container
    exact ⟨path, isPath, ends, Nat.zero_le _⟩
  | succ bound inductionHypothesis =>
    obtain ⟨path, isPath, ends, enough⟩ := inductionHypothesis
    obtain ⟨longer, isPathLonger, endsLonger, more⟩ := isPath.extend ends cycle
    exact ⟨longer, isPathLonger, endsLonger, Nat.lt_of_le_of_lt enough more⟩

/-! ### Enclosing containers -/

/-- Conversion comes to the value inside the given containers, innermost first, none of which is
inside itself. -/
inductive Trail (world : World) (start : Value) : List ObjectId → Value → Prop
  | start : Trail world start [] start
  | inside {enclosing : List ObjectId} {id : ObjectId} {value : Value}
      (outer : Trail world start enclosing (.object id)) (container : world.IsContainer id)
      (new : id ∉ enclosing) (contains : world.Contains id value) :
      Trail world start (id :: enclosing) value

namespace Trail

variable {enclosing : List ObjectId}

theorem meets (trail : world.Trail start enclosing value) : world.Meets start value := by
  induction trail with
  | start => exact .start
  | inside _ container _ contains inductionHypothesis =>
    exact .inside inductionHypothesis container contains

theorem nodup (trail : world.Trail start enclosing value) : enclosing.Nodup := by
  induction trail with
  | start => exact List.nodup_nil
  | inside _ _ new _ inductionHypothesis => exact List.nodup_cons.mpr ⟨new, inductionHypothesis⟩

/-- From the outside to the inside the containers are a path. -/
theorem isPath (trail : world.Trail start enclosing (.object id))
    (container : world.IsContainer id) : world.IsPath start (id :: enclosing).reverse := by
  generalize same : Value.object id = value at trail
  induction trail generalizing id with
  | start =>
    refine ⟨?_, .singleton _⟩
    rintro _ ⟨⟩
    exact ⟨same.symm, container⟩
  | inside _ outerContainer _ contains inductionHypothesis =>
    subst same
    rw [List.reverse_cons]
    refine (inductionHypothesis outerContainer rfl).concat ?_ ⟨outerContainer, container, contains⟩
    rw [List.reverse_cons, List.getLast?_concat]

/-- Each of them leads to a container that is come to inside them all. -/
theorem transGen (trail : world.Trail start enclosing (.object id))
    (container : world.IsContainer id) {outer : ObjectId} (member : outer ∈ enclosing) :
    Relation.TransGen world.Nests outer id := by
  generalize same : Value.object id = value at trail
  induction trail generalizing id with
  | start => cases member
  | inside _ outerContainer _ contains inductionHypothesis =>
    subst same
    have nests : world.Nests _ id := ⟨outerContainer, container, contains⟩
    rcases List.mem_cons.mp member with rfl | further
    · exact .single nests
    · exact (inductionHypothesis outerContainer further rfl).tail nests

end Trail

end World

/-! ### Conversion -/

theorem outcome_lengthOf_of_shown (call : Caller) (realm : RealmId) {world : World} {id : ObjectId}
    {length : Nat} (shown : world.shownLength? id = some length) :
    (lengthOf call realm id).outcome world = .done length world := by
  rw [World.shownLength?] at shown
  split at shown
  · cases shown
  · rename_i value noObject found
    cases shown
    rw [lengthOf, Run.outcome_bind_of_done (outcome_get call realm found)]
    cases value with
    | object other => exact absurd rfl (noObject other)
    | _ => rfl
  · cases shown

namespace Json

/-- The error has a reason in what conversion of the value comes to: a container on a cycle, or a
path through more containers than may nest. -/
inductive Blames (world : World) (start : Value) : Error → Prop
  | circular {id : ObjectId} (meets : world.Meets start (.object id))
      (cycle : Relation.TransGen world.Nests id id) : Blames world start .circular
  | tooDeep {path : List ObjectId} (isPath : world.IsPath start path) (distinct : path.Nodup)
      (long : path.length = maxDepth + 1) : Blames world start (.json .tooDeep)

/-- No path from the value is longer. -/
def PathsWithin (world : World) (room : Nat) (value : Value) : Prop :=
  ∀ path, world.IsPath value path → path.length ≤ room

variable {world : World} {start value : Value} {id : ObjectId} {enclosing : List ObjectId}
  {room : Nat} {inner : Value → Run (Option Tree)} {reason : Error → Prop}

/-- No path begins with what is no container. -/
theorem pathsWithin_of_no_container
    (none : ∀ id, value = .object id → ¬ world.IsContainer id) : PathsWithin world room value := by
  intro path isPath
  cases path with
  | nil => exact Nat.zero_le room
  | cons id path =>
    obtain ⟨same, container, _⟩ := isPath.of_cons
    exact absurd container (none id same)

/-- Through a container there is one container more. -/
theorem pathsWithin_of_contains
    (below : ∀ value, world.Contains id value → PathsWithin world room value) :
    PathsWithin world (room + 1) (.object id) := by
  intro path isPath
  cases path with
  | nil => exact Nat.zero_le _
  | cons other path =>
    obtain ⟨same, _, further⟩ := isPath.of_cons
    cases same
    refine Nat.succ_le_succ ?_
    cases path with
    | nil => exact Nat.zero_le _
    | cons inner path =>
      obtain ⟨contains, isPath⟩ := further inner rfl
      exact below _ contains _ isPath

section

variable (call : Caller) (realm : RealmId) (legible : world.Legible id)
  (container : world.IsContainer id)
  (settles : ∀ value, world.Contains id value →
    (inner value).Settles world (PathsWithin world room value) reason)
include legible container settles

theorem settles_arrayTree (array : world.isArray (.object id) = true) :
    (arrayTree call realm inner id).Settles world (PathsWithin world (room + 1) (.object id))
      reason := by
  obtain ⟨length, shownLength⟩ := Option.isSome_iff_exists.mp (legible.length container array)
  have loop : (Run.collect length fun index => do
      return (← inner (← get call realm id (.ofIndex index))).getD .null).Settles world
      (∀ index < length, ∀ value, world.shown? id (.ofIndex index) = some value →
        PathsWithin world room value) reason := by
    refine Run.settles_collect fun index inside => ?_
    obtain ⟨value, shown⟩ := Option.isSome_iff_exists.mp
      (legible.element container array length shownLength index inside)
    have below := settles value (.element array shownLength inside shown)
    refine .after (outcome_get call realm shown) ((below.map _).imp fun paths other same => ?_)
    rw [shown, Option.some.injEq] at same
    exact same ▸ paths
  rw [arrayTree]
  refine .after (outcome_lengthOf_of_shown call realm shownLength) ((loop.map _).imp fun all => ?_)
  refine pathsWithin_of_contains fun value contains => ?_
  cases contains with
  | element _ same inside shown =>
    rw [shownLength, Option.some.injEq] at same
    exact all _ (same ▸ inside) value shown
  | member noArray => rw [array] at noArray; cases noArray

theorem settles_objectTree (noArray : world.isArray (.object id) = false) :
    (objectTree call realm inner id).Settles world (PathsWithin world (room + 1) (.object id))
      reason := by
  have loop : (Run.traverse (world.object id).ownKeys (memberTree call realm inner id)).Settles
      world (∀ key ∈ (world.object id).ownKeys, (world.object id).isEnumerable key = true →
        ∀ value, world.shown? id key = some value → PathsWithin world room value) reason := by
    refine Run.settles_traverse fun key listed => .after (Run.outcome_object id world) ?_
    split
    · rename_i enumerable
      have member : key ∈ (world.object id).enumerableKeys :=
        List.mem_filter.mpr ⟨listed, enumerable⟩
      obtain ⟨value, shown⟩ := Option.isSome_iff_exists.mp
        (legible.member container noArray key member)
      have below := settles value (.member noArray member shown)
      refine .after (outcome_get call realm shown) ((below.map _).imp fun paths _ other same => ?_)
      rw [shown, Option.some.injEq] at same
      exact same ▸ paths
    · rename_i passed
      exact .done (Run.outcome_pure none world) fun enumerable => absurd enumerable passed
  rw [objectTree]
  refine .after (Run.outcome_object id world) ((loop.map _).imp fun all => ?_)
  refine pathsWithin_of_contains fun value contains => ?_
  cases contains with
  | element array => rw [array] at noArray; cases noArray
  | member _ member shown =>
    obtain ⟨listed, enumerable⟩ := List.mem_filter.mp member
    exact all _ listed enumerable value shown

end

section

variable (call : Caller) (realm : RealmId)
  (legible : ∀ id, world.Meets start (.object id) → world.Legible id)
include legible

/-- A function has no tree, and no path begins with it. -/
theorem settles_treeWithin_of_function (trail : world.Trail start enclosing (.object id))
    (callable : world.isCallable (.object id) = true) :
    (treeWithin call realm room enclosing (.object id)).Settles world
      (PathsWithin world room (.object id)) (Blames world start) := by
  have answered : (Run.isCallable (.object id)).outcome world = .done true world :=
    congrArg (Outcome.done · world) callable
  rw [treeWithin.eq_def]
  refine .after (outcome_replacement call realm (legible id trail.meets).inert) ?_
  refine .after answered ?_
  rw [if_pos rfl]
  refine .done (Run.outcome_pure none world) (pathsWithin_of_no_container ?_)
  rintro _ ⟨⟩ container
  rw [World.IsContainer, callable] at container
  cases container

/-- A container that encloses itself lies on a cycle, and one for which there is no room is the end
of a path that is too long. Into any other conversion goes on. -/
theorem settles_treeWithin_of_container (trail : world.Trail start enclosing (.object id))
    (container : world.IsContainer id) (full : enclosing.length + room = maxDepth)
    (below : ∀ inside, room = inside + 1 → id ∉ enclosing → ∀ value, world.Contains id value →
      (treeWithin call realm inside (id :: enclosing) value).Settles world
        (PathsWithin world inside value) (Blames world start)) :
    (treeWithin call realm room enclosing (.object id)).Settles world
      (PathsWithin world room (.object id)) (Blames world start) := by
  have legibleHere := legible id trail.meets
  have answered : (Run.isCallable (.object id)).outcome world = .done false world :=
    congrArg (Outcome.done · world) container
  have kind : (Run.isArray (.object id)).outcome world =
      .done (world.isArray (.object id)) world := rfl
  rw [treeWithin.eq_def]
  refine .after (outcome_replacement call realm legibleHere.inert) (.after answered ?_)
  rw [if_neg Bool.false_ne_true]
  split
  · rename_i again
    exact .threw (Run.outcome_throw _ world)
      (.circular trail.meets (trail.transGen container again))
  · rename_i new
    cases room with
    | zero =>
      have distinct : (id :: enclosing).reverse.Nodup :=
        List.nodup_reverse.mpr (List.nodup_cons.mpr ⟨new, trail.nodup⟩)
      refine .threw (Run.outcome_throw _ world) (.tooDeep (trail.isPath container) distinct ?_)
      rw [List.length_reverse, List.length_cons, ← full, Nat.add_zero]
    | succ inside =>
      have settles := below inside rfl new
      refine .after kind ?_
      split
      · rename_i array
        exact (settles_arrayTree call realm legibleHere container settles array).map some
      · rename_i noArray
        exact (settles_objectTree call realm legibleHere container settles
          (Bool.eq_false_iff.mpr noArray)).map some

/-- Inside the containers that enclose it, of which there may be so many more, a value is converted
and has no path that is longer, or there is a reason for the failure. -/
theorem settles_treeWithin (trail : world.Trail start enclosing value)
    (full : enclosing.length + room = maxDepth) :
    (treeWithin call realm room enclosing value).Settles world (PathsWithin world room value)
      (Blames world start) := by
  induction room using Nat.strongRecOn generalizing enclosing value with
  | _ room inductionHypothesis =>
    cases value with
    | object id =>
      cases callable : world.isCallable (.object id) with
      | true => exact settles_treeWithin_of_function call realm legible trail callable
      | false =>
        refine settles_treeWithin_of_container call realm legible trail callable full ?_
        rintro inside rfl new value contains
        exact inductionHypothesis inside (Nat.lt_succ_self inside)
          (trail.inside callable new contains) (by rw [List.length_cons]; omega)
    | _ =>
      rw [treeWithin.eq_def]
      refine .done rfl (pathsWithin_of_no_container fun id same => ?_)
      cases same

end

/-- Where all that conversion to JSON reads shows without a call, it succeeds exactly if no
container to which it comes lies on a cycle and no path goes through more than 512 containers. When
it fails, then with an error of type, and some container to which it comes does lie on a cycle, or
with one of range, and there is a path through 513 different containers. -/
theorem stringify_verdict (call : Caller) (realm : RealmId) (world : World) (value : Value)
    (legible : ∀ id, world.Meets value (.object id) → world.Legible id) :
    ((∃ text after, (stringify call realm value).outcome world = .done text after) ↔
      (∀ id, world.Meets value (.object id) → ¬ Relation.TransGen world.Nests id id) ∧
        ∀ path, world.IsPath value path → path.length ≤ 512) ∧
    ((∃ text after, (stringify call realm value).outcome world = .done text after) ∨
      ∃ error after, (stringify call realm value).outcome world = .threw error after ∧
        (error.kind = .typeError ∧
            (∃ id, world.Meets value (.object id) ∧ Relation.TransGen world.Nests id id) ∨
          error.kind = .rangeError ∧
            ∃ path, world.IsPath value path ∧ path.Nodup ∧ 513 ≤ path.length)) := by
  have settles := (settles_treeWithin call realm legible .start (Nat.zero_add maxDepth)).map
    fun tree => tree.map Tree.compact
  cases settles with
  | done ended paths =>
    have succeeds : ∃ text after, (stringify call realm value).outcome world = .done text after :=
      ⟨_, _, ended⟩
    refine ⟨⟨fun _ => ⟨fun id meets cycle => ?_, paths⟩, fun _ => succeeds⟩, Or.inl succeeds⟩
    obtain ⟨path, isPath, _, long⟩ := World.exists_path_of_cycle meets cycle (maxDepth + 1)
    exact absurd (paths path isPath) (Nat.not_le_of_lt long)
  | threw ended because =>
    have fails : ¬ ∃ text after,
        (stringify call realm value).outcome world = .done text after := by
      rintro ⟨text, after, done⟩
      rw [stringify, ended] at done
      cases done
    cases because with
    | circular meets cycle =>
      exact ⟨⟨fun done => absurd done fails, fun free => absurd cycle (free.1 _ meets)⟩,
        Or.inr ⟨_, _, ended, Or.inl ⟨rfl, _, meets, cycle⟩⟩⟩
    | tooDeep isPath distinct long =>
      refine ⟨⟨fun done => absurd done fails, fun free => ?_⟩,
        Or.inr ⟨_, _, ended, Or.inr ⟨rfl, _, isPath, distinct, Nat.le_of_eq long.symm⟩⟩⟩
      have short := free.2 _ isPath
      rw [long] at short
      exact absurd short (Nat.not_succ_le_self maxDepth)

/-- A fresh world with an array besides that is its own only element. -/
def loopWorld : World :=
  (World.fresh 1).add 0 ((Object.emptyArray 0).createdAll [(.ofIndex 0, .object ⟨0, 20⟩)])

/-- An array that holds itself has no text. -/
theorem stringify_verdict_on_loop :
    ¬ ∃ text after, (stringify (callWithin 0) 0 (.object ⟨0, 20⟩)).outcome loopWorld =
      .done text after := by
  have array : loopWorld.isArray (.object ⟨0, 20⟩) = true := by decide +kernel
  have counted : loopWorld.shownLength? ⟨0, 20⟩ = some 1 := by decide +kernel
  have element : loopWorld.shown? ⟨0, 20⟩ (.ofIndex 0) = some (.object ⟨0, 20⟩) := by
    decide +kernel
  have alone : ∀ value, loopWorld.Meets (.object ⟨0, 20⟩) value → value = .object ⟨0, 20⟩ := by
    intro value meets
    induction meets with
    | start => rfl
    | inside _ _ contains inductionHypothesis =>
      cases inductionHypothesis
      cases contains with
      | element _ same inside shown =>
        cases counted.symm.trans same
        cases Nat.lt_one_iff.mp inside
        exact Option.some.inj (shown.symm.trans element)
      | member noArray => rw [array] at noArray; cases noArray
  have legible : loopWorld.Legible ⟨0, 20⟩ := by
    have hasChain : loopWorld.HasChain ⟨0, 20⟩
        [⟨0, 20⟩, Intrinsic.arrayPrototype.id 0, Intrinsic.objectPrototype.id 0] :=
      .next (by decide +kernel) (.next (by decide +kernel) (.last (by decide +kernel)))
    refine World.legible_of_data hasChain (by decide +kernel) (fun method shown => ?_) fun _ => ?_
    · have absent : loopWorld.shown? ⟨0, 20⟩ (.text "toJSON") = some .undefined := by
        decide +kernel
      cases absent.symm.trans shown
      rfl
    · rw [counted]
      rfl
  have container : loopWorld.IsContainer ⟨0, 20⟩ :=
    show loopWorld.isCallable (.object ⟨0, 20⟩) = false by decide +kernel
  have nests : loopWorld.Nests ⟨0, 20⟩ ⟨0, 20⟩ :=
    ⟨container, container, .element array counted Nat.one_pos element⟩
  intro succeeds
  have verdict := stringify_verdict (callWithin 0) 0 loopWorld (.object ⟨0, 20⟩)
    fun id meets => by cases alone _ meets; exact legible
  exact (verdict.1.mp succeeds).1 ⟨0, 20⟩ .start (.single nests)

end Json

end EcmaCore
