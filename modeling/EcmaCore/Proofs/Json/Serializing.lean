/-
This file is about values whose conversion to JSON calls nothing. A property shows its
value without a call if it is found as data, or not found at all; a value tells a tree if
all that conversion reads of it shows, and nothing that stands under `toJSON` can be
called. Then the conversion ends in exactly that tree and leaves the world as it is.

What a value tells has a rank, which bounds how deep containers nest. Sharing is no
obstacle, and a value of some rank is part of no cycle: the conversion compares a
container with those around it, and they are all of a greater least rank.
-/

import EcmaCore.Json.Value
import EcmaCore.Proofs.World.Chains

namespace EcmaCore

/-! ### What shows without a call -/

/-- The value that a search comes to without a call. -/
def Search.shown? : Search → Option Value
  | .found _ (.data value _ _ _) => some value
  | .found _ (.accessor none _ _ _) => some .undefined
  | .found _ (.accessor (some _) _ _ _) => none
  | .absent => some .undefined
  | .endless => none

namespace World

/-- The value that reading a property of an object yields without a call. -/
def shown? (world : World) (id : ObjectId) (key : Key) : Option Value :=
  (world.search id key).shown?

/-- Conversion to JSON takes the object itself, since nothing under `toJSON` can be called. -/
def Inert (world : World) (id : ObjectId) : Prop :=
  ∃ value, world.shown? id (.text "toJSON") = some value ∧ world.isCallable value = false

end World

theorem shown?_of_own? {world : World} {id : ObjectId} {key : Key} {value : Value}
    {writable enumerable configurable : Bool}
    (slot : (world.object id).own? key = some (.data value writable enumerable configurable)) :
    world.shown? id key = some value := by
  rw [World.shown?, World.search_of_own? slot]
  rfl

/-- What is absent on the prototype and not owned reads as undefined. -/
theorem shown?_of_prototype {world : World} {id parent : ObjectId} {key : Key}
    (missing : (world.object id).own? key = none)
    (next : (world.object id).prototype = some parent)
    (absent : world.search parent key = .absent) : world.shown? id key = some .undefined := by
  have ended : world.search parent key ≠ .endless := by
    rw [absent]
    exact nofun
  rw [World.shown?, World.search_of_prototype missing next ended, absent]
  rfl

variable (call : Caller) (realm : RealmId) {world : World} {id : ObjectId} {key : Key}
  {value : Value}

/-- Reading a property whose value shows yields the value. -/
theorem outcome_get (shown : world.shown? id key = some value) :
    (get call realm id key).outcome world = .done value world := by
  rw [World.shown?] at shown
  rw [get, getFor]
  cases found : world.search id key with
  | found holder property =>
    rw [found] at shown
    rw [Run.outcome_bind_of_done (Run.outcome_search_of_found found)]
    cases property with
    | data content writable enumerable configurable =>
      cases shown
      rfl
    | accessor getter setter enumerable configurable =>
      cases getter with
      | none =>
        cases shown
        rfl
      | some getter => cases shown
  | absent =>
    rw [found] at shown
    rw [Run.outcome_bind_of_done (Run.outcome_search_of_absent found)]
    cases shown
    rfl
  | endless =>
    rw [found] at shown
    cases shown

theorem outcome_lengthOf {number : Number}
    (shown : world.shown? id .length = some (.number number)) :
    (lengthOf call realm id).outcome world = .done number.toLength world := by
  rw [lengthOf, Run.outcome_bind_of_done (outcome_get call realm shown)]
  rfl

namespace Json

theorem outcome_replacement (inert : world.Inert id) :
    (replacement call realm (.object id)).outcome world = .done (.object id) world := by
  obtain ⟨method, shown, plain⟩ := inert
  have answered : (Run.isCallable method).outcome world = .done false world := by
    rw [Run.isCallable, Run.outcome_read, plain]
  rw [replacement, Run.outcome_bind_of_done (outcome_get call realm shown),
    Run.outcome_bind_of_done answered]
  rfl

/-! ### What a value tells -/

/-- The value tells a tree, or that it has none, without a call. Containers in it nest at most as
deep as its rank. -/
inductive Tells (world : World) : Nat → Value → Option Tree → Prop
  | undefined (rank : Nat) : Tells world rank .undefined none
  | null (rank : Nat) : Tells world rank .null (some .null)
  | boolean (rank : Nat) (flag : Bool) : Tells world rank (.boolean flag) (some (.boolean flag))
  | number (rank : Nat) (number : EcmaCore.Number) :
      Tells world rank (.number number) (some (.ofNumber number))
  | string (rank : Nat) (units : Units) :
      Tells world rank (.string units) (some (.string (repaired units)))
  | function (rank : Nat) {id : ObjectId} (inert : world.Inert id)
      (callable : world.isCallable (.object id) = true) : Tells world rank (.object id) none
  | array {rank : Nat} {id : ObjectId} {number : EcmaCore.Number} {values : Nat → Value}
      {trees : Nat → Option Tree} (inert : world.Inert id)
      (plain : world.isCallable (.object id) = false) (isArray : world.isArray (.object id) = true)
      (length : world.shown? id .length = some (.number number))
      (shown : ∀ index < number.toLength, world.shown? id (.ofIndex index) = some (values index))
      (below : ∀ index < number.toLength, Tells world rank (values index) (trees index)) :
      Tells world (rank + 1) (.object id)
        (some (.array ((List.range number.toLength).map fun index => (trees index).getD .null)))
  | object {rank : Nat} {id : ObjectId} {values : Key → Value} {trees : Key → Option Tree}
      (inert : world.Inert id) (plain : world.isCallable (.object id) = false)
      (noArray : world.isArray (.object id) = false)
      (shown : ∀ key ∈ (world.object id).enumerableKeys, world.shown? id key = some (values key))
      (below : ∀ key ∈ (world.object id).enumerableKeys, Tells world rank (values key) (trees key)) :
      Tells world (rank + 1) (.object id)
        (some (.object (mergedMembers ((world.object id).enumerableKeys.map fun key =>
          (trees key).map fun tree => (repaired key.units, tree)))))

variable {rank : Nat} {tree : Option Tree}

/-- A value tells at any rank above one at which it does. -/
theorem Tells.mono (tells : Tells world rank value tree) {more : Nat} (atMost : rank ≤ more) :
    Tells world more value tree := by
  induction tells generalizing more with
  | undefined => exact .undefined more
  | null => exact .null more
  | boolean rank flag => exact .boolean more flag
  | number rank number => exact .number more number
  | string rank units => exact .string more units
  | function rank inert callable => exact .function more inert callable
  | array inert plain isArray length shown below inductionHypothesis =>
    obtain ⟨more, rfl⟩ : ∃ further, more = further + 1 := ⟨more - 1, by omega⟩
    exact .array inert plain isArray length shown fun index inside =>
      inductionHypothesis index inside (Nat.le_of_succ_le_succ atMost)
  | object inert plain noArray shown below inductionHypothesis =>
    obtain ⟨more, rfl⟩ : ∃ further, more = further + 1 := ⟨more - 1, by omega⟩
    exact .object inert plain noArray shown fun key member =>
      inductionHypothesis key member (Nat.le_of_succ_le_succ atMost)

/-- A value tells one tree only. -/
theorem Tells.unique (tells : Tells world rank value tree) {otherRank : Nat} {other : Option Tree}
    (tellsOther : Tells world otherRank value other) : tree = other := by
  induction tells generalizing otherRank other with
  | undefined => cases tellsOther; rfl
  | null => cases tellsOther; rfl
  | boolean rank flag => cases tellsOther; rfl
  | number rank number => cases tellsOther; rfl
  | string rank units => cases tellsOther; rfl
  | function rank inert callable =>
    cases tellsOther with
    | function => rfl
    | array _ plain => rw [plain] at callable; cases callable
    | object _ plain => rw [plain] at callable; cases callable
  | array inert plain isArray length shown below inductionHypothesis =>
    cases tellsOther with
    | function _ _ callable => rw [plain] at callable; cases callable
    | object _ _ noArray => rw [isArray] at noArray; cases noArray
    | array _ _ _ lengthOther shownOther belowOther =>
      cases length.symm.trans lengthOther
      refine congrArg (some ∘ Tree.array) (List.map_congr_left fun index member => ?_)
      have inside := List.mem_range.mp member
      have same := Option.some.inj ((shown index inside).symm.trans (shownOther index inside))
      have told := belowOther index inside
      rw [← same] at told
      rw [inductionHypothesis index inside told]
  | object inert plain noArray shown below inductionHypothesis =>
    cases tellsOther with
    | function _ _ callable => rw [plain] at callable; cases callable
    | array _ _ isArray => rw [isArray] at noArray; cases noArray
    | object _ _ _ shownOther belowOther =>
      refine congrArg (fun members => some (Tree.object (mergedMembers members)))
        (List.map_congr_left fun key member => ?_)
      have same := Option.some.inj ((shown key member).symm.trans (shownOther key member))
      have told := belowOther key member
      rw [← same] at told
      rw [inductionHypothesis key member told]

theorem Tells.isCallable_eq_false {tree : Tree} (tells : Tells world rank value (some tree)) :
    world.isCallable value = false := by
  cases tells with
  | array _ plain => exact plain
  | object _ plain => exact plain
  | _ => rfl

/-! ### Conversion -/

/-- Members that are not there leave no trace. -/
theorem mergedMembers_filter (keys : List Key) (keep : Key → Bool)
    (member : Key → Option (Units × Tree)) :
    mergedMembers (keys.map fun key => if keep key then member key else none) =
      mergedMembers ((keys.filter keep).map member) := by
  unfold mergedMembers
  generalize ([] : List (Units × Tree)) = written
  induction keys generalizing written with
  | nil => rfl
  | cons key keys inductionHypothesis =>
    rw [List.map_cons, List.foldl_cons, inductionHypothesis]
    cases kept : keep key with
    | true => rw [List.filter_cons_of_pos kept, List.map_cons, List.foldl_cons, if_pos rfl]
    | false =>
      rw [List.filter_cons_of_neg (by rw [kept]; exact Bool.false_ne_true),
        if_neg Bool.false_ne_true]
      rfl

variable {inner : Value → Run (Option Tree)}

theorem outcome_arrayTree {number : EcmaCore.Number} {values : Nat → Value}
    {trees : Nat → Option Tree} (length : world.shown? id .length = some (.number number))
    (shown : ∀ index < number.toLength, world.shown? id (.ofIndex index) = some (values index))
    (ends : ∀ index < number.toLength,
      (inner (values index)).outcome world = .done (trees index) world) :
    (arrayTree call realm inner id).outcome world =
      .done (.array ((List.range number.toLength).map fun index => (trees index).getD .null))
        world := by
  have collected : (Run.collect number.toLength fun index => do
      return (← inner (← get call realm id (.ofIndex index))).getD .null).outcome world =
      .done ((List.range number.toLength).map fun index => (trees index).getD .null) world := by
    refine Run.outcome_collect fun index inside => ?_
    rw [Run.outcome_bind_of_done (outcome_get call realm (shown index inside)),
      Run.outcome_bind_of_done (ends index inside)]
    exact Run.outcome_pure _ world
  rw [arrayTree, Run.outcome_bind_of_done (outcome_lengthOf call realm length),
    Run.outcome_bind_of_done collected]
  exact Run.outcome_pure _ world

theorem outcome_objectTree {values : Key → Value} {trees : Key → Option Tree}
    (shown : ∀ key ∈ (world.object id).enumerableKeys, world.shown? id key = some (values key))
    (ends : ∀ key ∈ (world.object id).enumerableKeys,
      (inner (values key)).outcome world = .done (trees key) world) :
    (objectTree call realm inner id).outcome world =
      .done (.object (mergedMembers ((world.object id).enumerableKeys.map fun key =>
        (trees key).map fun tree => (repaired key.units, tree)))) world := by
  have traversed : (Run.traverse (world.object id).ownKeys (memberTree call realm inner id)).outcome
      world = .done ((world.object id).ownKeys.map fun key =>
        if (world.object id).isEnumerable key then
          (trees key).map fun tree => (repaired key.units, tree)
        else none) world := by
    refine Run.outcome_traverse fun key listed => ?_
    rw [memberTree, Run.outcome_bind_of_done (Run.outcome_object id world)]
    split
    · rename_i enumerable
      have member : key ∈ (world.object id).enumerableKeys :=
        List.mem_filter.mpr ⟨listed, enumerable⟩
      rw [Run.outcome_bind_of_done (outcome_get call realm (shown key member)),
        Run.outcome_bind_of_done (ends key member)]
      exact Run.outcome_pure _ world
    · exact Run.outcome_pure none world
  rw [objectTree, Run.outcome_bind_of_done (Run.outcome_object id world),
    Run.outcome_bind_of_done traversed, mergedMembers_filter]
  exact Run.outcome_pure _ world

theorem outcome_treeWithin_of_object (inert : world.Inert id)
    (plain : world.isCallable (.object id) = false) {enclosing : List ObjectId}
    (outside : id ∉ enclosing) (room : Nat) {tree : Tree}
    (ends : (if world.isArray (.object id) = true then
        arrayTree call realm (treeWithin call realm room (id :: enclosing)) id
      else objectTree call realm (treeWithin call realm room (id :: enclosing)) id).outcome world =
        .done tree world) :
    (treeWithin call realm (room + 1) enclosing (.object id)).outcome world =
      .done (some tree) world := by
  have answered : (Run.isCallable (.object id)).outcome world = .done false world := by
    rw [Run.isCallable, Run.outcome_read, plain]
  have kind : (Run.isArray (.object id)).outcome world =
      .done (world.isArray (.object id)) world := rfl
  rw [treeWithin.eq_def, Run.outcome_bind_of_done (outcome_replacement call realm inert)]
  dsimp only
  rw [Run.outcome_bind_of_done answered, if_neg Bool.false_ne_true, if_neg outside]
  rw [Run.outcome_bind_of_done kind]
  split
  · rename_i isArray
    rw [if_pos isArray] at ends
    rw [Run.outcome_bind_of_done ends]
    exact Run.outcome_pure _ world
  · rename_i noArray
    rw [if_neg noArray] at ends
    rw [Run.outcome_bind_of_done ends]
    exact Run.outcome_pure _ world

/-- Of a container and those around it none tells at the rank of what it holds, if that rank is too
small for the container. -/
theorem Tells.greater_cons (tells : Tells world (rank + 1) (.object id) tree)
    (least : ¬ Tells world rank (.object id) tree) {enclosing : List ObjectId}
    (greater : ∀ other ∈ enclosing, ∀ told, ¬ Tells world (rank + 1) (.object other) told) :
    ∀ other ∈ id :: enclosing, ∀ told, ¬ Tells world rank (.object other) told := by
  intro other member told tellsOther
  rcases List.mem_cons.mp member with rfl | member
  · rw [tellsOther.unique tells] at tellsOther
    exact least tellsOther
  · exact greater other member told (tellsOther.mono (Nat.le_succ rank))

/-- Conversion of a value that tells a tree ends in the tree, inside containers that do not tell at
the rank of the value. -/
theorem Tells.outcome_treeWithin (tells : Tells world rank value tree) {room : Nat}
    (atMost : rank ≤ room) {enclosing : List ObjectId}
    (greater : ∀ other ∈ enclosing, ∀ told, ¬ Tells world rank (.object other) told) :
    (treeWithin call realm room enclosing value).outcome world = .done tree world := by
  induction rank using Nat.strongRecOn generalizing value tree room enclosing with
  | _ rank inductionHypothesis =>
    -- Where the value tells at a smaller rank already, that rank is taken.
    by_cases smaller : ∃ less < rank, Tells world less value tree
    · obtain ⟨less, below, tellsBelow⟩ := smaller
      exact inductionHypothesis less below tellsBelow (by omega)
        fun other member told tellsOther =>
          greater other member told (tellsOther.mono (Nat.le_of_lt below))
    cases tells with
    | function rank inert callable =>
      rename_i id
      have answered : (Run.isCallable (.object id)).outcome world = .done true world := by
        rw [Run.isCallable, Run.outcome_read, callable]
      rw [treeWithin.eq_def, Run.outcome_bind_of_done (outcome_replacement call realm inert)]
      dsimp only
      rw [Run.outcome_bind_of_done answered]
      rfl
    | array inert plain isArray length shown below =>
      rename_i less id number values trees
      obtain ⟨inside, rfl⟩ : ∃ inside, room = inside + 1 := ⟨room - 1, by omega⟩
      have tells : Tells world (less + 1) (.object id) _ :=
        .array inert plain isArray length shown below
      have least := fun earlier => smaller ⟨less, Nat.lt_succ_self less, earlier⟩
      refine outcome_treeWithin_of_object call realm inert plain
        (fun member => greater id member _ tells) inside ?_
      rw [if_pos isArray]
      exact outcome_arrayTree call realm length shown fun index within =>
        inductionHypothesis less (Nat.lt_succ_self less) (below index within)
          (Nat.le_of_succ_le_succ atMost) (tells.greater_cons least greater)
    | object inert plain noArray shown below =>
      rename_i less id values trees
      obtain ⟨inside, rfl⟩ : ∃ inside, room = inside + 1 := ⟨room - 1, by omega⟩
      have tells : Tells world (less + 1) (.object id) _ :=
        .object inert plain noArray shown below
      have least := fun earlier => smaller ⟨less, Nat.lt_succ_self less, earlier⟩
      refine outcome_treeWithin_of_object call realm inert plain
        (fun member => greater id member _ tells) inside ?_
      rw [if_neg (by rw [noArray]; exact Bool.false_ne_true)]
      exact outcome_objectTree call realm shown fun key within =>
        inductionHypothesis less (Nat.lt_succ_self less) (below key within)
          (Nat.le_of_succ_le_succ atMost) (tells.greater_cons least greater)
    | _ =>
      rw [treeWithin.eq_def]
      rfl

/-- The text of a value that tells a tree is the compact text of the tree. -/
theorem Tells.outcome_stringify (tells : Tells world rank value tree) (shallow : rank ≤ maxDepth) :
    (stringify call realm value).outcome world = .done (tree.map Tree.compact) world := by
  have outermost : ∀ other ∈ ([] : List ObjectId), ∀ told,
      ¬ Tells world rank (.object other) told := fun _ member => absurd member List.not_mem_nil
  rw [stringify, Run.outcome_bind_of_done (tells.outcome_treeWithin call realm shallow outermost)]
  exact Run.outcome_pure _ world

end Json

end EcmaCore
