/-
This file says which keys an enumeration visits, and in which order. The first object on
the prototype chain that owns a key decides about it: if the key is enumerable there, it is
listed, and what objects further up own under the key makes no difference, be it listed
there or not. The keys of one owner stand together, in the order in which the owner lists
them, and the owners follow one another as they do on the chain.

Enumeration itself knows of no owners. It goes up the chain and remembers every key it has
met, listed or not; so the keys it remembers are those that some object below owns, and a
key that is new has its first owner where it is met.
-/

import EcmaCore.Proofs.Engine.Assigning

namespace EcmaCore.World

variable {world : World} {id owner : ObjectId} {key : Key}

/-! ### Chains that end -/

namespace HasChain

variable {chain other : List ObjectId}

theorem unique (hasChain : world.HasChain id chain) (hasOther : world.HasChain id other) :
    chain = other := by
  induction hasChain generalizing other with
  | last top =>
    cases hasOther with
    | last => rfl
    | next above => rw [top] at above; cases above
  | next above rest inductionHypothesis =>
    cases hasOther with
    | last top => rw [top] at above; cases above
    | next aboveOther restOther =>
      rw [above] at aboveOther
      cases aboveOther
      rw [inductionHypothesis restOther]

/-- The chain of an object on a chain is the rest of the chain from there on. -/
theorem of_mem (hasChain : world.HasChain id chain) (member : owner ∈ chain) :
    ∃ rest, world.HasChain owner rest ∧ rest.length ≤ chain.length := by
  induction hasChain with
  | last top =>
    cases List.mem_singleton.mp member
    exact ⟨_, .last top, Nat.le_refl _⟩
  | next above rest inductionHypothesis =>
    rcases List.mem_cons.mp member with rfl | further
    · exact ⟨_, .next above rest, Nat.le_refl _⟩
    · obtain ⟨short, hasShort, bound⟩ := inductionHypothesis further
      exact ⟨short, hasShort, Nat.le_succ_of_le bound⟩

/-- A chain that ends meets no object twice. -/
theorem nodup (hasChain : world.HasChain id chain) : chain.Nodup := by
  induction hasChain with
  | last => exact List.nodup_singleton _
  | next above rest inductionHypothesis =>
    refine List.nodup_cons.mpr ⟨fun again => ?_, inductionHypothesis⟩
    obtain ⟨short, hasShort, bound⟩ := rest.of_mem again
    rw [hasShort.unique (.next above rest), List.length_cons] at bound
    exact absurd bound (Nat.not_succ_le_self _)

theorem chainWithin_eq (hasChain : world.HasChain id chain) :
    world.chainWithin chain.length id = some chain := by
  induction hasChain with
  | last top => rw [List.length_singleton, chainWithin, top]
  | next above rest inductionHypothesis =>
    rw [List.length_cons, chainWithin, above]
    dsimp only
    rw [inductionHypothesis, Option.map_some]

/-- A walk along the prototypes finds the chain. -/
theorem chain?_eq (hasChain : world.HasChain id chain) : world.chain? id = some chain :=
  chain?_of_chainWithin hasChain.chainWithin_eq

end HasChain

/-! ### First owners -/

/-- The object has a property of its own under the key. -/
def owns (world : World) (key : Key) (id : ObjectId) : Bool :=
  ((world.object id).own? key).isSome

/-- The first object on a chain that owns the key. -/
def owner? (world : World) (chain : List ObjectId) (key : Key) : Option ObjectId :=
  chain.find? (world.owns key)

/-- The object is the first owner of the key on the chain, and the key is enumerable there. -/
def lists (world : World) (chain : List ObjectId) (owner : ObjectId) (key : Key) : Bool :=
  world.owner? chain key == some owner && (world.object owner).isEnumerable key

variable {chain before rest : List ObjectId}

theorem lists_iff : world.lists chain owner key = true ↔
    world.owner? chain key = some owner ∧ (world.object owner).isEnumerable key = true := by
  rw [lists, Bool.and_eq_true, beq_iff_eq]

theorem owns_of_owner? (first : world.owner? chain key = some owner) :
    world.owns key owner = true :=
  List.find?_some first

/-- An owner is the first one if no object before it owns the key, and only then. -/
theorem owner?_eq_self (owned : world.owns key owner = true) (new : owner ∉ before) :
    world.owner? (before ++ owner :: rest) key = some owner ↔
      ∀ id ∈ before, ¬ world.owns key id = true := by
  rw [owner?, List.find?_append, List.find?_cons_of_pos owned]
  constructor
  · intro first id member ownedBefore
    cases found : before.find? (world.owns key) with
    | none => exact List.find?_eq_none.mp found id member ownedBefore
    | some other =>
      rw [found, Option.some_or, Option.some.injEq] at first
      exact new (first ▸ List.mem_of_find?_eq_some found)
  · intro free
    rw [List.find?_eq_none.mpr free, Option.none_or]

/-! ### Enumeration -/

/-- Going up the rest of a chain with all the keys remembered that the objects before own, what is
listed are the keys of the rest at their first owners. -/
theorem enumerated_rest {visited : List Key}
    (remembers : ∀ key, key ∈ visited ↔ ∃ id ∈ before, world.owns key id = true)
    (distinct : (before ++ rest).Nodup) :
    world.enumerated visited rest = rest.flatMap fun owner =>
      (world.object owner).ownKeys.filter (world.lists (before ++ rest) owner) := by
  induction rest generalizing before visited with
  | nil => rfl
  | cons owner rest inductionHypothesis =>
    have new : owner ∉ before := fun member =>
      (List.nodup_append.mp distinct).2.2 owner member owner List.mem_cons_self rfl
    have together : before ++ owner :: rest = (before ++ [owner]) ++ rest := by
      rw [List.append_assoc, List.singleton_append]
    have remembersMore : ∀ key,
        key ∈ visited ++ (world.object owner).ownKeys.filter (· ∉ visited) ↔
          ∃ id ∈ before ++ [owner], world.owns key id = true := by
      intro key
      rw [List.mem_append, List.mem_filter, decide_eq_true_iff, Object.mem_ownKeys]
      constructor
      · rintro (known | ⟨owned, _⟩)
        · obtain ⟨id, member, owned⟩ := (remembers key).mp known
          exact ⟨id, List.mem_append_left _ member, owned⟩
        · exact ⟨owner, List.mem_append_right _ (List.mem_singleton_self _), owned⟩
      · rintro ⟨id, member, owned⟩
        by_cases known : key ∈ visited
        · exact Or.inl known
        · refine Or.inr ⟨?_, known⟩
          rcases List.mem_append.mp member with earlier | here
          · exact absurd ((remembers key).mpr ⟨id, earlier, owned⟩) known
          · exact List.mem_singleton.mp here ▸ owned
    rw [enumerated, List.flatMap_cons, together,
      inductionHypothesis remembersMore (together ▸ distinct), List.filter_filter]
    refine congrArg (· ++ _) (List.filter_congr fun key listed => ?_)
    -- A key of this owner is new exactly if this is its first owner.
    have first : world.owner? (before ++ owner :: rest) key = some owner ↔ _ :=
      owner?_eq_self (Object.mem_ownKeys.mp listed) new
    rw [← together, Bool.eq_iff_iff, Bool.and_eq_true, decide_eq_true_iff, lists_iff, first,
      remembers, and_comm]
    simp only [not_exists, not_and]

theorem enumerated_eq (distinct : chain.Nodup) :
    world.enumerated [] chain = chain.flatMap fun owner =>
      (world.object owner).ownKeys.filter (world.lists chain owner) := by
  have nothing : ∀ key, key ∈ ([] : List Key) ↔
      ∃ id ∈ ([] : List ObjectId), world.owns key id = true := by simp
  exact enumerated_rest nothing distinct

theorem mem_enumerated (distinct : chain.Nodup) :
    key ∈ world.enumerated [] chain ↔ ∃ owner, world.owner? chain key = some owner ∧
      (world.object owner).isEnumerable key = true := by
  rw [enumerated_eq distinct, List.mem_flatMap]
  constructor
  · rintro ⟨owner, _, listed⟩
    exact ⟨owner, lists_iff.mp (List.mem_filter.mp listed).2⟩
  · rintro ⟨owner, first, enumerable⟩
    exact ⟨owner, List.mem_of_find?_eq_some first, List.mem_filter.mpr
      ⟨Object.mem_ownKeys.mpr (owns_of_owner? first), lists_iff.mpr ⟨first, enumerable⟩⟩⟩

/-- A key has one first owner, so no key is listed twice. -/
theorem nodup_enumerated (distinct : chain.Nodup) : (world.enumerated [] chain).Nodup := by
  rw [enumerated_eq distinct, List.nodup_flatMap]
  refine ⟨fun owner _ => (Object.inOrder_ownKeys _).nodup.filter _, distinct.imp ?_⟩
  intro owner other apart key here there
  have first := (lists_iff.mp (List.mem_filter.mp here).2).1
  rw [(lists_iff.mp (List.mem_filter.mp there).2).1, Option.some.injEq] at first
  exact apart first.symm

/-- On a prototype chain that ends, enumeration lists a key exactly if the first object on the chain
that owns the key owns it as an enumerable property. It lists every key once: first those of the
object itself, then those of its prototype and so on up the chain, the keys that have the same first
owner in the order of its own keys. -/
theorem forInKeys_lists {chain : List ObjectId} (hasChain : world.HasChain id chain) :
    ∃ keys, (Run.forInKeys id).outcome world = .done keys world ∧
      (∀ key, key ∈ keys ↔ ∃ owner, world.owner? chain key = some owner ∧
        (world.object owner).isEnumerable key = true) ∧
      keys.Nodup ∧
      keys = chain.flatMap fun owner =>
        (world.object owner).ownKeys.filter (world.lists chain owner) := by
  have distinct := hasChain.nodup
  refine ⟨world.enumerated [] chain, ?_, fun key => mem_enumerated distinct,
    nodup_enumerated distinct, enumerated_eq distinct⟩
  rw [Run.forInKeys, Run.outcome_bind_of_done (Run.outcome_read _ world), hasChain.chain?_eq]
  rfl

/-- A fresh world with two objects besides. The second inherits from the first and has one of its
two keys itself, not enumerable. -/
def shadowing : World :=
  ((fresh 1).add 0 ((Object.plain 0).putAll
    [named "covered" (.plain .null), named "open" (.plain .null)])).add 0
    (Object.putAll { prototype := some ⟨0, 20⟩ }
      [named "own" (.plain .null), named "covered" (.hidden .null)])

/-- A key that is not enumerable hides the enumerable one on the prototype, and what the prototype
has besides follows the own keys. -/
theorem forInKeys_lists_uncovered :
    (Run.forInKeys ⟨0, 21⟩).outcome shadowing =
      .done [.text "own", .text "open"] shadowing := by
  have hasChain : shadowing.HasChain ⟨0, 21⟩ [⟨0, 21⟩, ⟨0, 20⟩, Intrinsic.objectPrototype.id 0] :=
    .next (by decide +kernel) (.next (by decide +kernel) (.last (by decide +kernel)))
  obtain ⟨keys, ended, -, -, listed⟩ := forInKeys_lists hasChain
  rw [ended, listed]
  exact congrArg (Outcome.done · shadowing) (by decide +kernel)

end EcmaCore.World
