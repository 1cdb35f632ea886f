/-
This file is about searches along prototype chains. A search has one step more than there
are objects. If it does not end within them, it has met an object twice, so the chain
returns to itself and no search ends however long it is. So a search that ends after any
number of steps ends, and whether a key is absent can be told from the own properties and
the prototype of an object.
-/

import EcmaCore.World.Lookup
import EcmaCore.Proofs.Run.Outcome
import EcmaCore.Proofs.World.Objects
import Mathlib.Combinatorics.Pigeonhole

namespace EcmaCore.World

variable {world : World} {key : Key} {id parent : ObjectId}

/-! ### Identities -/

/-- All identities that were given out. -/
def ids (world : World) : List ObjectId :=
  (List.range world.realms.size).flatMap fun realm =>
    (List.range (world.realm realm).objects.size).map (ObjectId.mk realm)

theorem length_ids (world : World) : world.ids.length = world.population := by
  have sizes : (List.range world.realms.size).map (fun realm => (world.realm realm).objects.size) =
      world.realms.toList.map fun region => region.objects.size := by
    refine List.ext_getElem (by simp) fun index inside _ => ?_
    have small : index < world.realms.size := by simpa using inside
    simp [World.realm, Array.getElem?_eq_getElem small]
  rw [ids, List.length_flatMap, population, ← Array.foldl_toList]
  simp only [List.length_map, List.length_range]
  rw [sizes, List.sum_eq_foldl, List.foldl_map]

theorem mem_ids (made : world.Has id) : id ∈ world.ids :=
  List.mem_flatMap.mpr ⟨id.realm, List.mem_range.mpr made.hasRealm,
    List.mem_map.mpr ⟨id.slot, List.mem_range.mpr made, rfl⟩⟩

/-! ### Chains without an end -/

/-- The object so many steps up the prototype chain, the last one from there on. -/
def ancestor (world : World) (id : ObjectId) : Nat → ObjectId
  | 0 => id
  | steps + 1 => ((world.object (world.ancestor id steps)).prototype).getD (world.ancestor id steps)

/-- A search for the key goes on from the object to its prototype. -/
def PassesOn (world : World) (key : Key) (id : ObjectId) : Prop :=
  (world.object id).own? key = none ∧ (world.object id).prototype.isSome

theorem ancestor_succ (id : ObjectId) (steps : Nat)
    (next : (world.object id).prototype = some parent) :
    world.ancestor id (steps + 1) = world.ancestor parent steps := by
  induction steps with
  | zero => rw [ancestor, ancestor, ancestor, next, Option.getD_some]
  | succ steps inductionHypothesis => rw [ancestor, inductionHypothesis, ancestor]

/-- A search does not end within so many steps exactly if it goes on at each of them. -/
theorem searchWithin_eq_endless {steps : Nat} :
    world.searchWithin key steps id = .endless ↔
      ∀ step < steps, world.PassesOn key (world.ancestor id step) := by
  induction steps generalizing id with
  | zero => exact ⟨fun _ step inside => absurd inside (Nat.not_lt_zero step), fun _ => rfl⟩
  | succ steps inductionHypothesis =>
    rw [searchWithin]
    cases slot : (world.object id).own? key with
    | some property =>
      refine ⟨nofun, fun goesOn => ?_⟩
      have here := (goesOn 0 (Nat.succ_pos steps)).1
      rw [ancestor, slot] at here
      cases here
    | none =>
      cases next : (world.object id).prototype with
      | none =>
        refine ⟨nofun, fun goesOn => ?_⟩
        have here := (goesOn 0 (Nat.succ_pos steps)).2
        rw [ancestor, next] at here
        cases here
      | some parent =>
        dsimp only
        rw [inductionHypothesis]
        constructor
        · intro goesOn step inside
          cases step with
          | zero => exact ⟨slot, by rw [ancestor, next]; rfl⟩
          | succ step =>
            rw [ancestor_succ id step next]
            exact goesOn step (Nat.lt_of_succ_lt_succ inside)
        · intro goesOn step inside
          rw [← ancestor_succ id step next]
          exact goesOn (step + 1) (Nat.succ_lt_succ inside)

/-- Chains that have met go on alike. -/
theorem ancestor_add {first second : Nat} (met : world.ancestor id first = world.ancestor id second)
    (steps : Nat) : world.ancestor id (first + steps) = world.ancestor id (second + steps) := by
  induction steps with
  | zero => exact met
  | succ steps inductionHypothesis =>
    rw [← Nat.add_assoc, ← Nat.add_assoc, ancestor, ancestor, inductionHypothesis]

/-- What goes on at each of so many ancestors as there are objects, and one more, goes on at all.
Only at an object that was given out is there a next one, so two of the ancestors are the same. -/
theorem goesOn_always {goesOn : ObjectId → Prop}
    (further : ∀ other, goesOn other → (world.object other).prototype.isSome = true)
    (long : ∀ step < world.population + 1, goesOn (world.ancestor id step)) (step : Nat) :
    goesOn (world.ancestor id step) := by
  obtain ⟨first, second, before, bound, met⟩ : ∃ first second, first < second ∧
      second ≤ world.population ∧ world.ancestor id first = world.ancestor id second := by
    have maps : ∀ step ∈ Finset.range (world.population + 1),
        world.ancestor id step ∈ world.ids.toFinset := by
      intro step inside
      refine List.mem_toFinset.mpr (mem_ids (Decidable.byContradiction fun missing => ?_))
      have next := further _ (long step (Finset.mem_range.mp inside))
      rw [object_of_not_has missing] at next
      cases next
    have few : world.ids.toFinset.card < (Finset.range (world.population + 1)).card := by
      rw [Finset.card_range, ← length_ids]
      exact Nat.lt_succ_of_le (List.toFinset_card_le _)
    obtain ⟨first, firstInside, second, secondInside, different, met⟩ :=
      Finset.exists_ne_map_eq_of_card_lt_of_maps_to few maps
    rw [Finset.mem_range] at firstInside secondInside
    rcases Nat.lt_or_gt_of_ne different with before | after
    · exact ⟨first, second, before, Nat.le_of_lt_succ secondInside, met⟩
    · exact ⟨second, first, after, Nat.le_of_lt_succ firstInside, met.symm⟩
  -- So every later ancestor is one that was met before.
  induction step using Nat.strong_induction_on with
  | _ step inductionHypothesis =>
    rcases Nat.lt_or_ge step second with inside | outside
    · exact long step (by omega)
    · obtain ⟨rest, rfl⟩ := Nat.exists_eq_add_of_le outside
      rw [← ancestor_add met rest]
      exact inductionHypothesis (first + rest) (by omega)

/-- A search that has not ended after one step for each object never ends. -/
theorem searchWithin_endless_of_search (endless : world.search id key = .endless) (steps : Nat) :
    world.searchWithin key steps id = .endless :=
  searchWithin_eq_endless.mpr fun step _ =>
    goesOn_always (fun _ passes => passes.2) (searchWithin_eq_endless.mp endless) step

/-! ### Searches that end -/

/-- A search that ends goes no further when it has more steps. -/
theorem searchWithin_mono {steps more : Nat} (atMost : steps ≤ more)
    (ended : world.searchWithin key steps id ≠ .endless) :
    world.searchWithin key more id = world.searchWithin key steps id := by
  induction steps generalizing id more with
  | zero => exact absurd rfl ended
  | succ steps inductionHypothesis =>
    obtain ⟨more, rfl⟩ : ∃ further, more = further + 1 := ⟨more - 1, by omega⟩
    rw [searchWithin] at ended ⊢
    rw [searchWithin]
    cases slot : (world.object id).own? key with
    | some property => rfl
    | none =>
      cases next : (world.object id).prototype with
      | none => rfl
      | some parent =>
        rw [slot, next] at ended
        exact inductionHypothesis (Nat.le_of_succ_le_succ atMost) ended

/-- A search that ends after any number of steps ends in the same way. -/
theorem search_of_searchWithin {steps : Nat} (ended : world.searchWithin key steps id ≠ .endless) :
    world.search id key = world.searchWithin key steps id := by
  rcases Nat.le_total steps (world.population + 1) with less | more
  · exact searchWithin_mono less ended
  · refine (searchWithin_mono more fun endless => ended ?_).symm
    exact searchWithin_endless_of_search endless steps

theorem own?_of_searchWithin_found {steps : Nat} {holder : ObjectId} {property : Property}
    (found : world.searchWithin key steps id = .found holder property) :
    (world.object holder).own? key = some property := by
  induction steps generalizing id with
  | zero => cases found
  | succ steps inductionHypothesis =>
    rw [searchWithin] at found
    split at found
    · rename_i slot
      cases found
      exact slot
    · split at found
      · exact inductionHypothesis found
      · cases found

/-- What a search finds is an own property of the holder. -/
theorem own?_of_search_found {holder : ObjectId} {property : Property}
    (found : world.search id key = .found holder property) :
    (world.object holder).own? key = some property :=
  own?_of_searchWithin_found found

/-- An own property is found at once. -/
theorem search_of_own? {property : Property} (slot : (world.object id).own? key = some property) :
    world.search id key = .found id property := by
  rw [search, searchWithin, slot]

/-- A key that the last object of a chain does not own is absent. -/
theorem search_of_end (missing : (world.object id).own? key = none)
    (last : (world.object id).prototype = none) : world.search id key = .absent := by
  rw [search, searchWithin, missing, last]

/-- What a key leads to on the prototype it leads to on an object without the key. -/
theorem search_of_prototype (missing : (world.object id).own? key = none)
    (next : (world.object id).prototype = some parent)
    (ended : world.search parent key ≠ .endless) :
    world.search id key = world.search parent key := by
  have further : world.searchWithin key (world.population + 2) id = world.search parent key := by
    rw [searchWithin, missing, next]
    rfl
  rw [← further] at ended ⊢
  exact search_of_searchWithin ended

theorem search_of_prototype_found {property : Property}
    (missing : (world.object id).own? key = none)
    (next : (world.object id).prototype = some parent)
    (above : world.search parent key = .found holder property) :
    world.search id key = .found holder property := by
  rw [search_of_prototype missing next (by rw [above]; exact nofun), above]

theorem search_of_prototype_absent (missing : (world.object id).own? key = none)
    (next : (world.object id).prototype = some parent)
    (above : world.search parent key = .absent) : world.search id key = .absent := by
  rw [search_of_prototype missing next (by rw [above]; exact nofun), above]

/-! ### Whole chains -/

theorem chainWithin_eq_none {steps : Nat} :
    world.chainWithin steps id = none ↔
      ∀ step < steps, (world.object (world.ancestor id step)).prototype.isSome = true := by
  induction steps generalizing id with
  | zero => exact ⟨fun _ step inside => absurd inside (Nat.not_lt_zero step), fun _ => rfl⟩
  | succ steps inductionHypothesis =>
    rw [chainWithin]
    cases next : (world.object id).prototype with
    | none =>
      refine ⟨nofun, fun goesOn => ?_⟩
      have here := goesOn 0 (Nat.succ_pos steps)
      rw [ancestor, next] at here
      cases here
    | some parent =>
      dsimp only
      rw [Option.map_eq_none_iff, inductionHypothesis]
      constructor
      · intro goesOn step inside
        cases step with
        | zero => rw [ancestor, next]; rfl
        | succ step =>
          rw [ancestor_succ id step next]
          exact goesOn step (Nat.lt_of_succ_lt_succ inside)
      · intro goesOn step inside
        rw [← ancestor_succ id step next]
        exact goesOn (step + 1) (Nat.succ_lt_succ inside)

/-- A chain that is longer than there are objects has no end. -/
theorem chainWithin_eq_none_of_chain? (endless : world.chain? id = none) (steps : Nat) :
    world.chainWithin steps id = none :=
  chainWithin_eq_none.mpr fun step _ =>
    goesOn_always (fun _ goesOn => goesOn) (chainWithin_eq_none.mp endless) step

theorem chainWithin_mono {steps more : Nat} (atMost : steps ≤ more) {chain : List ObjectId}
    (ended : world.chainWithin steps id = some chain) :
    world.chainWithin more id = some chain := by
  induction steps generalizing id more chain with
  | zero => cases ended
  | succ steps inductionHypothesis =>
    obtain ⟨more, rfl⟩ : ∃ further, more = further + 1 := ⟨more - 1, by omega⟩
    rw [chainWithin] at ended ⊢
    cases next : (world.object id).prototype with
    | none =>
      rw [next] at ended
      exact ended
    | some parent =>
      rw [next] at ended
      obtain ⟨rest, found, rfl⟩ := Option.map_eq_some_iff.mp ended
      dsimp only
      rw [inductionHypothesis (Nat.le_of_succ_le_succ atMost) found]
      rfl

/-- A chain that ends within any number of steps is the whole chain. -/
theorem chain?_of_chainWithin {steps : Nat} {chain : List ObjectId}
    (ended : world.chainWithin steps id = some chain) : world.chain? id = some chain := by
  rcases Nat.le_total steps (world.population + 1) with less | more
  · exact chainWithin_mono less ended
  · cases whole : world.chain? id with
    | none =>
      rw [chainWithin_eq_none_of_chain? whole] at ended
      cases ended
    | some other =>
      have same := chainWithin_mono more whole
      rwa [ended, eq_comm] at same

end EcmaCore.World

/-! ### Searches as runs -/

namespace EcmaCore.Run

variable {world : World} {key : Key} {id holder : ObjectId} {property : Property}

theorem outcome_search_of_found (found : world.search id key = .found holder property) :
    (search id key).outcome world = .done (some property) world := by
  rw [search, outcome_bind, outcome_read, found]
  rfl

theorem outcome_search_of_absent (absent : world.search id key = .absent) :
    (search id key).outcome world = .done none world := by
  rw [search, outcome_bind, outcome_read, absent]
  rfl

theorem outcome_has_of_found (found : world.search id key = .found holder property) :
    (has id key).outcome world = .done true world := by
  rw [has, outcome_bind_of_done (outcome_search_of_found found)]
  rfl

theorem outcome_has_of_absent (absent : world.search id key = .absent) :
    (has id key).outcome world = .done false world := by
  rw [has, outcome_bind_of_done (outcome_search_of_absent absent)]
  rfl

/-- A search without an end has no answer. -/
theorem outcome_has_of_endless (endless : world.search id key = .endless) :
    (has id key).outcome world = .cutOff := by
  rw [has, search, outcome_bind, outcome_bind, outcome_read, endless]
  rfl

end EcmaCore.Run
