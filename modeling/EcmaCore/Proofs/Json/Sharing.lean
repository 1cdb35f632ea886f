/-
This file proves that nothing in a planted tree is shared. A path is a list of keys, along
which one goes from a container to what it holds. Two paths that lead to the same object
are the same: a container stands after all that it holds, and its parts stand apart from
one another, so where an object stands tells each step of the way to it.
-/

import EcmaCore.Proofs.Json.Representation
import EcmaCore.Proofs.Json.Standing

namespace EcmaCore

/-- The keys lead from a value to an object, each to a data property of the object before. -/
inductive World.Reaches (world : World) : Value → List Key → ObjectId → Prop
  | here (id : ObjectId) : Reaches world (.object id) [] id
  | through {id target : ObjectId} {key : Key} {path : List Key} {value : Value}
      {writable enumerable configurable : Bool}
      (slot : (world.object id).own? key = some (.data value writable enumerable configurable))
      (further : Reaches world value path target) : Reaches world (.object id) (key :: path) target

/-- No two paths from the value lead to the same object. -/
def World.Unshared (world : World) (value : Value) : Prop :=
  ∀ id path other, world.Reaches value path id → world.Reaches value other id → path = other

namespace Json

variable {world : World} {realm : RealmId} {first last : Nat} {tree : Tree} {value : Value}

/-- What a container holds in its data properties stands in parts before it, and each key has a part
of its own. -/
structure Parts (world : World) (realm : RealmId) (first place : Nat) (names : List Key)
    (trees : List Tree) (values : List Value) : Prop where
  stand : Consecutive (Stands world realm) first place trees values
  fit : ∀ tree ∈ trees, tree.Fits
  held : ∀ (key : Key) (child : ObjectId) (writable enumerable configurable : Bool),
    (world.object ⟨realm, place⟩).own? key =
        some (.data (.object child) writable enumerable configurable) →
      ∃ index : Nat, names[index]? = some key ∧ values[index]? = some (.object child)

theorem Stands.parts {id : ObjectId} (stands : Stands world realm first last tree (.object id))
    (fits : tree.Fits) :
    ∃ place, id = ⟨realm, place⟩ ∧ last = place + 1 ∧
      ∃ names trees values, Parts world realm first place names trees values := by
  cases stands with
  | @array first place elements values below made object =>
    rw [Tree.Fits] at fits
    have bound : values.length ≤ maxLength := below.length_eq ▸ fits.1
    have shape : (world.object ⟨realm, place⟩).IsArrayOf realm values :=
      object ▸ Object.isArrayOf_createdAll realm values bound
    refine ⟨place, rfl, rfl, (List.range values.length).map .ofIndex, elements, values, below,
      elementsFit_iff.mp fits.2, ?_⟩
    intro key child writable enumerable configurable slot
    rcases shape.key_of_own (by rw [slot]; rfl) with rfl | ⟨index, inside, rfl⟩
    · rw [shape.length] at slot
      cases slot
    · rw [shape.element index inside] at slot
      refine ⟨index, ?_, ?_⟩
      · rw [List.getElem?_map, List.getElem?_range inside]
        rfl
      · rw [List.getElem?_eq_getElem inside, (Property.data.inj (Option.some.inj slot)).1]
  | @object first place members entries names below made object =>
    rw [Tree.Fits] at fits
    refine ⟨place, rfl, rfl, entries.map Prod.fst, members.map Prod.snd, entries.map Prod.snd,
      below, List.forall_mem_map.mpr (membersFit_iff.mp fits), ?_⟩
    intro key child writable enumerable configurable slot
    rw [object, Object.own?_createdAll_plain] at slot
    obtain ⟨value, found, same⟩ := Option.map_eq_some_iff.mp slot
    have present := List.mem_reverse.mp (Table.mem_of_valueAt found)
    obtain ⟨index, inside, entry⟩ := List.getElem_of_mem present
    refine ⟨index, ?_, ?_⟩
    · rw [List.getElem?_map, List.getElem?_eq_getElem inside, entry]
      rfl
    · rw [List.getElem?_map, List.getElem?_eq_getElem inside, entry]
      exact congrArg some (Property.data.inj same).1

theorem exists_object_of_reaches {path : List Key} {id : ObjectId}
    (reaches : world.Reaches value path id) : ∃ container, value = .object container := by
  cases reaches <;> exact ⟨_, rfl⟩

/-- What is reached from a value stands in the interval of the value. -/
theorem place_of_reaches {path : List Key} {id : ObjectId} (reaches : world.Reaches value path id)
    (stands : Stands world realm first last tree value) (fits : tree.Fits) :
    first ≤ id.slot ∧ id.slot < last := by
  induction reaches generalizing first last tree with
  | here id =>
    obtain ⟨place, rfl, rfl, _, _, _, parts⟩ := stands.parts fits
    exact ⟨parts.stand.forward, Nat.lt_succ_self place⟩
  | through slot further inductionHypothesis =>
    obtain ⟨place, rfl, rfl, _, _, _, parts⟩ := stands.parts fits
    obtain ⟨child, rfl⟩ := exists_object_of_reaches further
    obtain ⟨index, _, held⟩ := parts.held _ child _ _ _ slot
    obtain ⟨tree, same, start, stop, below, after, before⟩ := parts.stand.part held
    have between := inductionHypothesis below (parts.fit tree (List.mem_of_getElem? same))
    omega

/-- A path from a container that is not empty leads to a place before the container. -/
theorem before_of_reaches {place : Nat} {path : List Key} {key : Key} {id : ObjectId}
    (reaches : world.Reaches (.object ⟨realm, place⟩) (key :: path) id)
    (stands : Stands world realm first last tree (.object ⟨realm, place⟩)) (fits : tree.Fits) :
    id.slot < place := by
  obtain ⟨other, same, rfl, _, _, _, parts⟩ := stands.parts fits
  cases same
  cases reaches with
  | through slot further =>
    obtain ⟨child, rfl⟩ := exists_object_of_reaches further
    obtain ⟨index, _, held⟩ := parts.held _ child _ _ _ slot
    obtain ⟨tree, same, start, stop, below, after, before⟩ := parts.stand.part held
    have between := place_of_reaches further below (parts.fit tree (List.mem_of_getElem? same))
    omega

/-- Nothing in a planted tree is shared. -/
theorem Stands.unshared (stands : Stands world realm first last tree value) (fits : tree.Fits) :
    world.Unshared value := by
  intro id path other reaches reachesOther
  induction reaches generalizing first last tree other with
  | here id =>
    obtain ⟨place, rfl, _, _⟩ := stands.parts fits
    cases other with
    | nil => rfl
    | cons key rest => exact absurd (before_of_reaches reachesOther stands fits) (Nat.lt_irrefl _)
  | @through container target key path value _ _ _ slot further inductionHypothesis =>
    obtain ⟨place, rfl, rfl, names, trees, values, parts⟩ := stands.parts fits
    cases reachesOther with
    | here =>
      exact absurd (before_of_reaches (.through slot further) stands fits) (Nat.lt_irrefl _)
    | @through _ _ otherKey rest otherValue _ _ _ slotOther furtherOther =>
      obtain ⟨child, rfl⟩ := exists_object_of_reaches further
      obtain ⟨otherChild, rfl⟩ := exists_object_of_reaches furtherOther
      obtain ⟨index, name, held⟩ := parts.held _ child _ _ _ slot
      obtain ⟨otherIndex, otherName, heldOther⟩ := parts.held _ otherChild _ _ _ slotOther
      rcases Nat.lt_trichotomy index otherIndex with less | rfl | greater
      · -- The two paths go into parts that stand apart, so they lead to different places.
        obtain ⟨tree, member, otherTree, otherMember, start, stop, otherStart, otherStop, below,
          belowOther, apart⟩ := parts.stand.apart less held heldOther
        have within := place_of_reaches further below (parts.fit tree member)
        have withinOther :=
          place_of_reaches furtherOther belowOther (parts.fit otherTree otherMember)
        omega
      · cases name.symm.trans otherName
        cases held.symm.trans heldOther
        obtain ⟨tree, same, start, stop, below, _⟩ := parts.stand.part held
        have fit := parts.fit tree (List.mem_of_getElem? same)
        exact congrArg (key :: ·) (inductionHypothesis below fit rest furtherOther)
      · obtain ⟨tree, member, otherTree, otherMember, start, stop, otherStart, otherStop, below,
          belowOther, apart⟩ := parts.stand.apart greater heldOther held
        have within := place_of_reaches furtherOther below (parts.fit tree member)
        have withinOther := place_of_reaches further belowOther (parts.fit otherTree otherMember)
        omega

end Json

end EcmaCore
