/-
This file proves that parsing is hermetic. It never calls a function, whatever function it
is given to call with; it changes nothing that was there, neither when it ends in a value
nor when it ends in an error; and what it makes is what it makes of the same text in a
realm that was just created, up to the places at which the new objects stand.

The last part is about two runs, and each of them is known exactly: it adds the objects
that planting makes from its own first free place on. So it is enough that planting from
another place, with other prototypes, makes the same objects with other identities.
-/

import EcmaCore.Proofs.Json.Parsing
import EcmaCore.Proofs.Json.Placement
import EcmaCore.Proofs.Object.Renaming
import EcmaCore.Proofs.World.Fresh

namespace EcmaCore.Json

/-- Identities of one realm stand for those of another: intrinsics for intrinsics, and the places
from the first free one on for those from the first free one on. -/
structure Relocates (rename : ObjectId → ObjectId) (source target : RealmId) (first place : Nat) :
    Prop where
  intrinsic : ∀ which : Intrinsic, rename (which.id source) = which.id target
  new : ∀ index, rename ⟨source, first + index⟩ = ⟨target, place + index⟩

variable {rename : ObjectId → ObjectId} {source target : RealmId} {first place : Nat}

theorem Relocates.emptyArray (relocates : Relocates rename source target first place) :
    (Object.emptyArray source).renamed rename = Object.emptyArray target := by
  rw [Object.emptyArray, Object.renamed_put, Object.emptyArray, ← relocates.intrinsic]
  rfl

theorem Relocates.plain (relocates : Relocates rename source target first place) :
    (Object.plain source).renamed rename = Object.plain target := by
  rw [Object.plain, Object.plain, ← relocates.intrinsic]
  rfl

/-! ### Planting in another place -/

mutual

/-- Planting in another place makes the same objects with other identities. -/
theorem Tree.planted_renamed {rename : ObjectId → ObjectId} {source target : RealmId}
    {first place : Nat} (relocates : Relocates rename source target first place) (offset : Nat)
    (tree : Tree) :
    tree.planted target (place + offset) =
      ((tree.planted source (first + offset)).1.renamed rename,
        (tree.planted source (first + offset)).2.map (·.renamed rename)) := by
  cases tree with
  | array elements =>
    rw [Tree.planted, Tree.planted]
    dsimp only
    rw [elementsPlanted_renamed relocates offset elements, List.map_append, List.map_singleton,
      Object.renamed_createdAll, relocates.emptyArray, indexed_renamed, List.length_map,
      Value.renamed, Nat.add_assoc, Nat.add_assoc, relocates.new]
  | object members =>
    rw [Tree.planted, Tree.planted]
    dsimp only
    rw [membersPlanted_renamed relocates offset members, List.map_append, List.map_singleton,
      Object.renamed_createdAll, relocates.plain, List.length_map, Value.renamed, Nat.add_assoc,
      Nat.add_assoc, relocates.new]
  | _ => rfl

theorem elementsPlanted_renamed {rename : ObjectId → ObjectId} {source target : RealmId}
    {first place : Nat} (relocates : Relocates rename source target first place) (offset : Nat)
    (elements : List Tree) :
    elementsPlanted target (place + offset) elements =
      ((elementsPlanted source (first + offset) elements).1.map (·.renamed rename),
        (elementsPlanted source (first + offset) elements).2.map (·.renamed rename)) := by
  cases elements with
  | nil => rfl
  | cons tree rest =>
    rw [elementsPlanted, elementsPlanted]
    dsimp only
    rw [tree.planted_renamed relocates offset, List.length_map, Nat.add_assoc, Nat.add_assoc,
      elementsPlanted_renamed relocates _ rest, List.map_cons, List.map_append]

theorem membersPlanted_renamed {rename : ObjectId → ObjectId} {source target : RealmId}
    {first place : Nat} (relocates : Relocates rename source target first place) (offset : Nat)
    (members : List (Units × Tree)) :
    membersPlanted target (place + offset) members =
      ((membersPlanted source (first + offset) members).1.map
          fun entry => (entry.1, entry.2.renamed rename),
        (membersPlanted source (first + offset) members).2.map (·.renamed rename)) := by
  cases members with
  | nil => rfl
  | cons member rest =>
    obtain ⟨key, tree⟩ := member
    rw [membersPlanted, membersPlanted]
    dsimp only
    rw [tree.planted_renamed relocates offset, List.length_map, Nat.add_assoc, Nat.add_assoc,
      membersPlanted_renamed relocates _ rest, List.map_cons, List.map_append]

end

/-! ### The realm that was just created -/

/-- The identities of a new realm, moved to a realm with another first free place. -/
def relocated (target : RealmId) (place : Nat) (id : ObjectId) : ObjectId :=
  if id.slot < Intrinsic.all.length then ⟨target, id.slot⟩
  else ⟨target, place + (id.slot - Intrinsic.all.length)⟩

theorem relocates_relocated (source target : RealmId) (place : Nat) :
    Relocates (relocated target place) source target Intrinsic.all.length place where
  intrinsic which := if_pos (List.idxOf_lt_length_of_mem which.mem_all)
  new index := by
    rw [relocated, if_neg (Nat.not_lt.mpr (Nat.le_add_right _ _)), Nat.add_sub_cancel_left]

theorem nextSlot_fresh {count : Nat} {realm : RealmId} (inside : realm < count) :
    (World.fresh count).nextSlot realm = Intrinsic.all.length := by
  rw [World.nextSlot, World.nextId, World.realm_fresh, if_pos inside]
  rfl

/-! ### Parsing -/

/-- Parsing a text ends as it does in a realm that was just created. In an error it leaves the world
as it was. In a value it adds objects and does nothing else: they are the objects of the other
run, up to identities. No function is called on the way, since it makes no difference how one would
be called. -/
theorem readValue_hermetic (call other : Caller) {realm : RealmId} {world : World}
    (made : world.HasRealm realm) {count : Nat} {recent : RealmId} (inside : recent < count)
    (text : Units) :
    (readValue call realm text).outcome world = (readValue other realm text).outcome world ∧
    ((∃ error, (readValue call realm text).outcome world = .threw error world ∧
        (readValue other recent text).outcome (World.fresh count) =
          .threw error (World.fresh count)) ∨
      ∃ value after, (readValue call realm text).outcome world = .done value after ∧
        after.Extends world ∧ after.log = world.log ∧
        ∃ rename original objects,
          Relocates rename recent realm Intrinsic.all.length (world.nextSlot realm) ∧
          (readValue other recent text).outcome (World.fresh count) =
            .done original ((World.fresh count).addAll recent objects) ∧
          value = original.renamed rename ∧
          after = world.addAll realm (objects.map (·.renamed rename))) := by
  cases parsed : parse text with
  | error fault =>
    have ends := readValue_of_error parsed
    exact ⟨by rw [ends, ends], Or.inl ⟨_, ends call realm world, ends other recent _⟩⟩
  | ok tree =>
    refine ⟨by rw [outcome_readValue_of_ok call made parsed,
      outcome_readValue_of_ok other made parsed], Or.inr ⟨_, _,
      outcome_readValue_of_ok call made parsed, World.extends_addAll world realm _,
      World.log_addAll world realm _, ?_⟩⟩
    have relocates := relocates_relocated recent realm (world.nextSlot realm)
    have fresher := outcome_readValue_of_ok other (World.hasRealm_fresh inside) parsed
    have same := tree.planted_renamed relocates 0
    rw [Nat.add_zero, Nat.add_zero] at same
    rw [nextSlot_fresh inside] at fresher
    exact ⟨_, _, _, relocates, fresher, congrArg Prod.fst same, by rw [same]⟩

/-- A realm whose prototype of objects has a setter that would catch an assignment to `a`, and to
which nothing can be added. -/
def pollutedWorld : World :=
  (World.fresh 1).modifyObject (Intrinsic.objectPrototype.id 0) fun object =>
    { object.put (.text "a") (.accessor none (some (Intrinsic.value (.function .object) 0)) true true)
      with extensible := false }

/-- In that realm the text is read as in a new one: the same objects are made, at the next places, and
nothing that was there is touched. -/
theorem readValue_hermetic_in_polluted_realm :
    ∃ value after rename original objects,
      (readValue (callWithin 1) 0 (unitsOf "\x7b\"a\":[null]\x7d")).outcome pollutedWorld =
        .done value after ∧
      (readValue (callWithin 0) 0 (unitsOf "\x7b\"a\":[null]\x7d")).outcome pollutedWorld =
        .done value after ∧
      after.Extends pollutedWorld ∧ after.log = pollutedWorld.log ∧
      Relocates rename 0 0 Intrinsic.all.length (pollutedWorld.nextSlot 0) ∧
      (readValue (callWithin 0) 0 (unitsOf "\x7b\"a\":[null]\x7d")).outcome (World.fresh 1) =
        .done original ((World.fresh 1).addAll 0 objects) ∧
      value = original.renamed rename ∧
      after = pollutedWorld.addAll 0 (objects.map (·.renamed rename)) := by
  have made : pollutedWorld.HasRealm 0 :=
    (World.hasRealm_modifyRealm _ 0).mpr (World.hasRealm_fresh Nat.zero_lt_one)
  obtain ⟨sameCaller, ⟨error, threw, _⟩ | ⟨value, after, done, extended, log, rename, original,
      objects, relocates, fresher, same⟩⟩ :=
    readValue_hermetic (callWithin 1) (callWithin 0) made Nat.zero_lt_one
      (unitsOf "\x7b\"a\":[null]\x7d")
  · have parsed : parse (unitsOf "\x7b\"a\":[null]\x7d") =
        .ok (.object [(unitsOf "a", .array [.null])]) := by cbv
    obtain ⟨value, after, done⟩ := readValue_of_ok parsed (callWithin 1) 0 pollutedWorld
    rw [threw] at done
    cases done
  · exact ⟨value, after, rename, original, objects, done, sameCaller.symm.trans done, extended, log,
      relocates, fresher, same⟩

end EcmaCore.Json
