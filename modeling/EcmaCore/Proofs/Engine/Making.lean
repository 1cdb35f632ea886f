/-
This file proves that making an object of plain properties always ends in a value, and
says in one step what it does to the world: it adds the finished object. No function is
called on the way, so neither the caller nor anything that stands in the world matters,
and the identity belongs to the object even where the realm is one that was never made.
-/

import EcmaCore.Proofs.Object.Creation
import EcmaCore.Proofs.World.Chains

namespace EcmaCore

variable (call : Caller) (realm : RealmId) {id : ObjectId} {world : World}

/-! ### One property -/

theorem outcome_changeObject {change : Object → Option Object} {changed : Object}
    (allowed : change (world.object id) = some changed) :
    (Run.changeObject id change).outcome world =
      .done true (world.modifyObject id fun _ => changed) := by
  rw [Run.changeObject, Run.outcome_bind_of_done (Run.outcome_object id world), allowed]
  rfl

/-- A definition of a plain property on a receptive object is allowed and does what creation does to
the object. -/
theorem outcome_create (receptive : (world.object id).Receptive) {key : Key}
    (allowed : (world.object id).isArray = true → key ≠ .length) (value : Value) :
    (create call realm id key value).outcome world =
      .done true (world.modifyObject id (·.created key value)) := by
  have constant : (world.modifyObject id fun _ => (world.object id).created key value) =
      world.modifyObject id (·.created key value) := World.modifyObject_congr rfl
  have unlisted (other : (world.object id).isArray = true → key.arrayIndex? = none) :
      (world.object id).redefined? key (.data value true true true) =
        some ((world.object id).created key value) := by
    rw [receptive.redefined? allowed, Object.created_of_noElement value other]
  rw [create, define, Run.outcome_bind_of_done (Run.outcome_object id world), ← constant]
  cases array : (world.object id).isArray with
  | false =>
    refine outcome_changeObject (unlisted fun isArray => ?_)
    rw [array] at isArray
    cases isArray
  | true =>
    rw [if_pos rfl, if_neg (allowed array)]
    cases spelled : key.arrayIndex? with
    | none => exact outcome_changeObject (unlisted fun _ => spelled)
    | some index => exact outcome_changeObject (receptive.elementDefined? array spelled value)

theorem outcome_createOrThrow (receptive : (world.object id).Receptive) {key : Key}
    (allowed : (world.object id).isArray = true → key ≠ .length) (value : Value) :
    (createOrThrow call realm id key value).outcome world =
      .done () (world.modifyObject id (·.created key value)) := by
  rw [createOrThrow, Run.outcome_bind_of_done (outcome_create call realm receptive allowed value)]
  rfl

/-- Assigning to an own value that may change defines it; a refusal is an error. -/
theorem outcome_set_of_data {key : Key} {old : Value} {enumerable configurable : Bool}
    (slot : (world.object id).own? key = some (.data old true enumerable configurable))
    (value : Value) :
    (set call realm id key value).outcome world =
      ((define call realm id key { value := some value }).outcome world).andThen
        fun met after => if met then .done () after else .threw (.readOnly key) after := by
  have written : (writeTo call realm (.object id) key value).outcome world =
      (define call realm id key { value := some value }).outcome world := by
    rw [writeTo, Run.outcome_bind_of_done (Run.outcome_object _ _), slot]
  have assigned : (setFor call realm id key value (.object id)).outcome world =
      (define call realm id key { value := some value }).outcome world := by
    rw [setFor, Run.outcome_bind_of_done (Run.outcome_search_of_found (World.search_of_own? slot))]
    exact written
  rw [set, Run.outcome_bind, assigned]
  refine congrArg _ (funext fun met => funext fun after => ?_)
  cases met <;> rfl

/-! ### Whole objects -/

theorem World.object_modifyObject (world : World) (id : ObjectId) (update : Object → Object) :
    (world.modifyObject id update).object id = update (world.object id) ∨
      (world.modifyObject id update).object id = default := by
  by_cases made : world.Has id
  · exact Or.inl (object_modifyObject_self made update)
  · exact Or.inr (object_of_not_has (by rwa [has_modifyObject]))

/-- Creating properties one after another on a receptive object always ends. -/
theorem outcome_createAll (receptive : (world.object id).Receptive) (entries : List (Key × Value))
    (allowed : (world.object id).isArray = true → ∀ entry ∈ entries, entry.1 ≠ .length) :
    (createAll call realm id entries).outcome world =
      .done () (world.modifyObject id (·.createdAll entries)) := by
  induction entries generalizing world with
  | nil => exact congrArg _ World.modifyObject_id.symm
  | cons entry rest inductionHypothesis =>
    obtain ⟨key, value⟩ := entry
    have first : (world.object id).isArray = true → key ≠ .length :=
      fun array => allowed array (key, value) List.mem_cons_self
    have last : (world.object id).isArray = true → ∀ entry ∈ rest, entry.1 ≠ .length :=
      fun array entry member => allowed array entry (List.mem_cons_of_mem _ member)
    rw [createAll, Run.outcome_bind_of_done
      (outcome_createOrThrow call realm receptive first value)]
    have stillReceptive : ((world.modifyObject id (·.created key value)).object id).Receptive ∧
        (((world.modifyObject id (·.created key value)).object id).isArray = true →
          ∀ entry ∈ rest, entry.1 ≠ .length) := by
      rcases world.object_modifyObject id (·.created key value) with changed | missing
      · rw [changed, Object.created_isArray]
        exact ⟨receptive.created first value, last⟩
      · rw [missing]
        exact ⟨Object.receptive_default, fun array => by cases array⟩
    rw [inductionHypothesis stillReceptive.1 stillReceptive.2, World.modifyObject_modifyObject]
    rfl

/-- A new object in the world is receptive if it is receptive by itself. -/
theorem World.receptive_add {object : Object} (receptive : object.Receptive) :
    ((world.add realm object).object (world.nextId realm)).Receptive := by
  by_cases made : world.HasRealm realm
  · rwa [object_add_nextId made]
  · rw [add, modifyRealm_of_not_hasRealm made, object_of_not_has not_has_nextId]
    exact Object.receptive_default

/-- Making an ordinary object adds it with all its properties. -/
theorem outcome_objectOf (entries : List (Key × Value)) (world : World) :
    (objectOf call realm entries).outcome world =
      .done (world.nextId realm) (world.add realm ((Object.plain realm).createdAll entries)) := by
  have ordinary : ((world.add realm (.plain realm)).object (world.nextId realm)).isArray =
      true → ∀ entry ∈ entries, entry.1 ≠ .length := by
    intro array
    by_cases made : world.HasRealm realm
    · rw [World.object_add_nextId made] at array
      cases array
    · rw [World.add, World.modifyRealm_of_not_hasRealm made,
        World.object_of_not_has World.not_has_nextId] at array
      cases array
  rw [objectOf, Run.outcome_bind_of_done (Run.outcome_allocate realm _ world),
    Run.outcome_bind_of_done (outcome_createAll call realm
      (World.receptive_add realm (Object.receptive_plain realm)) entries ordinary),
    World.modifyObject_add]
  rfl

theorem key_of_mem_indexed {elements : List Value} {entry : Key × Value}
    (member : entry ∈ indexed elements) : entry.1 ≠ .length := by
  obtain ⟨⟨element, index⟩, _, rfl⟩ := List.mem_map.mp member
  exact Key.ofIndex_ne_length index

/-- Making an array adds it with all its elements. -/
theorem outcome_arrayOf (elements : List Value) (world : World) :
    (arrayOf call realm elements).outcome world =
      .done (world.nextId realm)
        (world.add realm ((Object.emptyArray realm).createdAll (indexed elements))) := by
  rw [arrayOf, Run.outcome_bind_of_done (Run.outcome_allocate realm _ world),
    Run.outcome_bind_of_done (outcome_createAll call realm
      (World.receptive_add realm (Object.receptive_emptyArray realm)) (indexed elements)
      fun _ _ member => key_of_mem_indexed member),
    World.modifyObject_add]
  rfl

end EcmaCore
