/-
This file proves that whatever is read as a description of a property is lawful: it is about one
kind of property, and its accessors are absent, undefined or can be called. The object that is
read may have its fields from getters and prototypes, and what is found there is checked after
the last of them was asked, so it is lawful in the world in which the reading ends.
-/

import EcmaCore.Engine.Description
import EcmaCore.Proofs.Object.Promises
import EcmaCore.Proofs.Run.Outcome

namespace EcmaCore

variable {call : Caller} {realm : RealmId} {world after : World}

/-! ### Lawful descriptors -/

/-- The field is left out, given as undefined, or given as what can be called. -/
def World.AllowsHalf (world : World) (field : Option Value) : Prop :=
  ∀ value, field = some value → value = .undefined ∨ world.isCallable value = true

/-- The descriptor does not mix accessors with a value or its writability, and its accessors are
left out, undefined or can be called. -/
structure Descriptor.Lawful (descriptor : Descriptor) (world : World) : Prop where
  unmixed : descriptor.Unmixed
  getter : world.AllowsHalf descriptor.getter
  setter : world.AllowsHalf descriptor.setter

/-- A descriptor that names no accessor is lawful. -/
theorem Descriptor.Lawful.of_noAccessor {descriptor : Descriptor}
    (noAccessor : descriptor.isAccessor = false) : descriptor.Lawful world := by
  have absent : descriptor.getter = none ∧ descriptor.setter = none := by
    simpa [isAccessor] using noAccessor
  refine ⟨fun accessor => ?_, ?_, ?_⟩
  · rw [noAccessor] at accessor
    cases accessor
  · rw [absent.1]
    exact nofun
  · rw [absent.2]
    exact nofun

/-! ### Reading -/

/-- The field is only looked at. -/
theorem allowsHalf_of_outcome_requireCallable {field : Option Value} {complaint : String → Error}
    (ended : (requireCallable field complaint).outcome world = .done () after) :
    after = world ∧ world.AllowsHalf field := by
  cases field with
  | none =>
    cases ended
    exact ⟨rfl, nofun⟩
  | some value =>
    by_cases undefined : value = .undefined
    · subst undefined
      cases ended
      exact ⟨rfl, fun _ given => Or.inl (Option.some.inj given).symm⟩
    · have half : Descriptor.half (some value) = some value := by
        rw [Descriptor.half, Option.filter_some, if_pos (by simpa using undefined)]
      have asked : (Run.isCallable value).outcome world = .done (world.isCallable value) world :=
        rfl
      rw [requireCallable, half] at ended
      dsimp only at ended
      rw [Run.outcome_bind_of_done asked] at ended
      cases callable : world.isCallable value with
      | true =>
        rw [callable] at ended
        cases ended
        exact ⟨rfl, fun _ given => Or.inr (Option.some.inj given ▸ callable)⟩
      | false =>
        rw [callable] at ended
        cases ended

/-- Whatever is read as a description is lawful in the world in which the reading ends. -/
theorem lawful_of_outcome_readDescription {attributes : Value} {descriptor : Descriptor}
    (ended : (readDescription call realm attributes).outcome world = .done descriptor after) :
    descriptor.Lawful after := by
  cases attributes with
  | object id =>
    obtain ⟨enumerable, _, -, ended⟩ := Run.exists_of_outcome_bind ended
    obtain ⟨configurable, _, -, ended⟩ := Run.exists_of_outcome_bind ended
    obtain ⟨value, _, -, ended⟩ := Run.exists_of_outcome_bind ended
    obtain ⟨writable, _, -, ended⟩ := Run.exists_of_outcome_bind ended
    obtain ⟨getter, _, -, ended⟩ := Run.exists_of_outcome_bind ended
    obtain ⟨setter, before, -, ended⟩ := Run.exists_of_outcome_bind ended
    obtain ⟨_, _, checkedGetter, ended⟩ := Run.exists_of_outcome_bind ended
    obtain ⟨_, _, checkedSetter, finished⟩ := Run.exists_of_outcome_bind ended
    obtain ⟨rfl, allowsGetter⟩ := allowsHalf_of_outcome_requireCallable checkedGetter
    obtain ⟨rfl, allowsSetter⟩ := allowsHalf_of_outcome_requireCallable checkedSetter
    split at finished
    · cases finished
    · rename_i unmixed
      cases finished
      refine ⟨fun accessor => ?_, allowsGetter, allowsSetter⟩
      rw [accessor, Bool.true_and] at unmixed
      exact eq_false_of_ne_true unmixed
  | _ =>
    obtain ⟨_, _, -, thrown⟩ := Run.exists_of_outcome_bind ended
    cases thrown

end EcmaCore
