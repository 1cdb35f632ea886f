/-
This file is about identities that were not given out. In a closed world nothing leads to
one of them: no object, no memory and no host function has it. A fresh world is closed, and
the run of a program keeps a world closed, so every world that scripts can bring about is.

That is what makes a new object the property of whoever made it. Its identity was a secret
before, so nobody else has it, and it stays a secret until it is handed to someone.
-/

import EcmaCore.Proofs.Secrecy.Calls
import EcmaCore.Proofs.World.Arrays

namespace EcmaCore

variable {secret : Secret} {world after : World}

/-! ### Secrets that are kept -/

namespace Run

variable {α : Type} {run : Run α} {goal : α → Prop} {value : α}

/-- A discreet run that has not given out the secret has told it to nobody and left its object
alone. -/
theorem Discreet.of_done (discreet : run.Discreet secret goal)
    (grows : run.Steady kindDiscipline.hosted) (hides : world.Hides secret)
    (ended : run.outcome world = .done value after) (withholds : world.Withholds secret after) :
    goal value ∧ world.Spares secret after := by
  have conceals := discreet.conceals world hides
  have follows := grows.follows_kinds world
  exact ⟨conceals.goal_of_done follows (fun kinds made => (kinds _ made).1) ended withholds,
    conceals.spares_of_mem follows (fun kinds made => (kinds _ made).1) hides
      (mem_worlds_of_done ended) withholds⟩

end Run

theorem Program.follows_kinds (program : Program) (depth : Nat) (world : World) :
    (program.run (callWithin depth)).Follows kindDiscipline.hosted (fun _ => True) world :=
  Program.follows kindDiscipline program.obeys_anything world.hostsObey_anything trivial depth

/-! ### Realms with their intrinsics -/

namespace World

variable {realm : RealmId}

theorem HasIntrinsics.of_sameKinds (intrinsics : world.HasIntrinsics realm)
    (kinds : world.SameKinds after) : after.HasIntrinsics realm := fun which listed =>
  (kinds _ (intrinsics which listed)).1

/-- Objects made by scripts come after the intrinsics. -/
theorem HasIntrinsics.late (intrinsics : world.HasIntrinsics realm) :
    Intrinsic.all.length ≤ (world.nextId realm).slot := by
  have last : (Intrinsic.id (.function .jsonStringify) realm).slot + 1 = Intrinsic.all.length := rfl
  rw [← last]
  exact intrinsics (.function .jsonStringify) (by decide)

end World

/-! ### Closed worlds -/

/-- Nothing leads to an identity that was not given out. -/
def World.Closed (world : World) : Prop :=
  ∀ secret : Secret, ¬ world.Has secret.id → world.Hides secret

/-- The value is no object whose identity was not given out. -/
def Value.Known (world : World) (value : Value) : Prop :=
  ∀ id, value = .object id → world.Has id

theorem Value.Known.avoids {value : Value} (known : value.Known world)
    (missing : ¬ world.Has secret.id) : value.Avoids secret :=
  fun same => missing (known secret.id same)

namespace World

/-- An object that leads to no secret may be added to a closed world. -/
theorem Closed.add (closed : world.Closed) {realm : RealmId} {object : Object}
    (avoids : ∀ secret : Secret, ¬ world.Has secret.id → object.Avoids secret) :
    (world.add realm object).Closed := by
  intro secret missing
  have early : ¬ world.Has secret.id := fun made => missing (made.add realm object)
  exact (closed secret early).add (avoids secret early)

/-- The objects of a fresh world lead to intrinsics only. -/
theorem closed_fresh (count : Nat) : (fresh count).Closed := by
  intro secret _
  refine ⟨fun id _ => ?_, fun realm name value bound => ?_, fun realm name snapshot held => ?_⟩
  · rcases object_fresh count id with empty | ⟨which, _, intrinsic⟩
    · rw [empty]
      exact Object.avoids_bare .ordinary nofun
    · rw [intrinsic]
      exact Object.avoids_intrinsic secret which id.realm
  · rw [realm_fresh] at bound
    split at bound <;> cases bound
  · exact absurd held (not_holds_fresh realm name snapshot)

end World

/-- A program that has no identity but those that were given out keeps a world closed at every
point of its run, with all calls that it makes and all scripts that these enter again. -/
theorem Program.closed_of_mem {program : Program} (closed : world.Closed)
    (avoids : ∀ secret : Secret, ¬ world.Has secret.id → program.Avoids secret) (depth : Nat)
    {reached : World} (member : reached ∈ (program.run (callWithin depth)).worlds world) :
    reached.Closed := by
  intro secret missing
  have follows := program.follows_kinds depth world
  have early : ¬ world.Has secret.id := fun made =>
    missing (follows.allows_of_mem member secret.id made).1
  have discreet := discreet_program (discreet_callWithin secret depth) (avoids secret early)
  have spares := (discreet.conceals world (closed secret early)).spares_of_mem follows
    (fun kinds made => (kinds _ made).1) (closed secret early) member
    fun made => absurd made missing
  exact spares.hides

/-- The run of a program leaves a realm its intrinsics at every point. -/
theorem Program.hasIntrinsics_of_mem {program : Program} {realm : RealmId}
    (intrinsics : world.HasIntrinsics realm) (depth : Nat) {reached : World}
    (member : reached ∈ (program.run (callWithin depth)).worlds world) :
    reached.HasIntrinsics realm :=
  intrinsics.of_sameKinds ((program.follows_kinds depth world).allows_of_mem member)

end EcmaCore
