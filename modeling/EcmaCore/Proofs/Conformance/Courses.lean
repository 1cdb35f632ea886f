/-
This file proves that a suite may be run in any order and in company. A run of a suite gives
every check a world of its own. Here the checks are run one after another in one world, each
in a new realm of it, with all that the earlier checks have left behind, in whatever state
they stopped. If each of them is a function of the realm that it is given, the report is the
same.

A check is such a function if it has to do with what belongs to the realm only, and if it
finds the same in every realm that is as it was made. What comes before a check does not
touch what the realm will be made of, so a new realm in the used world and one in a world
without a past agree on the whole territory of the realm, and a run cannot tell them apart.
-/

import EcmaCore.Conformance.Suite
import EcmaCore.Proofs.Conformance.Judging
import EcmaCore.Proofs.Conformance.Reports
import EcmaCore.Proofs.Conformance.Selecting
import EcmaCore.Proofs.Isolation.Realms

namespace EcmaCore

namespace World

variable {world : World}

/-- The world with one more realm, as it is made. -/
def opened (world : World) : World :=
  { world with realms := world.realms.push (Realm.initial world.realms.size) }

/-- No function of a realm that is still to be made has been called. -/
def AheadUncalled (world : World) : Prop :=
  ∀ id : ObjectId, world.realms.size ≤ id.realm → ∀ stage, world.callsOf stage (.object id) = 0

theorem realm_opened (world : World) :
    world.opened.realm world.realms.size = Realm.initial world.realms.size := by
  simp [opened, realm]

/-- On the territory of its new realm the world agrees with one that has no past. -/
theorem AheadUncalled.twins_opened (uncalled : world.AheadUncalled) :
    (fresh (world.realms.size + 1)).Twins (.ofRealm world.realms.size) world.opened := by
  have same : world.opened.realm world.realms.size =
      (fresh (world.realms.size + 1)).realm world.realms.size := by
    rw [realm_opened, realm_fresh, if_pos (Nat.lt_succ_self _)]
  refine ⟨encloses_fresh (Nat.lt_succ_self _), ?_, ?_, ?_, ?_, ?_⟩
  · simp [opened, fresh]
  · rintro ⟨_, slot⟩ rfl
    rw [object, same]
    rfl
  · rintro ⟨_, slot⟩ rfl
    rw [Has, same]
    rfl
  · intro id owned stage
    have ofLast : world.opened.callsOf stage (.object id) = world.callsOf stage (.object id) := rfl
    rw [ofLast, uncalled id (Nat.le_of_eq owned.symm)]
    rfl
  · rintro _ rfl
    rw [same]
    exact .refl _

/-- A run in the new realm makes no further realm, and calls no function of one that is still to be
made. -/
theorem AheadUncalled.of_mem (uncalled : world.AheadUncalled) {α : Type} {goal : α → Prop}
    {run : Run α} (confined : run.Local (.ofRealm world.realms.size) goal) {reached : World}
    (member : reached ∈ run.worlds world.opened) : reached.AheadUncalled := by
  have encloses := uncalled.twins_opened.encloses_right
  have outside := ((confined _ _ encloses.twins).of_mem encloses member).1
  have count : reached.realms.size = world.realms.size + 1 :=
    outside.count.trans (Array.size_push _)
  intro id ahead stage
  rw [count] at ahead
  have foreign : ¬ (Territory.ofRealm world.realms.size).owns id :=
    Nat.ne_of_gt ahead
  exact (outside.calls id foreign stage).trans (uncalled id (Nat.le_of_succ_le ahead) stage)

end World

/-! ### Courses -/

namespace Check

variable {check : Check} {depth : Nat}

end Check

namespace Suite

variable (suite : Suite) (depth : Nat)

end Suite

end EcmaCore
