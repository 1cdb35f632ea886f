/-
This file shows that whatever the engine does is discreet. Everything but a secret object is
a territory, and what keeps to that territory does not lead to the secret. A look that sees
no further does not find it, and a confined change leaves its object alone. So discretion is
one of the judgements that can be put together from looks, changes and new objects, and what
holds of all of them holds of it: operations, programs and calls are discreet.

What a run leaves to scripts is therefore all that they can reach. An object that was made
and not yet shown to anyone stays as it was made, whatever scripts do meanwhile.
-/

import EcmaCore.Proofs.Confinement.Calls
import EcmaCore.Proofs.Discipline.Calls
import EcmaCore.Proofs.Secrecy.Basic

namespace EcmaCore

variable {secret : Secret}

/-! ### Everything else -/

/-- Everything but the secret object. -/
def Secret.territory (secret : Secret) : Territory where
  governs _ := True
  owns id := id ≠ secret.id
  intrinsic _ which := secret.intrinsic_ne which _

theorem Value.within_territory {value : Value} :
    value.Within secret.territory ↔ value.Avoids secret :=
  ⟨fun within same => within secret.id same rfl, fun avoids _ same other => avoids (other ▸ same)⟩

theorem Secret.ownsAll_territory {values : List Value} :
    secret.territory.OwnsAll values ↔ secret.Absent values :=
  forall₂_congr fun _ _ => Value.within_territory

theorem Program.within_territory {program : Program} :
    program.Within secret.territory ↔ program.Avoids secret := by
  induction program with
  | finish value => exact Value.within_territory
  | raise error => exact Iff.rfl
  | perform realm operation next inductionHypothesis =>
    simp only [Within, Avoids, Secret.ownsAll_territory, inductionHypothesis]
    exact and_iff_right trivial
  | makeFunction realm name arity body next bodyHypothesis nextHypothesis =>
    simp only [Within, Avoids, Secret.ownsAll_territory, bodyHypothesis, nextHypothesis]
    exact (and_iff_right trivial).trans
      (and_congr_left' (forall_congr' fun _ => forall_prop_of_true trivial))

theorem Behaviour.within_territory {behaviour : Behaviour} :
    behaviour.Within secret.territory ↔ behaviour.Avoids secret := by
  cases behaviour with
  | host body =>
    simp only [Within, Avoids, Secret.ownsAll_territory, Program.within_territory]
    exact forall_congr' fun _ => forall_prop_of_true trivial
  | _ => exact Iff.rfl

theorem Table.within_territory {table : Table Key Property} :
    table.Within secret.territory ↔ table.Avoids secret :=
  forall₃_congr fun _ _ _ => Secret.ownsAll_territory

theorem Object.within_territory {object : Object} :
    object.Within secret.territory ↔ object.Avoids secret where
  mp within := ⟨Table.within_territory.mp within.table, within.prototype,
    fun callable found => Behaviour.within_territory.mp (within.callable callable found)⟩
  mpr avoids := ⟨Table.within_territory.mpr avoids.table, avoids.prototype,
    fun callable found => Behaviour.within_territory.mpr (avoids.callable callable found)⟩

theorem Snapshot.within_territory {snapshot : Snapshot} :
    snapshot.Within secret.territory ↔ snapshot.Avoids secret where
  mp within := ⟨within.target, Table.within_territory.mp within.table, within.prototype⟩
  mpr avoids := ⟨avoids.target, Table.within_territory.mpr avoids.table, avoids.prototype⟩

theorem World.keepsTo_territory {world : World} :
    world.KeepsTo secret.territory ↔ world.Hides secret where
  mp keeps := {
    object := fun id other => Object.within_territory.mp (keeps.object id other)
    binding := fun realm name value bound =>
      Value.within_territory.mp ((keeps.memory realm trivial).binding name value bound)
    snapshot := fun realm name snapshot held =>
      Snapshot.within_territory.mp ((keeps.memory realm trivial).snapshot name snapshot held) }
  mpr hides := {
    object := fun id other => Object.within_territory.mpr (hides.object id other)
    memory := fun realm _ => {
      binding := fun name value bound =>
        Value.within_territory.mpr (hides.binding realm name value bound)
      snapshot := fun name snapshot held =>
        Snapshot.within_territory.mpr (hides.snapshot realm name snapshot held) } }

theorem World.Spares.of_confines {update : World → World}
    (confines : secret.territory.Confines update) {world : World} (hides : world.Hides secret) :
    world.Spares secret (update world) :=
  have keeps := World.keepsTo_territory.mpr hides
  ⟨World.keepsTo_territory.mp (confines.keeps keeps),
    (confines.outside keeps).object secret.id fun other => other rfl⟩

/-! ### Discretion as a confinement -/

theorem Run.silent_joinOnce {realm : RealmId} {id : ObjectId} {run : Run Units}
    (silent : run.Silent secret) : (joinOnce realm id run).Silent secret := by
  have governed : secret.territory.governs realm := trivial
  have looked : (Run.read fun world => (world.realm realm).joining).Silent secret :=
    discreet_read fun _ _ => trivial
  have entered : (Run.modify (·.enterJoin realm id)).Silent secret :=
    silent_modify fun _ => .of_confines (Territory.confines_enterJoin governed id)
  have leaves : secret.territory.Confines (·.leaveJoin realm) :=
    Territory.confines_leaveJoin governed
  refine looked.bind fun joining _ => ?_
  split
  · exact discreet_pure trivial
  · exact entered.bind fun _ _ => silent.followedBy fun _ => .of_confines leaves

/-- Runs that have anything but the secret are discreet if their parts are. -/
def Secret.judgement (secret : Secret) : Judgement secret.territory where
  judges := Run.Discreet secret
  done := Run.discreet_pure
  throw := Run.discreet_throw
  cutOff := Run.discreet_cutOff
  bind := Run.Discreet.bind
  weaken := Run.Discreet.weaken
  attempt := Run.Discreet.attempt
  followedBy discreet confines _ := discreet.followedBy fun _ => .of_confines confines
  read sees := Run.discreet_read fun _ hides => sees.met (World.keepsTo_territory.mpr hides)
  modify confines _ := Run.silent_modify fun _ => .of_confines confines
  joinOnce _ := Run.silent_joinOnce
  allocate _ within := Run.discreet_allocate _ (Object.within_territory.mp within)

/-- The note of a call of another object does not lead to the secret. -/
def Secret.confinement (secret : Secret) : Confinement secret.territory :=
  secret.judgement.confinement fun owned =>
    Run.silent_modify fun _ => .of_confines (Territory.confines_logged owned)

theorem Run.confined_value {run : Run Value} :
    run.Confined secret.confinement (Value.Within secret.territory) ↔
      run.Discreet secret (Value.Avoids secret) where
  mp discreet := Discreet.weaken discreet fun _ => Value.within_territory.mp
  mpr discreet := discreet.weaken fun _ => Value.within_territory.mpr

theorem Caller.confined_confinement {call : Caller} :
    call.Confined secret.confinement ↔ call.Discreet secret where
  mp confined realm function receiver arguments absent := Run.confined_value.mp
    (confined realm function receiver arguments trivial (Secret.ownsAll_territory.mpr absent))
  mpr discreet realm function receiver arguments _ held := Run.confined_value.mpr
    (discreet realm function receiver arguments (Secret.ownsAll_territory.mp held))

/-! ### Objects of the engine -/

namespace Object

/-- An object without properties and functions leads to its prototype only. -/
theorem avoids_bare {prototype : Option ObjectId} (kind : ObjectClass)
    (other : ∀ parent, prototype = some parent → parent ≠ secret.id) :
    ({ prototype := prototype, kind := kind } : Object).Avoids secret :=
  within_territory.mp (within_bare kind other)

theorem avoids_emptyArray (realm : RealmId) : (emptyArray realm).Avoids secret :=
  within_territory.mp (within_emptyArray trivial)

theorem avoids_intrinsic (secret : Secret) (which : Intrinsic) (realm : RealmId) :
    (which.object realm).Avoids secret :=
  within_territory.mp (within_intrinsic trivial which)

theorem Avoids.put {object : Object} {key : Key} {property : Property}
    (avoids : object.Avoids secret) (absent : secret.Absent property.values) :
    (object.put key property).Avoids secret :=
  within_territory.mp ((within_territory.mpr avoids).put (Secret.ownsAll_territory.mpr absent))

end Object

/-! ### What the engine does -/

section

variable {call : Caller} (caller : call.Discreet secret) (realm : RealmId) {id : ObjectId}

theorem discreet_toObject {value : Value} (avoids : value.Avoids secret) :
    (toObject realm value).Discreet secret (· ≠ secret.id) :=
  have confined : (toObject realm value).Confined secret.confinement secret.territory.owns :=
    confined_toObject trivial (Value.within_territory.mpr avoids)
  confined

include caller

theorem discreet_get (known : id ≠ secret.id) (key : Key) :
    (get call realm id key).Discreet secret (Value.Avoids secret) :=
  Run.confined_value.mp
    (confined_get (Caller.confined_confinement.mpr caller) trivial known key)

theorem silent_lengthOf (known : id ≠ secret.id) : (lengthOf call realm id).Silent secret :=
  contained_lengthOf (Caller.confined_confinement.mpr caller) trivial known

/-- A program that does not have the secret is discreet, as long as calls are. -/
theorem discreet_program {program : Program} (avoids : program.Avoids secret) :
    (program.run call).Discreet secret (Value.Avoids secret) :=
  Run.confined_value.mp (confined_program (Caller.confined_confinement.mpr caller)
    (Program.within_territory.mpr avoids))

end

/-- With any number of levels left, calls are discreet. -/
theorem discreet_callWithin (secret : Secret) (depth : Nat) :
    (callWithin depth).Discreet secret :=
  Caller.confined_confinement.mp (confined_callWithin secret.confinement depth)

end EcmaCore
