/-
This file holds what host functions keep between calls: values under names, and
snapshots under names. A name has at most one snapshot; holding another puts the
first back.
-/

import EcmaCore.World.Snapshot

namespace EcmaCore.World

/-- The world with a realm's memory of snapshots changed. -/
def modifySnapshots (world : World) (realm : RealmId)
    (change : Table String Snapshot → Table String Snapshot) : World :=
  world.modifyRealm realm fun region =>
    { region with memory := { region.memory with snapshots := change region.memory.snapshots } }

/-- Puts back what a realm holds under a name and forgets it. -/
def release (world : World) (realm : RealmId) (name : String) : World :=
  match (world.realm realm).memory.snapshots.get? name with
  | some snapshot => (world.modifySnapshots realm (·.erase name)).restore snapshot
  | none => world

/-- Holds a snapshot of an object under a name. One that was held there is put back, after the new
one was taken. -/
def hold (world : World) (realm : RealmId) (name : String) (id : ObjectId) : World :=
  match world.capture? id with
  | some snapshot => (world.release realm name).modifySnapshots realm (·.insert name snapshot)
  | none => world

/-- The value of a realm's variable, undefined if it was never written. -/
def load (world : World) (realm : RealmId) (name : String) : Value :=
  ((world.realm realm).memory.bindings.get? name).getD .undefined

/-- Writes a realm's variable. -/
def store (world : World) (realm : RealmId) (name : String) (value : Value) : World :=
  world.modifyRealm realm fun region =>
    { region with
      memory := { region.memory with bindings := region.memory.bindings.insert name value } }

end EcmaCore.World
