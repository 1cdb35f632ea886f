/-
This file holds snapshots: an object's own properties, prototype and extensibility at
some moment, and putting them back. A run under a snapshot cannot outlive itself: the
object is put back whether the run ends in a value or an error.
-/

import EcmaCore.World.Basic

namespace EcmaCore

/-- The object as the snapshot has it, with the class and the callable side it has now. -/
def Snapshot.onto (snapshot : Snapshot) (object : Object) : Object :=
  { object with table := snapshot.table, prototype := snapshot.prototype,
                extensible := snapshot.extensible }

namespace World

/-- The object as it is now, none for an identity never given out. -/
def capture? (world : World) (id : ObjectId) : Option Snapshot :=
  if world.Has id then
    some { target := id, table := (world.object id).table,
           prototype := (world.object id).prototype,
           extensible := (world.object id).extensible }
  else none

/-- The world with an object put back. -/
def restore (world : World) (snapshot : Snapshot) : World :=
  world.modifyObject snapshot.target snapshot.onto

end World

/-- The run, and after it the object put back as it was before. -/
def Run.preserving {α : Type} (id : ObjectId) (run : Run α) : Run α := do
  match ← Run.read (·.capture? id) with
  | some snapshot => run.followedBy (·.restore snapshot)
  | none => run

end EcmaCore
