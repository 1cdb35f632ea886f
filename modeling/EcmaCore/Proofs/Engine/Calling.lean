/-
This file is about functions that are known and what is called of them. A call is noted in
the log and then the function does what it does; a property that is found as data is read
without a call. Between two worlds it is kept account of which of the old objects have been
changed and which functions were called, so that the rest can be relied on without looking.
-/

import EcmaCore.Proofs.Discipline.Calls
import EcmaCore.Proofs.World.Chains

namespace EcmaCore

/-! ### Worlds with little changed -/

namespace World

/-- Of the objects of the first world at most the given ones are changed in the second, and the
calls since then were of the given functions. -/
structure Spends (changed called : List ObjectId) (before after : World) : Prop where
  hasRealm : ∀ realm, before.HasRealm realm → after.HasRealm realm
  has : ∀ id, before.Has id → after.Has id
  object : ∀ id, before.Has id → id ∉ changed → after.object id = before.object id
  log : ∀ call ∈ after.log, call ∈ before.log ∨ call.callee ∈ called

variable {changed called : List ObjectId} {before between after world : World}

theorem Spends.refl (world : World) : world.Spends changed called world where
  hasRealm _ made := made
  has _ made := made
  object _ _ _ := rfl
  log _ member := Or.inl member

theorem Spends.trans (early : before.Spends changed called between)
    (late : between.Spends changed called after) : before.Spends changed called after where
  hasRealm realm made := late.hasRealm realm (early.hasRealm realm made)
  has id made := late.has id (early.has id made)
  object id made same :=
    (late.object id (early.has id made) same).trans (early.object id made same)
  log call member := (late.log call member).elim (early.log call) Or.inr

theorem Spends.mono {more further : List ObjectId} (spends : before.Spends changed called after)
    (changes : changed ⊆ more) (calls : called ⊆ further) : before.Spends more further after where
  hasRealm := spends.hasRealm
  has := spends.has
  object id made same := spends.object id made fun isChanged => same (changes isChanged)
  log call member := (spends.log call member).imp_right fun isCalled => calls isCalled

/-- Objects that are new need not be named among the changed ones. -/
theorem Spends.of_new {made : ObjectId} (early : before.Spends changed called between)
    (new : ¬ before.Has made) (late : between.Spends [made] called after) :
    before.Spends changed called after where
  hasRealm realm made := late.hasRealm realm (early.hasRealm realm made)
  has id made := late.has id (early.has id made)
  object id there same := by
    refine (late.object id (early.has id there) fun member => ?_).trans (early.object id there same)
    exact new (List.mem_singleton.mp member ▸ there)
  log call member := (late.log call member).elim (early.log call) Or.inr

theorem spends_add (world : World) (realm : RealmId) (object : Object) :
    world.Spends changed called (world.add realm object) where
  hasRealm another made := (hasRealm_modifyRealm _ another).mpr made
  has _ made := made.add realm object
  object _ made _ := object_add_of_ne made.ne_nextId object
  log _ member := Or.inl member

theorem spends_logged {callee : ObjectId} (mayCall : callee ∈ called) (receiver : Value)
    (arguments : List Value) :
    world.Spends changed called (world.logged ⟨callee, receiver, arguments, .begun⟩) where
  hasRealm _ made := made
  has _ made := made
  object _ _ _ := rfl
  log entry member := by
    rcases Array.mem_push.mp member with old | rfl
    · exact Or.inl old
    · exact Or.inr mayCall

/-- A change of a realm that leaves its objects alone. -/
theorem spends_modifyRealm {realm : RealmId} {change : Realm → Realm}
    (unseen : ∀ region, (change region).objects = region.objects) :
    world.Spends changed called (world.modifyRealm realm change) where
  hasRealm another made := (hasRealm_modifyRealm _ another).mpr made
  has id made := ((SameObjects.modifyRealm unseen).has id).mpr made
  object id _ _ := (SameObjects.modifyRealm unseen).object id
  log _ member := Or.inl member

theorem spends_modifyObject {id : ObjectId} (mayChange : id ∈ changed) (update : Object → Object) :
    world.Spends changed called (world.modifyObject id update) where
  hasRealm another made := (hasRealm_modifyRealm _ another).mpr made
  has _ made := (has_modifyObject _ _).mpr made
  object other _ same := object_modifyObject_of_ne (fun equal => same (by rwa [equal])) update
  log _ member := Or.inl member

end World

/-! ### Calls of known functions -/

/-- A call of a function is noted, and then the function does what it does. -/
theorem outcome_callWithin {world : World} {id : ObjectId} {callable : Callable} (depth : Nat)
    (realm : RealmId) (receiver : Value) (arguments : List Value)
    (found : (world.object id).callable = some callable) :
    (callWithin (depth + 1) realm (.object id) receiver arguments).outcome world =
      (callable.behaviour.run (callWithin depth) depth realm id receiver arguments).outcome
        (world.logged ⟨id, receiver, arguments, .begun⟩) := by
  rw [callWithin, Run.outcome_bind_of_done (Run.outcome_object id world), found]
  rfl

section

variable (call : Caller) (realm : RealmId) {world : World} {id holder : ObjectId} {value : Value}
  {writable enumerable configurable : Bool}

/-- Reading what is found as data, for any receiver. -/
theorem outcome_getFor_of_found {key : Key} (receiver : Value)
    (found : world.search id key = .found holder (.data value writable enumerable configurable)) :
    (getFor call realm id key receiver).outcome world = .done value world := by
  rw [getFor, Run.outcome_bind_of_done (Run.outcome_search_of_found found)]
  rfl

/-- A method that is found as data is called on the object. -/
theorem outcome_invoke {method : String} (arguments : List Value)
    (found : world.search id (.text method) =
      .found holder (.data value writable enumerable configurable)) :
    (invoke call realm (.object id) method arguments).outcome world =
      (call realm value (.object id) arguments).outcome world := by
  have got : (getOf call realm (.object id) (.text method)).outcome world = .done value world :=
    outcome_getFor_of_found call realm (.object id) found
  rw [invoke, Run.outcome_bind_of_done got]

theorem outcome_field_of_found {name : String}
    (found : world.search id (.text name) =
      .found holder (.data value writable enumerable configurable)) :
    (field call realm id name).outcome world = .done (some value) world := by
  have got : (get call realm id (.text name)).outcome world = .done value world :=
    outcome_getFor_of_found call realm _ found
  rw [field, Run.outcome_bind_of_done (Run.outcome_has_of_found found), if_pos rfl,
    Run.outcome_bind_of_done got]
  rfl

theorem outcome_field_of_absent {name : String}
    (absent : world.search id (.text name) = .absent) :
    (field call realm id name).outcome world = .done none world := by
  rw [field, Run.outcome_bind_of_done (Run.outcome_has_of_absent absent)]
  rfl

theorem outcome_requireCallable (complaint : String → Error)
    (callable : world.isCallable value = true) :
    (requireCallable (some value) complaint).outcome world = .done () world := by
  have defined : Descriptor.half (some value) = some value := by
    cases value <;> first | rfl | cases callable
  have asked : (Run.isCallable value).outcome world = .done true world :=
    congrArg (Outcome.done · world) callable
  rw [requireCallable, defined]
  exact Run.outcome_bind_of_done asked _

end

end EcmaCore
