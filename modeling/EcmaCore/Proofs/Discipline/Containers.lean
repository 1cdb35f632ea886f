/-
This file proves that arrays and JSON keep every discipline, as long as calls of function
values do. Containers are filled by definition and walked by reading, so all of it comes
down to the operations on single objects; joining only notes in the realm which arrays it
is inside.
-/

import EcmaCore.Proofs.Discipline.Objects

namespace EcmaCore

open Discipline Run

variable {discipline : Discipline} {call : Caller} {rule : Rule}

/-! ### Arrays -/

section

variable (caller : call.Steady discipline.hosted) (realm : RealmId)
include caller

theorem steady_arrayOf (elements : List Value) :
    (arrayOf call realm elements).Steady discipline.hosted := by
  refine (steady_emptyArray realm).bind fun id => ?_
  exact (steady_createAll caller realm id _).bind fun _ => steady_pure _

theorem steady_arrayOfLength (length : Number) :
    (arrayOfLength call realm length).Steady discipline.hosted := by
  refine (steady_emptyArray realm).bind fun id => ?_
  exact (steady_set caller realm id _ _).bind fun _ => steady_pure _

theorem steady_constructArray (arguments : List Value) :
    (constructArray call realm arguments).Steady discipline.hosted := by
  unfold constructArray
  split
  · split
    · split
      · exact steady_arrayOfLength caller realm _
      · exact keeps_throw _
    · exact keeps_throw _
  · exact steady_arrayOf caller realm arguments

theorem steady_mapElement (source result : ObjectId) (callback receiver : Value) (index : Nat) :
    (mapElement call realm source result callback receiver index).Steady discipline.hosted := by
  refine (steady_has source _).bind fun present => ?_
  cases present with
  | false => exact steady_pure _
  | true =>
    refine (steady_get caller realm source _).bind fun element => ?_
    refine (caller _ _ _ _).bind fun mapped => ?_
    exact steady_createOrThrow caller realm result _ mapped

theorem steady_mapArray (source callback receiver : Value) :
    (mapArray call realm source callback receiver).Steady discipline.hosted := by
  refine (steady_toObject realm source).bind fun id => ?_
  refine (steady_lengthOf caller realm id).bind fun length => ?_
  refine (steady_isCallable callback).bind fun callable => ?_
  cases callable with
  | false => exact (steady_display _).bind fun _ => keeps_throw _
  | true =>
    show Run.Steady _ (if length ≤ maxLength then _ else _)
    split
    · refine (steady_arrayOfLength caller realm _).bind fun result => ?_
      refine (steady_collect (fun index => ?_) length).bind fun _ => steady_pure _
      exact steady_mapElement caller realm id result callback receiver index
    · exact keeps_throw _

theorem steady_elementText (id : ObjectId) (index : Nat) :
    (elementText call realm id index).Steady discipline.hosted := by
  refine (steady_get caller realm id _).bind fun element => ?_
  cases element with
  | undefined => exact steady_pure _
  | null => exact steady_pure _
  | _ => exact steady_toUnits caller realm _

theorem steady_joinElements (id : ObjectId) (separator : Units) :
    (joinElements call realm id separator).Steady discipline.hosted := by
  refine (steady_lengthOf caller realm id).bind fun length => ?_
  exact (steady_collect (fun index => steady_elementText caller realm id index) length).bind
    fun _ => steady_pure _

end

/-- What joins are running in a realm shows in no object and in no snapshot. -/
theorem moves_joining (realm : RealmId) (joining : Realm → List ObjectId) (world : World)
    (start : discipline.hosted.holds world) :
    discipline.hosted.Moves world
      (world.modifyRealm realm fun region => { region with joining := joining region }) := by
  refine moves_unseen ?_ ?_ world start
  · exact fun _ => rfl
  · exact fun _ => rfl

section

variable (caller : call.Steady discipline.hosted) (realm : RealmId)
include caller

theorem steady_joinArray (source : Value) (separator : Units) :
    (joinArray call realm source separator).Steady discipline.hosted := by
  refine (steady_toObject realm source).bind fun id => ?_
  refine (steady_read _).bind fun joining => ?_
  split
  · exact steady_pure _
  · refine (steady_modify (moves_joining realm _)).bind fun _ => ?_
    exact (steady_joinElements caller realm id separator).followedBy (moves_joining realm _)

end

/-! ### From trees to values -/

namespace Json

mutual

theorem steady_plant (caller : call.Steady discipline.hosted) (realm : RealmId) (tree : Tree) :
    (plant call realm tree).Steady discipline.hosted := by
  cases tree with
  | array elements =>
    unfold plant
    refine (steady_plantElements caller realm elements).bind fun values => ?_
    exact (steady_arrayOf caller realm values).bind fun _ => steady_pure _
  | object members =>
    unfold plant
    refine (steady_plantMembers caller realm members).bind fun entries => ?_
    exact (steady_objectOf caller realm entries).bind fun _ => steady_pure _
  | _ =>
    unfold plant
    exact steady_pure _

theorem steady_plantElements (caller : call.Steady discipline.hosted) (realm : RealmId)
    (elements : List Tree) : (plantElements call realm elements).Steady discipline.hosted := by
  cases elements with
  | nil =>
    unfold plantElements
    exact steady_pure _
  | cons element rest =>
    unfold plantElements
    refine (steady_plant caller realm element).bind fun value => ?_
    exact (steady_plantElements caller realm rest).bind fun _ => steady_pure _

theorem steady_plantMembers (caller : call.Steady discipline.hosted) (realm : RealmId)
    (members : List (Units × Tree)) :
    (plantMembers call realm members).Steady discipline.hosted := by
  cases members with
  | nil =>
    unfold plantMembers
    exact steady_pure _
  | cons member rest =>
    obtain ⟨key, tree⟩ := member
    unfold plantMembers
    refine (steady_plant caller realm tree).bind fun value => ?_
    exact (steady_plantMembers caller realm rest).bind fun _ => steady_pure _

end

variable (caller : call.Steady discipline.hosted) (realm : RealmId)
include caller

theorem steady_readValue (text : Units) :
    (readValue call realm text).Steady discipline.hosted := by
  unfold readValue
  split
  · exact steady_plant caller realm _
  · exact keeps_throw _

/-! ### From values to trees -/

theorem steady_replacement (value : Value) :
    (replacement call realm value).Steady discipline.hosted := by
  cases value with
  | object id =>
    refine (steady_get caller realm id _).bind fun method => ?_
    refine (steady_isCallable method).bind fun callable => ?_
    cases callable with
    | true => exact caller _ _ _ _
    | false => exact steady_pure _
  | _ => exact steady_pure _

section

variable {inner : Value → Run (Option Tree)}
  (below : ∀ value, (inner value).Steady discipline.hosted)
include below

theorem steady_memberTree (id : ObjectId) (key : Key) :
    (memberTree call realm inner id key).Steady discipline.hosted := by
  refine (steady_object id).bind fun object => ?_
  split
  · refine (steady_get caller realm id key).bind fun value => ?_
    exact (below value).bind fun _ => steady_pure _
  · exact steady_pure _

theorem steady_arrayTree (id : ObjectId) :
    (arrayTree call realm inner id).Steady discipline.hosted := by
  refine (steady_lengthOf caller realm id).bind fun length => ?_
  refine (steady_collect (fun index => ?_) length).bind fun _ => steady_pure _
  refine (steady_get caller realm id _).bind fun value => ?_
  exact (below value).bind fun _ => steady_pure _

theorem steady_objectTree (id : ObjectId) :
    (objectTree call realm inner id).Steady discipline.hosted := by
  refine (steady_object id).bind fun object => ?_
  exact (steady_traverse (fun key => steady_memberTree caller realm below id key) _).bind
    fun _ => steady_pure _

end

theorem steady_treeWithin (room : Nat) (enclosing : List ObjectId) (value : Value) :
    (treeWithin call realm room enclosing value).Steady discipline.hosted := by
  -- A tree without room for containers differs only where a container is met.
  induction room using Nat.strongRecOn generalizing enclosing value with
  | ind room inductionHypothesis =>
    unfold treeWithin
    refine (steady_replacement caller realm value).bind fun result => ?_
    cases result with
    | object id =>
      refine (steady_isCallable _).bind fun callable => ?_
      split
      · exact steady_pure _
      · split
        · exact keeps_throw _
        · cases room with
          | zero => exact keeps_throw _
          | succ inside =>
            have below := inductionHypothesis inside (Nat.lt_succ_self inside) (id :: enclosing)
            refine (steady_isArray _).bind fun array => ?_
            split
            · exact (steady_arrayTree caller realm below id).bind fun _ => steady_pure _
            · exact (steady_objectTree caller realm below id).bind fun _ => steady_pure _
    | _ => exact steady_pure _

theorem steady_stringify (value : Value) :
    (stringify call realm value).Steady discipline.hosted :=
  (steady_treeWithin caller realm maxDepth [] value).bind fun _ => steady_pure _

/-! ### Reviving -/

theorem steady_replaceChild (id : ObjectId) (key : Key) (result : Value) :
    (replaceChild call realm id key result).Steady discipline.hosted := by
  unfold replaceChild
  split
  · exact (steady_delete id key).bind fun _ => steady_pure _
  · exact (steady_create caller realm id key result).bind fun _ => steady_pure _

theorem steady_revive (reviver : Value) (depth : Nat) (holder : ObjectId) (key : Key) :
    (revive call realm reviver depth holder key).Steady discipline.hosted := by
  induction depth generalizing holder key with
  | zero => exact keeps_cutOff
  | succ depth inductionHypothesis =>
    unfold revive
    refine (steady_get caller realm holder key).bind fun value => ?_
    have child (id : ObjectId) (key : Key) :
        (do replaceChild call realm id key (← revive call realm reviver depth id key) :
          Run Unit).Steady discipline.hosted :=
      (inductionHypothesis id key).bind fun result => steady_replaceChild caller realm id key result
    have last : (call realm reviver (.object holder) [.string key.units, value]).Steady
        discipline.hosted := caller _ _ _ _
    cases value with
    | object id =>
      refine (steady_isArray _).bind fun array => ?_
      split
      · refine (steady_lengthOf caller realm id).bind fun length => ?_
        exact (steady_collect (fun index => child id _) length).bind fun _ => last
      · refine (steady_object id).bind fun object => ?_
        exact (steady_traverse (fun key => child id key) _).bind fun _ => last
    | _ => exact last

theorem steady_reviveRoot (depth : Nat) (value reviver : Value) :
    (reviveRoot call realm depth value reviver).Steady discipline.hosted :=
  (steady_objectOf caller realm _).bind fun root =>
    steady_revive caller realm reviver depth root _

end Json

end EcmaCore
