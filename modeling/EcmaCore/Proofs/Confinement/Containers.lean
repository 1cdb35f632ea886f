/-
This file proves that arrays and JSON are confined, as long as calls of function values are.
A container that is made is a new object of the territory, and what is put into it belongs
there. What is walked belongs there too, from the object that the walk starts at.
-/

import EcmaCore.Proofs.Confinement.Objects

namespace EcmaCore

open Run

variable {territory : Territory} {confinement : Confinement territory} {call : Caller}
  {realm : RealmId} {id : ObjectId} {value : Value}

/-! ### Arrays -/

section

variable (caller : call.Confined confinement) (governed : territory.governs realm)
include caller governed

theorem confined_arrayOf {elements : List Value} (held : territory.OwnsAll elements) :
    (arrayOf call realm elements).Confined confinement territory.owns := by
  have empty := Object.within_emptyArray governed
  refine (confined_allocate governed empty).bind fun id owned => ?_
  have entries : ∀ entry ∈ indexed elements, entry.2.Within territory := by
    intro entry member
    obtain ⟨⟨element, index⟩, listed, rfl⟩ := List.mem_map.mp member
    exact held element (List.fst_mem_of_mem_zipIdx listed)
  exact (contained_createAll caller governed owned entries).bind fun _ => confined_pure owned

theorem confined_arrayOfLength (length : Number) :
    (arrayOfLength call realm length).Confined confinement territory.owns := by
  have empty := Object.within_emptyArray governed
  refine (confined_allocate governed empty).bind fun id owned => ?_
  exact (contained_set caller governed owned _ (Value.within_of_primitive rfl)).bind fun _ =>
    confined_pure owned

theorem confined_constructArray {arguments : List Value} (held : territory.OwnsAll arguments) :
    (constructArray call realm arguments).Confined confinement territory.owns := by
  unfold constructArray
  split
  · split
    · split
      · exact confined_arrayOfLength caller governed _
      · exact confined_throw _
    · exact confined_throw _
  · exact confined_arrayOf caller governed held

theorem contained_mapElement {source result : ObjectId} {callback receiver : Value}
    (ownedSource : territory.owns source) (ownedResult : territory.owns result)
    (within : callback.Within territory) (withinReceiver : receiver.Within territory)
    (index : Nat) :
    (mapElement call realm source result callback receiver index).Contained confinement := by
  refine (contained_has ownedSource _).bind fun present => ?_
  cases present with
  | false => exact contained_pure _
  | true =>
    refine (confined_get caller governed ownedSource _).bind fun element withinElement => ?_
    have told : territory.OwnsAll
        [callback, receiver, element, .number (.ofNat index), .object source] := by
      have number : (Value.number (.ofNat index)).Within territory := Value.within_of_primitive rfl
      simp [within, withinReceiver, withinElement, number, ownedSource]
    refine (caller _ _ _ _ governed told).bind fun mapped withinMapped => ?_
    exact contained_createOrThrow caller governed ownedResult _ withinMapped

theorem confined_mapArray {source callback receiver : Value}
    (held : territory.OwnsAll [source, callback, receiver]) :
    (mapArray call realm source callback receiver).Confined confinement
      (Value.Within territory) := by
  obtain ⟨withinSource, within, withinReceiver⟩ := by simpa using held
  refine (confined_toObject governed withinSource).bind fun id owned => ?_
  refine (contained_lengthOf caller governed owned).bind fun length => ?_
  refine (contained_isCallable within).bind fun callable => ?_
  cases callable with
  | false => exact (contained_display within).bind fun _ => confined_throw _
  | true =>
    show Run.Confined _ _ (if length ≤ maxLength then _ else _)
    split
    · refine (confined_arrayOfLength caller governed _).bind fun result ownedResult => ?_
      refine (contained_collect (fun index => ?_) length).bind fun _ =>
        confined_pure (Value.within_object.mpr ownedResult)
      exact contained_mapElement caller governed owned ownedResult within withinReceiver index
    · exact confined_throw _

theorem contained_elementText (owned : territory.owns id) (index : Nat) :
    (elementText call realm id index).Contained confinement := by
  refine (confined_get caller governed owned _).bind fun element within => ?_
  cases element with
  | undefined => exact contained_pure _
  | null => exact contained_pure _
  | _ => exact contained_toUnits caller governed within

theorem contained_joinElements (owned : territory.owns id) (separator : Units) :
    (joinElements call realm id separator).Contained confinement := by
  refine (contained_lengthOf caller governed owned).bind fun length => ?_
  have texts (index : Nat) := contained_elementText caller governed owned index
  exact (contained_collect texts length).bind fun _ => contained_pure _

theorem contained_joinArray {source : Value} (within : source.Within territory)
    (separator : Units) : (joinArray call realm source separator).Contained confinement := by
  rw [joinArray_eq]
  refine (confined_toObject governed within).bind fun id owned => ?_
  exact (contained_joinElements caller governed owned separator).joinOnce governed

end

namespace Json

/-! ### From trees to values -/

mutual

theorem confined_plant (caller : call.Confined confinement) (governed : territory.governs realm)
    (tree : Tree) : (plant call realm tree).Confined confinement (Value.Within territory) := by
  cases tree with
  | array elements =>
    unfold plant
    refine (confined_plantElements caller governed elements).bind fun values held => ?_
    exact (confined_arrayOf caller governed held).asValue
  | object members =>
    unfold plant
    refine (confined_plantMembers caller governed members).bind fun entries within => ?_
    exact (confined_objectOf caller governed within).asValue
  | _ =>
    unfold plant
    exact confined_pure (Value.within_of_primitive rfl)

theorem confined_plantElements (caller : call.Confined confinement)
    (governed : territory.governs realm) (elements : List Tree) :
    (plantElements call realm elements).Confined confinement territory.OwnsAll := by
  cases elements with
  | nil =>
    unfold plantElements
    exact confined_pure Territory.ownsAll_nil
  | cons element rest =>
    unfold plantElements
    refine (confined_plant caller governed element).bind fun value within => ?_
    exact (confined_plantElements caller governed rest).bind fun values held =>
      confined_pure (Territory.ownsAll_cons.mpr ⟨within, held⟩)

theorem confined_plantMembers (caller : call.Confined confinement)
    (governed : territory.governs realm) (members : List (Units × Tree)) :
    (plantMembers call realm members).Confined confinement
      fun entries => ∀ entry ∈ entries, entry.2.Within territory := by
  cases members with
  | nil =>
    unfold plantMembers
    exact confined_pure (List.forall_mem_nil _)
  | cons member rest =>
    obtain ⟨key, tree⟩ := member
    unfold plantMembers
    refine (confined_plant caller governed tree).bind fun value within => ?_
    exact (confined_plantMembers caller governed rest).bind fun entries others =>
      confined_pure (List.forall_mem_cons.mpr ⟨within, others⟩)

end

variable (caller : call.Confined confinement) (governed : territory.governs realm)
include caller governed

theorem confined_readValue (text : Units) :
    (readValue call realm text).Confined confinement (Value.Within territory) := by
  unfold readValue
  split
  · exact confined_plant caller governed _
  · exact confined_throw _

/-! ### From values to trees -/

theorem confined_replacement (within : value.Within territory) :
    (replacement call realm value).Confined confinement (Value.Within territory) := by
  cases value with
  | object id =>
    have owned := Value.within_object.mp within
    refine (confined_get caller governed owned _).bind fun method withinMethod => ?_
    refine (contained_isCallable withinMethod).bind fun callable => ?_
    cases callable with
    | true => exact caller _ _ _ _ governed (by simp [withinMethod, owned])
    | false => exact confined_pure within
  | _ => exact confined_pure within

section

variable {inner : Value → Run (Option Tree)}
  (below : ∀ value, value.Within territory → (inner value).Contained confinement)
  (owned : territory.owns id)
include below owned

theorem contained_memberTree (key : Key) :
    (memberTree call realm inner id key).Contained confinement := by
  refine (confined_object owned).contained.bind fun object => ?_
  split
  · refine (confined_get caller governed owned key).bind fun value within => ?_
    exact (below value within).bind fun _ => contained_pure _
  · exact contained_pure _

theorem contained_arrayTree : (arrayTree call realm inner id).Contained confinement := by
  refine (contained_lengthOf caller governed owned).bind fun length => ?_
  refine (contained_collect (fun index => ?_) length).bind fun _ => contained_pure _
  refine (confined_get caller governed owned _).bind fun value within => ?_
  exact (below value within).bind fun _ => contained_pure _

theorem contained_objectTree : (objectTree call realm inner id).Contained confinement := by
  refine (confined_object owned).contained.bind fun object => ?_
  have member (key : Key) := contained_memberTree caller governed below owned key
  exact (contained_traverse member _).bind fun _ => contained_pure _

end

theorem contained_treeWithin (room : Nat) (enclosing : List ObjectId)
    (within : value.Within territory) :
    (treeWithin call realm room enclosing value).Contained confinement := by
  -- A tree without room for containers differs only where a container is met.
  induction room using Nat.strongRecOn generalizing enclosing value with
  | ind room inductionHypothesis =>
    unfold treeWithin
    refine (confined_replacement caller governed within).bind fun result withinResult => ?_
    cases result with
    | object id =>
      have owned := Value.within_object.mp withinResult
      refine (contained_isCallable withinResult).bind fun callable => ?_
      split
      · exact contained_pure _
      · split
        · exact confined_throw _
        · cases room with
          | zero => exact confined_throw _
          | succ inside =>
            have below (value : Value) (within : value.Within territory) :
                (treeWithin call realm inside (id :: enclosing) value).Contained confinement :=
              inductionHypothesis inside (Nat.lt_succ_self inside) (id :: enclosing) within
            refine (contained_isArray withinResult).bind fun array => ?_
            split
            · exact (contained_arrayTree caller governed below owned).bind fun _ =>
                contained_pure _
            · exact (contained_objectTree caller governed below owned).bind fun _ =>
                contained_pure _
    | _ => exact contained_pure _

theorem contained_stringify (within : value.Within territory) :
    (stringify call realm value).Contained confinement :=
  (contained_treeWithin caller governed maxDepth [] within).bind fun _ => contained_pure _

/-! ### Reviving -/

theorem contained_replaceChild (owned : territory.owns id) (key : Key) {result : Value}
    (within : result.Within territory) :
    (replaceChild call realm id key result).Contained confinement := by
  unfold replaceChild
  split
  · exact (contained_delete owned key).bind fun _ => contained_pure _
  · exact (contained_create caller governed owned key within).bind fun _ => contained_pure _

theorem confined_revive {reviver : Value} (withinReviver : reviver.Within territory) (depth : Nat)
    {holder : ObjectId} (owned : territory.owns holder) (key : Key) :
    (revive call realm reviver depth holder key).Confined confinement
      (Value.Within territory) := by
  induction depth generalizing holder key with
  | zero => exact confined_cutOff
  | succ depth inductionHypothesis =>
    unfold revive
    refine (confined_get caller governed owned key).bind fun value within => ?_
    have child {id : ObjectId} (inside : territory.owns id) (key : Key) :
        (do replaceChild call realm id key (← revive call realm reviver depth id key) :
          Run Unit).Contained confinement :=
      (inductionHypothesis inside key).bind fun _ within =>
        contained_replaceChild caller governed inside key within
    have text : (Value.string key.units).Within territory := Value.within_of_primitive rfl
    have last : (call realm reviver (.object holder) [.string key.units, value]).Confined
        confinement (Value.Within territory) :=
      caller _ _ _ _ governed (by simp [withinReviver, owned, text, within])
    cases value with
    | object id =>
      have inside := Value.within_object.mp within
      refine (contained_isArray within).bind fun array => ?_
      split
      · refine (contained_lengthOf caller governed inside).bind fun length => ?_
        exact (contained_collect (fun index => child inside _) length).bind fun _ => last
      · refine (confined_object inside).contained.bind fun object => ?_
        exact (contained_traverse (fun key => child inside key) _).bind fun _ => last
    | _ => exact last

theorem confined_reviveRoot (depth : Nat) {reviver : Value} (within : value.Within territory)
    (withinReviver : reviver.Within territory) :
    (reviveRoot call realm depth value reviver).Confined confinement (Value.Within territory) :=
  (confined_objectOf caller governed (List.forall_mem_singleton.mpr within)).bind fun _ owned =>
    confined_revive caller governed withinReviver depth owned _

end Json

end EcmaCore
