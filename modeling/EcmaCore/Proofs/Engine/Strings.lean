/-
This file shows that a string behaves as the array of its units. It is boxed first, and the
box owns its length and an element for each unit, so neither joining nor mapping gets to see
what the prototypes have under these keys. Joined with nothing in between, the units give
back the string, whole surrogate pairs and lone halves alike. Mapped by the identity they
make an array of strings of one unit, and that array joins to the same string again.
-/

import EcmaCore.Proofs.Engine.Pointwise
import EcmaCore.Proofs.Engine.Unwinding
import EcmaCore.Proofs.Object.Boxes

namespace EcmaCore

/-- The objects whose joins run in the realm were made. -/
def World.JoinsMade (world : World) (realm : RealmId) : Prop :=
  ∀ id ∈ world.joins realm, world.Has id

/-! ### Methods of arrays -/

/-- The array prototype has the builtin function under the name, and that is still the function. -/
structure World.HasMethod (world : World) (realm : RealmId) (name : String) (which : Builtin) :
    Prop where
  slot : ∃ writable enumerable configurable,
    (world.object (Intrinsic.arrayPrototype.id realm)).own? (.text name) =
      some (.data ((Intrinsic.function which).value realm) writable enumerable configurable)
  behaviour : ∃ shown,
    (world.object ((Intrinsic.function which).id realm)).callable = some ⟨shown, .builtin which⟩

/-- Calls what the array prototype has under a name on any receiver. -/
def callArrayMethod (call : Caller) (realm : RealmId) (name : String) (receiver : Value)
    (arguments : List Value) : Run Value := do
  let method ← get call realm (Intrinsic.arrayPrototype.id realm) (.text name)
  call realm method receiver arguments

namespace World.HasMethod

variable {world : World} {realm : RealmId} {name : String} {which : Builtin}
  (method : world.HasMethod realm name which)
include method

theorem hasRealm : world.HasRealm realm := by
  obtain ⟨shown, found⟩ := method.behaviour
  exact (has_of_callable found).hasRealm

theorem of_spends {called : List ObjectId} {after : World} (spends : world.Spends [] called after) :
    after.HasMethod realm name which := by
  obtain ⟨writable, enumerable, configurable, slot⟩ := method.slot
  obtain ⟨shown, found⟩ := method.behaviour
  refine ⟨⟨writable, enumerable, configurable, ?_⟩, shown, ?_⟩
  · rw [spends.object _ (has_of_own? slot) nofun, slot]
  · rw [spends.object _ (has_of_callable found) nofun, found]

/-- A call of the method notes itself and does what the builtin function does. -/
theorem outcome_callArrayMethod (depth : Nat) (receiver : Value) (arguments : List Value) :
    (callArrayMethod (callWithin (depth + 1)) realm name receiver arguments).outcome world =
      (which.run (callWithin depth) depth realm receiver arguments).outcome
        (world.logged ⟨(Intrinsic.function which).id realm, receiver, arguments, .begun⟩) := by
  obtain ⟨writable, enumerable, configurable, slot⟩ := method.slot
  obtain ⟨shown, found⟩ := method.behaviour
  have got : (get (callWithin (depth + 1)) realm (Intrinsic.arrayPrototype.id realm)
      (.text name)).outcome world = .done ((Intrinsic.function which).value realm) world :=
    outcome_getFor_of_found _ realm _ (World.search_of_own? slot)
  rw [callArrayMethod, Run.outcome_bind_of_done got]
  exact outcome_callWithin depth realm receiver arguments found

/-- So does a call on an array that inherits it. -/
theorem outcome_invoke {values : List Value} {id : ObjectId}
    (array : (world.object id).IsArrayOf realm values) (bound : values.length ≤ maxLength)
    (noLength : Key.text name ≠ .length) (noIndex : (Key.text name).arrayIndex? = none)
    (depth : Nat) (arguments : List Value) :
    (invoke (callWithin (depth + 1)) realm (.object id) name arguments).outcome world =
      (which.run (callWithin depth) depth realm (.object id) arguments).outcome
        (world.logged ⟨(Intrinsic.function which).id realm, .object id, arguments, .begun⟩) := by
  obtain ⟨writable, enumerable, configurable, slot⟩ := method.slot
  obtain ⟨shown, found⟩ := method.behaviour
  have inherited : world.search id (.text name) = .found (Intrinsic.arrayPrototype.id realm)
      (.data ((Intrinsic.function which).value realm) writable enumerable configurable) :=
    World.search_of_prototype_found (array.own?_eq_none noLength noIndex bound) array.prototype
      (World.search_of_own? slot)
  exact (EcmaCore.outcome_invoke _ realm arguments inherited).trans
    (outcome_callWithin depth realm (.object id) arguments found)

end World.HasMethod

/-! ### Joining strings -/

/-- The object owns a length, and strings for elements, each under its index. -/
structure Object.ShowsTexts (object : Object) (texts : List Units) : Prop where
  length : ∃ writable enumerable configurable, object.own? .length =
    some (.data (.number (.ofNat texts.length)) writable enumerable configurable)
  elements : object.HoldsData (texts.map .string)

theorem Object.IsArrayOf.showsTexts {realm : RealmId} {texts : List Units} {object : Object}
    (array : object.IsArrayOf realm (texts.map .string)) : object.ShowsTexts texts where
  length := by
    have length := array.length
    rw [List.length_map] at length
    exact ⟨true, false, false, length⟩
  elements := array.holdsData

section

variable {realm : RealmId} {world : World} {id : ObjectId} {texts : List Units}
  (shows : (world.object id).ShowsTexts texts) (bound : texts.length ≤ maxLength)
include shows bound

theorem outcome_lengthOf_texts (call : Caller) (realm : RealmId) :
    (lengthOf call realm id).outcome world = .done texts.length world := by
  obtain ⟨_, _, _, length⟩ := shows.length
  rw [outcome_lengthOf call realm (shown?_of_own? length), Number.toLength_ofNat bound]

/-- The texts are joined as they are, without a call. -/
theorem outcome_joinElements_of_texts (call : Caller) (realm : RealmId) (separator : Units) :
    (joinElements call realm id separator).outcome world =
      .done (separator.intercalate texts) world := by
  have each : ∀ index < texts.length,
      (elementText call realm id index).outcome world = .done (texts.getD index []) world := by
    intro index inside
    obtain ⟨_, _, _, slot⟩ := shows.elements index (by rwa [List.length_map])
    rw [List.getElem_map] at slot
    refine outcome_elementText call realm (shown?_of_own? slot) nofun nofun ?_
    rw [List.getD_eq_getElem?_getD, List.getElem?_eq_getElem inside]
    rfl
  have all : (List.range texts.length).map (fun index => texts.getD index []) = texts := by
    refine List.ext_getElem (by simp) fun index _ inside => ?_
    rw [List.getElem_map, List.getElem_range, List.getD_eq_getElem?_getD,
      List.getElem?_eq_getElem inside, Option.getD_some]
  rw [joinElements, Run.outcome_bind_of_done (outcome_lengthOf_texts shows bound call realm),
    Run.outcome_bind_of_done (Run.outcome_collect each), all]
  rfl

/-- So a join of the object that is not running ends in them, and changes no object. -/
theorem outcome_arrayJoin_of_texts (new : id ∉ world.joins realm) (call : Caller) (depth : Nat)
    (separator : Units) (called : List ObjectId) :
    ∃ after, (Builtin.arrayJoin.run call depth realm (.object id) [.string separator]).outcome
        world = .done (.string (separator.intercalate texts)) after ∧
      world.Spends [] called after := by
  have entered : world.Spends [] called (world.enterJoin realm id) :=
    World.spends_modifyRealm fun _ => rfl
  have left : (world.enterJoin realm id).Spends [] called
      ((world.enterJoin realm id).leaveJoin realm) := World.spends_modifyRealm fun _ => rfl
  obtain ⟨_, _, _, length⟩ := shows.length
  rw [← entered.object id (World.has_of_own? length) nofun] at shows
  have asked : (separatorOf call realm (.string separator)).outcome world =
      .done separator world := rfl
  have joined : (joinArray call realm (.object id) separator).outcome world =
      .done (separator.intercalate texts) ((world.enterJoin realm id).leaveJoin realm) := by
    rw [outcome_joinArray_new call new, outcome_joinElements_of_texts shows bound]
    rfl
  refine ⟨(world.enterJoin realm id).leaveJoin realm, ?_, entered.trans left⟩
  rw [Builtin.run]
  show (separatorOf call realm (.string separator) >>= _).outcome world = _
  rw [Run.outcome_bind_of_done asked, Run.outcome_bind_of_done joined]
  rfl

end

/-! ### Units -/

/-- The units of a string, each as a text of its own. -/
def unitTexts (units : Units) : List Units := units.map fun unit => [unit]

theorem length_unitTexts (units : Units) : (unitTexts units).length = units.length :=
  List.length_map _

/-- With nothing between them the units give back the string. -/
theorem intercalate_unitTexts (units : Units) : List.intercalate [] (unitTexts units) = units := by
  induction units with
  | nil => rfl
  | cons unit rest inductionHypothesis =>
    cases rest with
    | nil => rfl
    | cons next rest =>
      have split : List.intercalate [] (unitTexts (unit :: next :: rest)) =
          [unit] ++ [] ++ List.intercalate [] (unitTexts (next :: rest)) :=
        List.intercalate_cons_cons
      rw [split, inductionHypothesis]
      rfl

theorem Object.showsTexts_ofString (realm : RealmId) (units : Units) :
    (ofString realm units).ShowsTexts (unitTexts units) where
  length := by
    rw [length_unitTexts]
    exact ⟨false, false, false, own?_length_ofString realm units⟩
  elements index inside := by
    rw [List.length_map, length_unitTexts] at inside
    refine ⟨false, true, false, ?_⟩
    rw [own?_index_ofString realm inside]
    simp only [unitTexts, List.getElem_map]
    rfl

section

variable {realm : RealmId} {world : World} {units : Units} (hasRealm : world.HasRealm realm)
  (bound : units.length ≤ maxLength)
include hasRealm bound

/-- A string is boxed to be joined, and nothing but its own units is looked at. -/
theorem outcome_arrayJoin_of_string (joined : world.JoinsMade realm)
    (call : Caller) (depth : Nat) (called : List ObjectId) :
    ∃ after, (Builtin.arrayJoin.run call depth realm (.string units) [.string []]).outcome world =
        .done (.string units) after ∧ world.Spends [] called after := by
  have box := World.object_add_nextId hasRealm (.ofString realm units)
  have shows := Object.showsTexts_ofString realm units
  rw [← box] at shows
  have new : world.nextId realm ∉ (world.add realm (.ofString realm units)).joins realm := by
    rw [World.joins_add]
    exact fun member => World.not_has_nextId (joined _ member)
  obtain ⟨after, ended, spends⟩ := outcome_arrayJoin_of_texts shows
    ((length_unitTexts units).symm ▸ bound) new call depth [] called
  rw [intercalate_unitTexts] at ended
  exact ⟨after, ended, (World.spends_add _ _ _).trans spends⟩

/-- Mapping a string by a function that returns its argument boxes it, and makes an array of its
units. -/
theorem outcome_mapArray_of_string {callback : ObjectId} {callable : Callable}
    (found : (world.object callback).callable = some callable)
    (identity : ∀ value, callable.behaviour.Turns value value) (depth : Nat) (receiver : Value) :
    ∃ result after, (mapArray (callWithin (depth + 1)) realm (.string units) (.object callback)
        receiver).outcome world = .done (.object result) after ∧
      world.Spends [] [callback] after ∧ ¬ world.Has result ∧ after.Has result ∧
      (after.object result).IsArrayOf realm ((unitTexts units).map .string) := by
  have added : world.Spends [] [callback] (world.add realm (.ofString realm units)) :=
    World.spends_add _ _ _
  have box := World.object_add_nextId hasRealm (.ofString realm units)
  have shows := Object.showsTexts_ofString realm units
  rw [← box] at shows
  rw [← length_unitTexts units] at bound
  have count : ((unitTexts units).map Value.string).length = (unitTexts units).length :=
    List.length_map _
  have start : MapStart (callWithin (depth + 1)) realm (.string units) world (world.nextId realm)
      ((unitTexts units).map Value.string).length (world.add realm (.ofString realm units)) := by
    rw [count]
    exact ⟨_, rfl, outcome_lengthOf_texts shows bound _ realm⟩
  rw [← added.object callback (World.has_of_callable found) nofun] at found
  obtain ⟨after, mapped, spends, made, shape⟩ := start.outcome_of_turns
    (added.hasRealm realm hasRealm) (World.has_add_nextId hasRealm _) shows.elements found
    (fun value _ => identity value) (count.symm ▸ bound) receiver
  rw [List.map_id'] at shape
  exact ⟨_, after, mapped, added.trans spends,
    fun there => World.not_has_nextId (added.has _ there), made, shape⟩

end

/-! ### Strings as arrays -/

namespace World.HasMethod

variable {world : World} {realm : RealmId} {units : Units}

/-- The join of the array prototype, applied to a string. -/
theorem exists_outcome_join (join : world.HasMethod realm "join" .arrayJoin)
    (joined : world.JoinsMade realm) (bound : units.length ≤ maxLength)
    (depth : Nat) :
    ∃ after, (callArrayMethod (callWithin (depth + 1)) realm "join" (.string units)
        [.string []]).outcome world = .done (.string units) after ∧
      world.Spends [] [(Intrinsic.function .arrayJoin).id realm] after := by
  have noted : world.Spends [] [(Intrinsic.function .arrayJoin).id realm]
      (world.logged ⟨(Intrinsic.function .arrayJoin).id realm, .string units, [.string []],
        .begun⟩) :=
    World.spends_logged (List.mem_singleton_self _) _ _
  obtain ⟨after, ended, spends⟩ := outcome_arrayJoin_of_string
    (noted.hasRealm realm join.hasRealm) bound joined (callWithin depth) depth _
  exact ⟨after, (join.outcome_callArrayMethod depth _ _).trans ended, noted.trans spends⟩

/-- The mapping of the array prototype, applied to a string and a function that returns its
argument. No join is running at its end that did not run before. -/
theorem exists_outcome_map {callback : ObjectId} {callable : Callable}
    (map : world.HasMethod realm "map" .arrayMap) (bound : units.length ≤ maxLength)
    (found : (world.object callback).callable = some callable)
    (identity : ∀ value, callable.behaviour.Turns value value) (depth : Nat) :
    ∃ result mapped, (callArrayMethod (callWithin (depth + 2)) realm "map" (.string units)
        [.object callback]).outcome world = .done (.object result) mapped ∧
      world.Spends [] [(Intrinsic.function .arrayMap).id realm, callback] mapped ∧
      ¬ world.Has result ∧ mapped.joins = world.joins ∧
      (mapped.object result).IsArrayOf realm ((unitTexts units).map .string) := by
  have noted : world.Spends [] [(Intrinsic.function .arrayMap).id realm]
      (world.logged ⟨(Intrinsic.function .arrayMap).id realm, .string units, [.object callback],
        .begun⟩) :=
    World.spends_logged (List.mem_singleton_self _) _ _
  obtain ⟨result, mapped, ended, spends, new, -, array⟩ := outcome_mapArray_of_string
    (noted.hasRealm realm map.hasRealm) bound found identity depth .undefined
  have leaves := leavesJoins_builtin .arrayMap (depth + 1) (depth + 1) realm (.string units)
    [.object callback]
    (world.logged ⟨(Intrinsic.function .arrayMap).id realm, .string units, [.object callback],
      .begun⟩)
  refine ⟨result, mapped, (map.outcome_callArrayMethod (depth + 1) _ _).trans ended, ?_, new,
    leaves.ended mapped (congrArg Outcome.last? ended), array⟩
  exact (noted.mono (List.Subset.refl _) (by simp)).trans
    (spends.mono (List.Subset.refl _) (by simp))

/-- An array of units is joined by the method that it inherits. -/
theorem exists_outcome_invoke_join (join : world.HasMethod realm "join" .arrayJoin) {id : ObjectId}
    (array : (world.object id).IsArrayOf realm ((unitTexts units).map .string))
    (bound : units.length ≤ maxLength) (new : id ∉ world.joins realm) (depth : Nat) :
    ∃ after, (invoke (callWithin (depth + 1)) realm (.object id) "join" [.string []]).outcome
        world = .done (.string units) after ∧
      world.Spends [] [(Intrinsic.function .arrayJoin).id realm] after := by
  rw [← length_unitTexts units] at bound
  have boundValues : ((unitTexts units).map Value.string).length ≤ maxLength := by
    rwa [List.length_map]
  have noted : world.Spends [] [(Intrinsic.function .arrayJoin).id realm]
      (world.logged ⟨(Intrinsic.function .arrayJoin).id realm, .object id, [.string []], .begun⟩) :=
    World.spends_logged (List.mem_singleton_self _) _ _
  have shows : ((world.logged ⟨(Intrinsic.function .arrayJoin).id realm, .object id,
      [.string []], .begun⟩).object id).ShowsTexts (unitTexts units) := array.showsTexts
  obtain ⟨after, ended, spends⟩ := outcome_arrayJoin_of_texts shows bound new (callWithin depth)
    depth [] [(Intrinsic.function .arrayJoin).id realm]
  rw [intercalate_unitTexts] at ended
  exact ⟨after, (join.outcome_invoke array boundValues (by decide) (by decide) depth _).trans ended,
    noted.trans spends⟩

end World.HasMethod

/-- Between programs no join runs in a realm, so there is none of an object that was not made. -/
theorem World.LeftBy.joinsMade {count : Nat} {last : World} (left : (fresh count).LeftBy last)
    (realm : RealmId) : last.JoinsMade realm := by
  have idle : last.joins realm = [] := (congrFun left.joins realm).trans (joins_fresh count realm)
  rw [JoinsMade, idle]
  exact List.forall_mem_nil _

/-- Strings behave as arrays of their units, wherever the array prototype has its own methods for
mapping and joining, and joins run of objects only that were made, as they do in every world that
programs leave. A string that is joined with nothing between its elements is the result itself. The
result of mapping it by a function that returns its argument is a new array of its units, and that
is joined to the string as well. No function is called but these, so neither a getter nor any other
property under an index or the length makes a difference, and no object is changed. -/
theorem string_is_array_of_units :
    (∀ (count : Nat) (last : World) (realm : RealmId), (World.fresh count).LeftBy last →
      last.JoinsMade realm) ∧
    ∀ (world : World) (realm : RealmId) (units : Units) (callback : ObjectId)
      (callable : Callable), world.HasMethod realm "join" .arrayJoin →
      world.HasMethod realm "map" .arrayMap → world.JoinsMade realm → units.length < 2 ^ 32 →
      (world.object callback).callable = some callable →
      (∀ value, callable.behaviour.Turns value value) → ∀ depth,
      (∃ after, (callArrayMethod (callWithin (depth + 1)) realm "join" (.string units)
          [.string []]).outcome world = .done (.string units) after ∧
        world.Spends [] [(Intrinsic.function .arrayJoin).id realm] after) ∧
      ∃ result mapped, (callArrayMethod (callWithin (depth + 2)) realm "map" (.string units)
          [.object callback]).outcome world = .done (.object result) mapped ∧
        world.Spends [] [(Intrinsic.function .arrayMap).id realm, callback] mapped ∧
        ¬ world.Has result ∧
        (mapped.object result).IsArrayOf realm ((unitTexts units).map .string) ∧
        ∃ after, (invoke (callWithin (depth + 1)) realm (.object result) "join"
            [.string []]).outcome mapped = .done (.string units) after ∧
          mapped.Spends [] [(Intrinsic.function .arrayJoin).id realm] after := by
  refine ⟨fun _ _ realm left => left.joinsMade realm, ?_⟩
  intro world realm units callback callable join map joined short found identity depth
  have bound : units.length ≤ maxLength :=
    Nat.le_of_lt_succ (Nat.lt_of_lt_of_le short (by decide))
  refine ⟨join.exists_outcome_join joined bound depth, ?_⟩
  obtain ⟨result, mapped, ended, spends, new, sameJoins, array⟩ :=
    map.exists_outcome_map bound found identity depth
  -- The joins that are running ran before the result was made, so its own is not among them.
  have notJoined : result ∉ mapped.joins realm := by
    rw [sameJoins]
    exact fun member => new (joined result member)
  exact ⟨result, mapped, ended, spends, new, array,
    (join.of_spends spends).exists_outcome_invoke_join array bound notJoined depth⟩

/-! ### Halves of pairs among accessors -/

/-- A host function that returns its argument. -/
def returnArgument : Body := fun invocation => .finish (argumentAt invocation.arguments 0)

theorem turns_returnArgument (value : Value) :
    (Behaviour.host returnArgument).Turns value value := fun _ _ _ _ _ _ _ => rfl

/-- A realm with this function, whose prototypes have accessors under indices and the length. -/
def World.withAccessors : World :=
  let pair := Property.accessor (some (.object ⟨0, 20⟩)) (some (.object ⟨0, 20⟩)) true true
  (((fresh 1).add 0 (.ofCallable 0 "" 1 (.host returnArgument))).modifyObject
    (Intrinsic.arrayPrototype.id 0) (·.put (.ofIndex 0) pair)).modifyObject
      (Intrinsic.objectPrototype.id 0) (·.putAll [(.ofIndex 1, pair), (.length, pair)])

/-- A string that begins with the second half of a surrogate pair and ends with a first half comes
back from joining, and from mapping and joining. -/
theorem string_is_array_of_units_of_halves :
    let units : Units := [0xDC00, 0x61, 0xD800]
    (∃ after, (callArrayMethod (callWithin 1) 0 "join" (.string units) [.string []]).outcome
        .withAccessors = .done (.string units) after) ∧
      ∃ result mapped, (callArrayMethod (callWithin 2) 0 "map" (.string units)
          [.object ⟨0, 20⟩]).outcome .withAccessors = .done (.object result) mapped ∧
        ∃ after, (invoke (callWithin 1) 0 (.object result) "join" [.string []]).outcome mapped =
          .done (.string units) after := by
  intro units
  have join : World.withAccessors.HasMethod 0 "join" .arrayJoin := ⟨⟨_, _, _, rfl⟩, _, rfl⟩
  have map : World.withAccessors.HasMethod 0 "map" .arrayMap := ⟨⟨_, _, _, rfl⟩, _, rfl⟩
  have joined : World.withAccessors.JoinsMade 0 := by
    have idle : World.withAccessors.joins 0 = [] := rfl
    rw [World.JoinsMade, idle]
    exact List.forall_mem_nil _
  have short : units.length < 2 ^ 32 := by decide
  have found : (World.withAccessors.object ⟨0, 20⟩).callable =
      some ⟨"", .host returnArgument⟩ := rfl
  obtain ⟨⟨after, joined, -⟩, result, mapped, made, -, -, -, again, rejoined, -⟩ :=
    string_is_array_of_units.2 .withAccessors 0 units ⟨0, 20⟩ _ join map joined short found
      turns_returnArgument 0
  exact ⟨⟨after, joined⟩, result, mapped, made, again, rejoined⟩

end EcmaCore
