/-
This file follows the mapping check from the planted accessor to its verdict. The builtin
function for mapping is found on the array prototype. It fills a new array with what the
callback returns, by definition and not by assignment, so the setter that the array
inherits is not asked. Enumeration of the array visits its indices only, and the values
under them are twice those of the source.
-/

import EcmaCore.Proofs.Conformance.Planting
import EcmaCore.Proofs.Engine.Pointwise
import EcmaCore.Proofs.Json.Serializing

namespace EcmaCore

/-! ### Mapping to doubles -/

/-- The double of a number, as the planted callback returns it. -/
def doubled (number : Number) : Value := .number (number.mul (.ofNat 2))

/-- The callback that was planted doubles numbers. -/
theorem turns_double (number : Number) :
    (Behaviour.probe .double).Turns (.number number) (doubled number) :=
  fun _ _ _ _ _ _ _ => rfl

/-- Mapping an array of numbers makes a new array of their doubles. -/
theorem outcome_mapArray_double {realm : RealmId} {world : World} {numbers : List Number}
    {source double : ObjectId} (hasRealm : world.HasRealm realm) (hasSource : world.Has source)
    (array : (world.object source).IsArrayOf realm (numbers.map .number))
    (doubles : (world.object double).callable = some ⟨"", .probe .double⟩)
    (bound : numbers.length ≤ maxLength) (depth : Nat) :
    ∃ result after, (mapArray (callWithin (depth + 1)) realm (.object source) (.object double)
        .undefined).outcome world = .done (.object result) after ∧
      world.Spends [] [double] after ∧ ¬ world.Has result ∧ after.Has result ∧
      (after.object result).IsArrayOf realm (numbers.map doubled) := by
  have count : (numbers.map Value.number).length = numbers.length := List.length_map _
  have length : (world.object source).own? .length = some (lengthSlot numbers.length) := by
    rw [array.length, count]
  have start : MapStart (callWithin (depth + 1)) realm (.object source) world source
      (numbers.map Value.number).length world := by
    refine ⟨world, rfl, ?_⟩
    rw [count, outcome_lengthOf _ realm (shown?_of_own? length), Number.toLength_ofNat bound]
  -- A value that is no number does not occur.
  let turn : Value → Value := fun value => doubled value.primitiveNumber
  have turns : ∀ value ∈ numbers.map Value.number,
      (Behaviour.probe .double).Turns value (turn value) := by
    intro value member
    obtain ⟨number, _, rfl⟩ := List.mem_map.mp member
    exact turns_double number
  obtain ⟨after, mapped, spends, made, shape⟩ := start.outcome_of_turns hasRealm hasSource
    array.holdsData doubles turns (count.symm ▸ bound) .undefined
  rw [List.map_map] at shape
  exact ⟨_, after, mapped, spends, World.not_has_nextId, made, shape⟩

/-- Away from the accessor and the length, the planted prototype is as it was. -/
theorem own?_plantedPrototype (realm : RealmId) (getter setter : ObjectId) {key : Key}
    (noIndex : key ≠ .ofIndex 0) (noLength : key ≠ .length) :
    (plantedPrototype realm getter setter).own? key =
      (Intrinsic.arrayPrototype.object realm).own? key :=
  Object.own?_planted _ getter setter noIndex noLength

/-- The builtin function for mapping is found on the planted prototype. -/
theorem outcome_invoke_map {realm : RealmId} {world : World} {numbers : List Number}
    {source double getter setter : ObjectId} (hasRealm : world.HasRealm realm)
    (hasSource : world.Has source)
    (array : (world.object source).IsArrayOf realm (numbers.map .number))
    (doubles : (world.object double).callable = some ⟨"", .probe .double⟩)
    (planted : world.object (Intrinsic.arrayPrototype.id realm) =
      plantedPrototype realm getter setter)
    (mapper : world.object ((Intrinsic.function .arrayMap).id realm) =
      (Intrinsic.function .arrayMap).object realm)
    (bound : numbers.length ≤ maxLength) (depth : Nat) :
    ∃ result after, (invoke (callWithin (depth + 2)) realm (.object source) "map"
        [.object double]).outcome world = .done (.object result) after ∧
      world.Spends [] [(Intrinsic.function .arrayMap).id realm, double] after ∧
      ¬ world.Has result ∧ after.Has result ∧
      (after.object result).IsArrayOf realm (numbers.map doubled) := by
  have method : world.search source (.text "map") = .found (Intrinsic.arrayPrototype.id realm)
      (.hidden ((Intrinsic.function .arrayMap).value realm)) := by
    have slot : (world.object (Intrinsic.arrayPrototype.id realm)).own? (.text "map") =
        some (.hidden ((Intrinsic.function .arrayMap).value realm)) := by
      rw [planted, own?_plantedPrototype _ _ _ (by decide) (by decide)]
      rfl
    have own : (world.object source).own? (.text "map") = none :=
      array.own?_eq_none (by decide) (by decide) (by simpa using bound)
    exact World.search_of_prototype_found own array.prototype (World.search_of_own? slot)
  have called : (world.object ((Intrinsic.function .arrayMap).id realm)).callable =
      some ⟨"map", .builtin .arrayMap⟩ := by
    rw [mapper]
    rfl
  have entered := (outcome_invoke _ realm [.object double] method).trans
    (outcome_callWithin (depth + 1) realm _ _ called)
  have noted : world.Spends [] [(Intrinsic.function .arrayMap).id realm]
      (world.logged ⟨(Intrinsic.function .arrayMap).id realm, .object source, [.object double],
        .begun⟩) :=
    World.spends_logged (List.mem_singleton_self _) _ _
  obtain ⟨result, after, mapped, spends, new, made, shape⟩ := outcome_mapArray_double
    (noted.hasRealm realm hasRealm) (noted.has _ hasSource) array doubles bound depth
  refine ⟨result, after, entered.trans mapped, ?_, fun there => new (noted.has _ there), made,
    shape⟩
  exact (noted.mono (List.Subset.refl _) (by simp)).trans
    (spends.mono (List.Subset.refl _) (by simp))

/-! ### Judging -/

/-- On an array that hid everything from enumeration nothing but the accessor is enumerable, once
that is planted. -/
theorem Object.eq_of_isEnumerable_planted {object : Object} (takes : object.TakesFirst)
    (hidden : object.enumerableKeys = []) {getter setter : ObjectId} {key : Key}
    (enumerable : (object.planted getter setter).isEnumerable key = true) : key = .ofIndex 0 := by
  by_contra noIndex
  by_cases isLength : key = .length
  · rw [isLength, isEnumerable, takes.own?_length_planted] at enumerable
    cases enumerable
  · rw [isEnumerable, own?_planted _ _ _ noIndex isLength, ← isEnumerable, ← mem_enumerableKeys,
      hidden] at enumerable
    exact List.not_mem_nil enumerable

/-- So it is on the array prototype. -/
theorem eq_of_isEnumerable_plantedPrototype {realm : RealmId} {getter setter : ObjectId} {key : Key}
    (enumerable : (plantedPrototype realm getter setter).isEnumerable key = true) :
    key = .ofIndex 0 :=
  Object.eq_of_isEnumerable_planted (takesFirst_arrayPrototype realm) rfl enumerable

section

variable {realm : RealmId} {world : World} {numbers : List Number} {source result : ObjectId}

/-- Objects whose enumerable keys have been visited add nothing to an enumeration. -/
theorem enumerated_of_visited {visited : List Key} {chain : List ObjectId}
    (before : ∀ id ∈ chain, ∀ key ∈ (world.object id).enumerableKeys, key ∈ visited) :
    world.enumerated visited chain = [] := by
  induction chain generalizing visited with
  | nil => rfl
  | cons id rest inductionHypothesis =>
    obtain ⟨first, others⟩ := List.forall_mem_cons.mp before
    rw [World.enumerated, List.append_eq_nil_iff]
    refine ⟨List.filter_eq_nil_iff.mpr fun key new enumerable => ?_,
      inductionHypothesis fun other member key listed =>
        List.mem_append_left _ (others other member key listed)⟩
    have unseen := (List.mem_filter.mp new).2
    rw [decide_eq_true_eq] at unseen
    exact unseen (first key (Object.mem_enumerableKeys.mpr enumerable))

/-- Enumeration of the result visits its indices only: the accessor is under one of them, and the
other properties that the result inherits are not enumerable. -/
theorem outcome_forInKeys {getter setter : ObjectId} {values : List Value}
    (array : (world.object result).IsArrayOf realm values) (some : values ≠ [])
    (planted : world.object (Intrinsic.arrayPrototype.id realm) =
      plantedPrototype realm getter setter)
    (base : world.object (Intrinsic.objectPrototype.id realm) =
      Intrinsic.objectPrototype.object realm) :
    (Run.forInKeys result).outcome world =
      .done ((List.range values.length).map .ofIndex) world := by
  have three : world.chainWithin 3 result = Option.some
      [result, Intrinsic.arrayPrototype.id realm, Intrinsic.objectPrototype.id realm] := by
    have parent : (plantedPrototype realm getter setter).prototype =
        Option.some (Intrinsic.objectPrototype.id realm) := rfl
    have last : (Intrinsic.objectPrototype.object realm).prototype = none := rfl
    simp only [World.chainWithin, array.prototype, planted, parent, base, last, Option.map_some]
  have chain := World.chain?_of_chainWithin three
  have own : (world.object result).ownKeys.filter (· ∉ ([] : List Key)) =
      (world.object result).ownKeys := List.filter_eq_self.mpr fun _ _ => rfl
  have rest : world.enumerated (world.object result).ownKeys
      [Intrinsic.arrayPrototype.id realm, Intrinsic.objectPrototype.id realm] = [] := by
    refine enumerated_of_visited (List.forall_mem_cons.mpr ⟨fun key listed => ?_,
      List.forall_mem_singleton.mpr fun key listed => ?_⟩)
    · rw [planted, Object.mem_enumerableKeys] at listed
      rw [eq_of_isEnumerable_plantedPrototype listed, array.listed]
      refine List.mem_append_left _ (List.mem_map_of_mem (List.mem_range.mpr ?_))
      exact List.length_pos_iff.mpr some
    · have none : (Intrinsic.objectPrototype.object realm).enumerableKeys = [] := rfl
      rw [base, none] at listed
      exact absurd listed List.not_mem_nil
  rw [Run.forInKeys, Run.outcome_bind_of_done (Run.outcome_read _ _), chain]
  show Outcome.done (world.enumerated [] _) world = _
  rw [World.enumerated, own, List.nil_append, rest, List.append_nil, ← Object.enumerableKeys,
    array.enumerableKeys_eq]

/-- Reading an element of an array of values. -/
theorem outcome_get_element (call : Caller) {id : ObjectId} {values : List Value}
    (shape : (world.object id).IsArrayOf realm values) {index : Nat}
    (inside : index < values.length) :
    (get call realm id (.ofIndex index)).outcome world = .done values[index] world :=
  outcome_getFor_of_found call realm _ (World.search_of_own? (shape.element index inside))

/-- Reading its length. -/
theorem outcome_getOf_length (call : Caller) {id : ObjectId} {values : List Value}
    (shape : (world.object id).IsArrayOf realm values) :
    (getOf call realm (.object id) .length).outcome world =
      .done (.number (.ofNat values.length)) world :=
  outcome_getFor_of_found call realm (.object id) (World.search_of_own? shape.length)

section

variable (call : Caller) (array : (world.object source).IsArrayOf realm (numbers.map .number))
  (doubles : (world.object result).IsArrayOf realm (numbers.map doubled))
  (fair : ∀ number ∈ numbers,
    (doubled number).strictlyEquals (.number ((Number.ofNat 2).mul number)) = true)
include array doubles fair

/-- No key is found whose value in the result is not twice that in the source. -/
theorem outcome_firstMismatch {indices : List Nat}
    (inside : ∀ index ∈ indices, index < numbers.length) :
    (firstMismatch call realm result source (indices.map .ofIndex)).outcome world =
      .done none world := by
  induction indices with
  | nil => rfl
  | cons index rest inductionHypothesis =>
    obtain ⟨below, others⟩ := List.forall_mem_cons.mp inside
    have actual := outcome_get_element call doubles (by rwa [List.length_map])
    have original := outcome_get_element call array (by rwa [List.length_map])
    rw [List.getElem_map] at actual original
    have converted : (toNumber call realm (.number numbers[index])).outcome world =
        .done numbers[index] world := rfl
    rw [List.map_cons, firstMismatch, Run.outcome_bind_of_done actual,
      Run.outcome_bind_of_done original, Run.outcome_bind_of_done converted]
    dsimp only
    rw [if_pos (fair numbers[index] (List.getElem_mem below))]
    exact inductionHypothesis others

/-- A result that is right is passed, if the setter has counted no call. -/
theorem outcome_judgeMapped {getter setter : ObjectId} (some : numbers ≠ [])
    (bound : numbers.length ≤ maxLength)
    (planted : world.object (Intrinsic.arrayPrototype.id realm) =
      plantedPrototype realm getter setter)
    (base : world.object (Intrinsic.objectPrototype.id realm) =
      Intrinsic.objectPrototype.object realm)
    (uncounted : world.callsOf .counted (.object setter) = 0) :
    (judgeMapped call realm source (.object result) (.object setter)).outcome world =
      .done .passed world := by
  have equal : (Value.number (.ofNat numbers.length)).strictlyEquals
      (.number (.ofNat numbers.length)) = true := Number.equals_ofNat bound
  have length := outcome_getOf_length call doubles
  have expected := outcome_getOf_length call array
  have keys := outcome_forInKeys doubles (by simpa using some) planted base
  have calls : (Run.read (·.callsOf .counted (.object setter))).outcome world =
      .done 0 world := by
    rw [Run.outcome_read, uncounted]
  rw [List.length_map] at length expected keys
  rw [judgeMapped, Run.outcome_bind_of_done length, Run.outcome_bind_of_done expected,
    if_pos equal, Run.outcome_bind_of_done keys,
    Run.outcome_bind_of_done (outcome_firstMismatch call array doubles fair
      fun index member => List.mem_range.mp member)]
  show ((Run.read (·.callsOf .counted (.object setter)) >>= _).outcome world) = _
  rw [Run.outcome_bind_of_done calls]
  rfl

end

end

end EcmaCore
