/-
This file says how far a pass of the mapping check vouches for the elements of the result. It
does so for results that can be read without a call: they inherit from the array prototype,
have no accessors, and show nothing but elements in enumeration. As long as the check finds
what it has prepared, to compare such elements changes nothing, so all comparisons are made in
one world, and what they say can be put together.

Of an index at which the source has no number, the check expects twice the number that is
none, and nothing is equal to that. So the elements that are met are those of the source, and
each is the double in its place. The first one must be there: enumeration would otherwise go
on to the accessor, and that yields a text. The other two need not.
-/

import EcmaCore.Proofs.Conformance.Passing

namespace EcmaCore

/-! ### Comparing with numbers -/

/-- Only a number is strictly equal to a number other than zero, and only the same one. Nothing is
equal to the number that is none. -/
theorem Value.eq_of_strictlyEquals {value : Value} {number : Number}
    (equal : value.strictlyEquals (.number number) = true) (notZero : number.isZero = false) :
    value = .number number ∧ number ≠ .nan := by
  cases value with
  | number other =>
    rw [strictlyEquals, Number.equals, notZero, Bool.and_false, Bool.or_false, Bool.and_eq_true,
      bne_iff_ne, beq_iff_eq] at equal
    obtain ⟨notNan, rfl⟩ := equal
    exact ⟨rfl, notNan⟩
  | _ =>
    have same := beq_iff_eq.mp equal
    cases same

/-- What the check expects under an index: twice the number that it has put there, and nothing that
could be met where it has put none. -/
def expectedAt (index : Nat) : Number :=
  (Number.ofNat 2).mul (mappedNumbers[index]?.getD .nan)

theorem expectedAt_of_lt {index : Nat} (inside : index < 3) :
    expectedAt index = .ofNat (2 * (index + 1)) := by
  have all : ∀ index < 3, expectedAt index = .ofNat (2 * (index + 1)) := by decide +kernel
  exact all index inside

theorem Number.mul_nan (number : Number) : number.mul .nan = .nan := by
  cases number <;> rfl

theorem expectedAt_of_le {index : Nat} (beyond : 3 ≤ index) : expectedAt index = .nan := by
  rw [expectedAt, List.getElem?_eq_none beyond, Option.getD_none, Number.mul_nan]

theorem isZero_expectedAt (index : Nat) : (expectedAt index).isZero = false := by
  rcases Nat.lt_or_ge index 3 with inside | beyond
  · have all : ∀ index < 3, (expectedAt index).isZero = false := by decide +kernel
    exact all index inside
  · rw [expectedAt_of_le beyond]
    rfl

/-- What is equal to what is expected under an index is there for a reason: the index is one of the
source. -/
theorem eq_of_strictlyEquals_expectedAt {value : Value} {index : Nat}
    (equal : value.strictlyEquals (.number (expectedAt index)) = true) :
    index < 3 ∧ value = .number (.ofNat (2 * (index + 1))) := by
  obtain ⟨same, notNan⟩ := Value.eq_of_strictlyEquals equal (isZero_expectedAt index)
  rcases Nat.lt_or_ge index 3 with inside | beyond
  · exact ⟨inside, expectedAt_of_lt inside ▸ same⟩
  · exact absurd (expectedAt_of_le beyond) notNan

/-! ### Results without traps -/

/-- The object inherits from the array prototype, its properties are data, and nothing but elements
takes part in enumeration. -/
structure Object.IsElementary (realm : RealmId) (object : Object) : Prop where
  prototype : object.prototype = some (Intrinsic.arrayPrototype.id realm)
  data : ∀ key getter setter enumerable configurable,
    object.own? key ≠ some (.accessor getter setter enumerable configurable)
  elements : ∀ key, object.isEnumerable key = true → key.arrayIndex?.isSome = true

/-- The object has the length three and a first element, and what can be enumerated of its elements
is two, four and six in their places. -/
structure Object.HoldsDoubles (object : Object) : Prop where
  length : ∃ writable enumerable configurable, object.own? .length =
    some (.data (.number (.ofNat 3)) writable enumerable configurable)
  first : (object.own? (.ofIndex 0)).isSome = true
  element : ∀ index ≤ maxArrayIndex, object.isEnumerable (.ofIndex index) = true →
    index < 3 ∧ ∃ writable configurable, object.own? (.ofIndex index) =
      some (.data (.number (.ofNat (2 * (index + 1)))) writable true configurable)

/-- Arrays of values are elementary. -/
theorem Object.IsArrayOf.isElementary {realm : RealmId} {values : List Value} {object : Object}
    (shape : object.IsArrayOf realm values) (bound : values.length ≤ maxLength) :
    object.IsElementary realm where
  prototype := shape.prototype
  data key getter setter enumerable configurable slot := by
    have owned : (object.own? key).isSome = true := by rw [slot]; rfl
    rcases shape.key_of_own owned with rfl | ⟨index, inside, rfl⟩
    · cases shape.length.symm.trans slot
    · cases (shape.element index inside).symm.trans slot
  elements key enumerable := by
    rw [← mem_enumerableKeys, shape.enumerableKeys_eq] at enumerable
    obtain ⟨index, member, rfl⟩ := List.mem_map.mp enumerable
    have small : index ≤ maxArrayIndex :=
      Nat.le_of_lt_succ (Nat.lt_of_lt_of_le (List.mem_range.mp member) bound)
    rw [Key.arrayIndex?_ofIndex small]
    rfl

/-- An array of values that holds the doubles is two, four and six. -/
theorem Object.HoldsDoubles.values_eq {realm : RealmId} {values : List Value} {object : Object}
    (holds : object.HoldsDoubles) (shape : object.IsArrayOf realm values)
    (bound : values.length ≤ maxLength) :
    values = [.number (.ofNat 2), .number (.ofNat 4), .number (.ofNat 6)] := by
  have three : values.length = 3 := by
    obtain ⟨writable, enumerable, configurable, slot⟩ := holds.length
    have same := shape.length.symm.trans slot
    simp only [lengthSlot, Option.some.injEq, Property.data.injEq, Value.number.injEq] at same
    have whole := Number.integer?_ofNat_of_le bound
    rw [same.1, Number.integer?_ofNat_of_le (by decide)] at whole
    exact (Int.ofNat.inj (Option.some.inj whole)).symm
  have element (index : Nat) (inside : index < values.length) :
      values[index] = .number (.ofNat (2 * (index + 1))) := by
    have small : index ≤ maxArrayIndex := Nat.le_of_lt_succ (Nat.lt_of_lt_of_le inside bound)
    have slot := shape.element index inside
    have enumerable : object.isEnumerable (.ofIndex index) = true := by
      rw [isEnumerable, slot]
      rfl
    obtain ⟨-, writable, configurable, same⟩ := holds.element index small enumerable
    exact (Property.data.inj (Option.some.inj (slot.symm.trans same))).1
  refine List.ext_getElem three fun index inside below => ?_
  rw [element index inside]
  have all : ∀ index, (below : index < 3) → Value.number (.ofNat (2 * (index + 1))) =
      [Value.number (.ofNat 2), .number (.ofNat 4), .number (.ofNat 6)][index] := by
    decide +kernel
  exact all index below

/-- An object of which no own key is an index has nothing under an index. -/
theorem Object.own?_ofIndex_eq_none {object : Object}
    (noIndex : ∀ key ∈ object.ownKeys, key.arrayIndex? = none) {index : Nat}
    (bound : index ≤ maxArrayIndex) : object.own? (.ofIndex index) = none := by
  refine Option.not_isSome_iff_eq_none.mp fun owned => ?_
  have none := noIndex _ (mem_ownKeys.mpr owned)
  rw [Key.arrayIndex?_ofIndex bound] at none
  cases none

section

variable {realm : RealmId} {prototype : Object} {world after : World} {trial : Trial}
  {getter setter : ObjectId}

namespace Trial.Ready

/-- Under an index the source has the number that the check has put there, and otherwise nothing is
found: the accessor is under the first index, and the prototypes have no other. -/
theorem outcome_get_source (ready : trial.Ready realm warns prototype getter setter world)
    (quiet : prototype.IsQuietPrototype realm) (call : Caller) {index : Nat}
    (bound : index ≤ maxArrayIndex) :
    (get call realm trial.source (.ofIndex index)).outcome world =
      .done ((mappedNumbers.map Value.number)[index]?.getD .undefined) world := by
  rcases Nat.lt_or_ge index (mappedNumbers.map Value.number).length with inside | beyond
  · rw [outcome_get_element call ready.source inside, List.getElem?_eq_getElem inside,
      Option.getD_some]
  · have missing : (world.object trial.source).own? (.ofIndex index) = none := by
      refine Option.not_isSome_iff_eq_none.mp fun owned => ?_
      rcases ready.source.key_of_own owned with isLength | ⟨other, inside, same⟩
      · exact Key.ofIndex_ne_length index isLength
      · exact absurd (Key.ofIndex_injective same ▸ inside) (Nat.not_lt.mpr beyond)
    have above : (world.object (Intrinsic.arrayPrototype.id realm)).own? (.ofIndex index) =
        none := by
      have positive : 0 < index := Nat.lt_of_lt_of_le (Nat.succ_pos 2) beyond
      have notFirst : Key.ofIndex index ≠ .ofIndex 0 := fun same =>
        positive.ne' (Key.ofIndex_injective same)
      rw [ready.planted, Object.own?_planted _ _ _ notFirst (Key.ofIndex_ne_length index),
        Object.own?_ofIndex_eq_none quiet.noIndex bound]
    have parent : (world.object (Intrinsic.arrayPrototype.id realm)).prototype =
        some (Intrinsic.objectPrototype.id realm) := by
      rw [ready.planted, Object.planted, Object.withLength_prototype]
      exact quiet.prototype
    have last : world.search (Intrinsic.objectPrototype.id realm) (.ofIndex index) = .absent := by
      refine World.search_of_end ?_ (by rw [ready.base]; rfl)
      have noIndex : ∀ key ∈ (Intrinsic.objectPrototype.object realm).ownKeys,
          key.arrayIndex? = none := by
        have listed : (Intrinsic.objectPrototype.object realm).ownKeys = [.text "constructor",
          .text "hasOwnProperty", .text "toString", .text "valueOf"] := rfl
        rw [listed]
        decide
      rw [ready.base, Object.own?_ofIndex_eq_none noIndex bound]
    have absent := World.search_of_prototype_absent missing ready.source.prototype
      (World.search_of_prototype_absent above parent last)
    rw [get, getFor, Run.outcome_bind_of_done (Run.outcome_search_of_absent absent),
      List.getElem?_eq_none beyond, Option.getD_none]
    rfl

end Trial.Ready

/-! ### Elements that have been compared -/

variable {call : Caller} {mapped : ObjectId} {keys others : List Key} {index : Nat} {value : Value}
  {writable enumerable configurable : Bool}

/-- To compare an element that is data changes nothing, and it is what the check expects. -/
theorem Doubles.of_cons (ready : trial.Ready realm warns prototype getter setter world)
    (quiet : prototype.IsQuietPrototype realm) (bound : index ≤ maxArrayIndex)
    (slot : (world.object mapped).own? (.ofIndex index) =
      some (.data value writable enumerable configurable))
    (doubles : Doubles call realm mapped trial.source (.ofIndex index :: others) world after) :
    (index < 3 ∧ value = .number (.ofNat (2 * (index + 1)))) ∧
      Doubles call realm mapped trial.source others world after := by
  obtain - | ⟨found, compared, converted, equal, rest⟩ := doubles
  have read : (get call realm mapped (.ofIndex index)).outcome world = .done value world :=
    outcome_getFor_of_found call realm _ (World.search_of_own? slot)
  cases read.symm.trans found
  cases (ready.outcome_get_source quiet call bound).symm.trans compared
  have number : (toNumber call realm ((mappedNumbers.map Value.number)[index]?.getD
      .undefined)).outcome world = .done (mappedNumbers[index]?.getD .nan) world := by
    rw [List.getElem?_map]
    cases mappedNumbers[index]? <;> rfl
  cases number.symm.trans converted
  exact ⟨eq_of_strictlyEquals_expectedAt equal, rest⟩

/-- So it is with all elements of an elementary object that come first. -/
theorem Doubles.of_append (ready : trial.Ready realm warns prototype getter setter world)
    (quiet : prototype.IsQuietPrototype realm)
    (elementary : (world.object mapped).IsElementary realm)
    (enumerated : ∀ key ∈ keys, (world.object mapped).isEnumerable key = true)
    (doubles : Doubles call realm mapped trial.source (keys ++ others) world after) :
    (∀ index ≤ maxArrayIndex, Key.ofIndex index ∈ keys → index < 3 ∧ ∃ writable configurable,
      (world.object mapped).own? (.ofIndex index) =
        some (.data (.number (.ofNat (2 * (index + 1)))) writable true configurable)) ∧
      Doubles call realm mapped trial.source others world after := by
  induction keys with
  | nil => exact ⟨fun _ _ => nofun, doubles⟩
  | cons key rest inductionHypothesis =>
    obtain ⟨first, later⟩ := List.forall_mem_cons.mp enumerated
    obtain ⟨place, spelled⟩ := Option.isSome_iff_exists.mp (elementary.elements key first)
    obtain ⟨rfl, bound⟩ := Key.arrayIndex?_eq_some.mp spelled
    rw [Object.isEnumerable] at first
    cases slot : (world.object mapped).own? (.ofIndex place) with
    | none =>
      rw [slot] at first
      cases first
    | some property =>
      cases property with
      | accessor getter setter enumerable configurable =>
        exact absurd slot (elementary.data _ _ _ _ _)
      | data value writable enumerable configurable =>
        obtain rfl : enumerable = true := by
          rw [slot] at first
          exact first
        obtain ⟨⟨inside, rfl⟩, doubles⟩ := doubles.of_cons ready quiet bound slot
        obtain ⟨elements, doubles⟩ := inductionHypothesis later doubles
        refine ⟨fun index small member => ?_, doubles⟩
        rcases List.mem_cons.mp member with same | member
        · obtain rfl := Key.ofIndex_injective same
          exact ⟨inside, writable, configurable, slot⟩
        · exact elements index small member

/-- Where there is no first element, the accessor is found in its place, and what it yields is no
number. -/
theorem Doubles.first_of_cons {depth : Nat}
    (ready : trial.Ready realm warns prototype getter setter world)
    (parent : (world.object mapped).prototype = some (Intrinsic.arrayPrototype.id realm))
    (doubles : Doubles (callWithin (depth + 1)) realm mapped trial.source (.ofIndex 0 :: others)
      world after) : ((world.object mapped).own? (.ofIndex 0)).isSome = true := by
  obtain - | ⟨found, -, -, equal, -⟩ := doubles
  by_contra missing
  have missing := Option.not_isSome_iff_eq_none.mp missing
  have above : world.search (Intrinsic.arrayPrototype.id realm) (.ofIndex 0) =
      .found (Intrinsic.arrayPrototype.id realm)
        (.accessor (some (.object getter)) (some (.object setter)) true false) := by
    refine World.search_of_own? ?_
    rw [ready.planted, Object.own?_planted_first]
  have inherited := World.search_of_prototype_found missing parent above
  have greeted := outcome_callWithin depth realm (.object mapped) [] ready.greets
  have read : (get (callWithin (depth + 1)) realm mapped (.ofIndex 0)).outcome world =
      .done (.ofText "hello") (world.logged ⟨getter, .object mapped, [], .begun⟩) := by
    rw [get, getFor, Run.outcome_bind_of_done (Run.outcome_search_of_found inherited)]
    exact greeted
  cases read.symm.trans found
  have same := beq_iff_eq.mp equal
  cases same

/-! ### Whole results -/

/-- The length of an elementary object is read from itself, or else from the array prototype, which
has one by now. -/
theorem Trial.Ready.outcome_getOf_length
    (ready : trial.Ready realm warns prototype getter setter world)
    (quiet : prototype.IsQuietPrototype realm)
    (elementary : (world.object mapped).IsElementary realm) (call : Caller) :
    ∃ length, (getOf call realm (.object mapped) .length).outcome world = .done length world ∧
      ((∃ writable enumerable configurable, (world.object mapped).own? .length =
        some (.data length writable enumerable configurable)) ∨ length = .number (.ofNat 1)) := by
  cases slot : (world.object mapped).own? .length with
  | none =>
    have above : world.search (Intrinsic.arrayPrototype.id realm) .length =
        .found (Intrinsic.arrayPrototype.id realm) (lengthSlot 1) := by
      refine World.search_of_own? ?_
      rw [ready.planted, quiet.takesFirst.own?_length_planted]
    have inherited := World.search_of_prototype_found slot elementary.prototype above
    exact ⟨_, outcome_getFor_of_found call realm (.object mapped) inherited, Or.inr rfl⟩
  | some property =>
    cases property with
    | accessor getter setter enumerable configurable =>
      exact absurd slot (elementary.data _ _ _ _ _)
    | data value writable enumerable configurable =>
      exact ⟨value, outcome_getFor_of_found call realm (.object mapped) (World.search_of_own? slot),
        Or.inl ⟨writable, enumerable, configurable, rfl⟩⟩

/-- Enumeration visits what can be enumerated of the object itself, and then the accessor, if
nothing stands in front of it. -/
theorem Trial.Ready.enumerated_eq (ready : trial.Ready realm warns prototype getter setter world)
    (quiet : prototype.IsQuietPrototype realm)
    (parent : (world.object mapped).prototype = some (Intrinsic.arrayPrototype.id realm))
    {chain : List ObjectId} (walked : world.chain? mapped = some chain) :
    ∃ inherited, world.enumerated [] chain =
        (world.object mapped).enumerableKeys ++ inherited ∧
      (((world.object mapped).own? (.ofIndex 0)).isSome = true ∨
        ∃ others, inherited = .ofIndex 0 :: others) := by
  have three : world.chainWithin 3 mapped = some
      [mapped, Intrinsic.arrayPrototype.id realm, Intrinsic.objectPrototype.id realm] := by
    have grandparent : (prototype.planted getter setter).prototype =
        some (Intrinsic.objectPrototype.id realm) := by
      rw [Object.planted, Object.withLength_prototype]
      exact quiet.prototype
    have last : (Intrinsic.objectPrototype.object realm).prototype = none := rfl
    simp only [World.chainWithin, parent, ready.planted, ready.base, grandparent, last,
      Option.map_some]
  obtain rfl := Option.some.inj ((World.chain?_of_chainWithin three).symm.trans walked)
  have all : (world.object mapped).ownKeys.filter (· ∉ ([] : List Key)) =
      (world.object mapped).ownKeys := List.filter_eq_self.mpr fun _ _ => rfl
  refine ⟨_, by rw [World.enumerated, all, List.nil_append]; rfl, ?_⟩
  rw [or_iff_not_imp_left]
  intro missing
  have visited : Key.ofIndex 0 ∉ (world.object mapped).ownKeys := fun listed =>
    missing (Object.mem_ownKeys.mp listed)
  -- Of the array prototype nothing is visited but the accessor, so that comes first.
  have shown := Object.own?_planted_first prototype getter setter
  rw [World.enumerated, ready.planted]
  generalize news : (((prototype.planted getter setter).ownKeys.filter
    (· ∉ (world.object mapped).ownKeys)).filter (prototype.planted getter setter).isEnumerable) =
    found
  have member : Key.ofIndex 0 ∈ found := by
    rw [← news, List.mem_filter, List.mem_filter, Object.mem_ownKeys, Object.isEnumerable, shown]
    exact ⟨⟨rfl, decide_eq_true visited⟩, rfl⟩
  obtain ⟨key, others, rfl⟩ := List.exists_cons_of_ne_nil (List.ne_nil_of_mem member)
  have head : key ∈ key :: others := List.mem_cons_self
  rw [← news, List.mem_filter] at head
  obtain rfl := Object.eq_of_isEnumerable_planted quiet.takesFirst quiet.hidden head.2
  exact ⟨_, List.cons_append⟩

/-- A result without traps that reads right, while the trial is still as it was prepared, holds the
doubles as far as it can be enumerated. -/
theorem ReadsDoubled.holdsDoubles {depth : Nat}
    (ready : trial.Ready realm warns prototype getter setter world)
    (quiet : prototype.IsQuietPrototype realm)
    (elementary : (world.object mapped).IsElementary realm)
    (reads : ReadsDoubled (callWithin (depth + 1)) realm mapped trial.source world after) :
    (world.object mapped).HoldsDoubles := by
  obtain ⟨measured, compared, equal, walked, doubles⟩ := reads
  obtain ⟨length, ownLength, place⟩ :=
    ready.outcome_getOf_length quiet elementary (callWithin (depth + 1))
  cases ownLength.symm.trans measured
  cases (outcome_getOf_length (callWithin (depth + 1)) ready.source).symm.trans compared
  obtain ⟨three, -⟩ := Value.eq_of_strictlyEquals equal (by decide +kernel)
  obtain ⟨inherited, listed, first⟩ := ready.enumerated_eq quiet elementary.prototype walked
  rw [listed] at doubles
  obtain ⟨elements, rest⟩ := doubles.of_append ready quiet elementary
    fun key member => Object.mem_enumerableKeys.mp member
  refine ⟨?_, ?_, fun index bound enumerable => ?_⟩
  · rcases place with own | one
    · exact three ▸ own
    · rw [one] at three
      exact absurd three (by decide +kernel)
  · rcases first with own | ⟨others, same⟩
    · exact own
    · rw [same] at rest
      exact rest.first_of_cons ready elementary.prototype
  · exact elements index bound (Object.mem_enumerableKeys.mpr enumerable)

end

end EcmaCore
