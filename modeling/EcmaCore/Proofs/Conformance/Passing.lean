/-
This file says what a pass of the mapping check tells about the function that was judged,
whatever function that is. The check has asked it for the doubles of three numbers and has
then read the result as a script would: its length, and what lies under each key that an
enumeration finds. So much is certain of every function that passes. It was given the array
and the callback that the check made, with the accessor in place, and the setter had not
counted a call by then, since no call is ever taken back.

What is found under the keys is compared with the source as it is by then, and keys that no
enumeration finds are not looked at. Where the function has left the source and the
prototypes alone, and its result has nothing but plain elements, the first element is there,
as otherwise the accessor would have been found in its place, and all elements that can be
enumerated are right. The others may be missing.
-/

import EcmaCore.Proofs.Conformance.Repeating
import EcmaCore.Proofs.World.History

namespace EcmaCore

/-! ### The parts of a check that passed -/

/-- What the mapping function is asked with: the array, the callback, and the setter that arrays
inherit meanwhile. -/
structure Trial where
  source : ObjectId
  double : Value
  setter : Value

/-- What the mapping check does before it calls the mapping function. -/
def prepareMapping (call : Caller) (realm : RealmId) (warns : Bool) : Run Trial := do
  let source ← arrayOf call realm (mappedNumbers.map .number)
  let setter ← plantAccessor call realm warns
  let double ← plantProbe realm "" 3 .double
  return { source, double, setter }

section

variable {call : Caller} {realm : RealmId} {warns : Bool} {world after : World}

/-- A check that passed has prepared the trial, has called the mapping function, and has judged the
result to be right. -/
theorem exists_of_passed_checkMap (made : world.Has (Intrinsic.arrayPrototype.id realm))
    (passed : (checkMap call realm warns).outcome world = .done .passed after) :
    ∃ trial called result returned judged,
      (prepareMapping call realm warns).outcome world = .done trial called ∧
      (invoke call realm (.object trial.source) "map" [trial.double]).outcome called =
        .done result returned ∧
      (judgeMapped call realm trial.source result trial.setter).outcome returned =
        .done .passed judged := by
  have array := outcome_arrayOf call realm (mappedNumbers.map .number) world
  rw [outcome_checkMap] at passed
  change ((Run.preserving _ _).outcome (world.add realm ((Object.emptyArray realm).createdAll
    (indexed (mappedNumbers.map .number))))).attempted.andThen _ = _ at passed
  generalize start : world.add realm _ = entered at array passed
  rw [outcome_preserving (start ▸ made.add _ _)] at passed
  cases inside : (judgedMapping call realm warns (world.nextId realm)).outcome entered with
  | done verdict judged =>
    rw [inside] at passed
    cases passed
    obtain ⟨setter, first, planted, rest⟩ := Run.exists_of_outcome_bind inside
    obtain ⟨double, called, made, rest⟩ := Run.exists_of_outcome_bind rest
    obtain ⟨result, returned, mapped, judging⟩ := Run.exists_of_outcome_bind rest
    refine ⟨⟨world.nextId realm, double, setter⟩, called, result, returned, judged, ?_, mapped,
      judging⟩
    rw [prepareMapping, Run.outcome_bind_of_done array, Run.outcome_bind_of_done planted,
      Run.outcome_bind_of_done made]
    rfl
  | threw error judged =>
    rw [inside] at passed
    cases passed
  | cutOff =>
    rw [inside] at passed
    cases passed

end

/-! ### Reading the result -/

section

variable (call : Caller) (realm : RealmId) (mapped source : ObjectId)

/-- The keys are looked up one after another, in the result and in the source, and each time what
the result has is twice what the source has. -/
inductive Doubles : List Key → World → World → Prop
  | nil (world : World) : Doubles [] world world
  | cons {key : Key} {rest : List Key} {world first second third after : World}
      {actual original : Value} {number : Number}
      (found : (get call realm mapped key).outcome world = .done actual first)
      (compared : (get call realm source key).outcome first = .done original second)
      (converted : (toNumber call realm original).outcome second = .done number third)
      (equal : actual.strictlyEquals (.number ((Number.ofNat 2).mul number)) = true)
      (others : Doubles rest third after) : Doubles (key :: rest) world after

/-- The result has the length of the source, and under each key that enumeration finds in it there
is twice what the source has. -/
inductive ReadsDoubled : World → World → Prop
  | intro {world first second after : World} {length expected : Value} {chain : List ObjectId}
      (measured : (getOf call realm (.object mapped) .length).outcome world = .done length first)
      (compared : (getOf call realm (.object source) .length).outcome first =
        .done expected second)
      (equal : length.strictlyEquals expected = true) (walked : second.chain? mapped = some chain)
      (doubles : Doubles call realm mapped source (second.enumerated [] chain) second after) :
      ReadsDoubled world after

variable {call realm mapped source}

theorem doubles_of_firstMismatch {keys : List Key} {world after : World}
    (none : (firstMismatch call realm mapped source keys).outcome world = .done none after) :
    Doubles call realm mapped source keys world after := by
  induction keys generalizing world with
  | nil =>
    cases none
    exact .nil _
  | cons key rest inductionHypothesis =>
    rw [firstMismatch] at none
    obtain ⟨actual, first, found, none⟩ := Run.exists_of_outcome_bind none
    obtain ⟨original, second, compared, none⟩ := Run.exists_of_outcome_bind none
    obtain ⟨number, third, converted, none⟩ := Run.exists_of_outcome_bind none
    dsimp only at none
    split at none
    · rename_i equal
      exact .cons found compared converted equal (inductionHypothesis none)
    · cases none

/-- A result that is judged to be right is an object that reads right, and when it had been read the
setter had counted no call. -/
theorem readsDoubled_of_judgeMapped {result setter : Value} {world after : World}
    (passed : (judgeMapped call realm source result setter).outcome world = .done .passed after) :
    ∃ mapped, result = .object mapped ∧ ReadsDoubled call realm mapped source world after ∧
      after.callsOf .counted setter = 0 := by
  cases result with
  | object mapped =>
    rw [judgeMapped] at passed
    obtain ⟨length, first, measured, passed⟩ := Run.exists_of_outcome_bind passed
    obtain ⟨expected, second, compared, passed⟩ := Run.exists_of_outcome_bind passed
    split at passed
    · rename_i equal
      obtain ⟨keys, third, listed, passed⟩ := Run.exists_of_outcome_bind passed
      obtain ⟨mismatch, fourth, sought, passed⟩ := Run.exists_of_outcome_bind passed
      rw [Run.forInKeys, Run.outcome_bind_of_done (Run.outcome_read _ _)] at listed
      cases walked : second.chain? mapped with
      | none =>
        rw [walked] at listed
        cases listed
      | some chain =>
        rw [walked] at listed
        cases listed
        cases mismatch with
        | some key => cases passed
        | none =>
          obtain ⟨calls, last, counted, passed⟩ := Run.exists_of_outcome_bind passed
          cases counted
          split at passed
          · rename_i uncalled
            cases passed
            exact ⟨mapped, rfl, .intro measured compared equal walked
              (doubles_of_firstMismatch sought), uncalled⟩
          · cases passed
    · cases passed
  | _ =>
    obtain ⟨shown, between, _, passed⟩ := Run.exists_of_outcome_bind passed
    cases passed

end

/-! ### The trial -/

/-- An array that can be the prototype of arrays: it has no elements, takes a first one, hides its
properties from enumeration and inherits from the object prototype. -/
structure Object.IsQuietPrototype (realm : RealmId) (object : Object) : Prop where
  takesFirst : object.TakesFirst
  prototype : object.prototype = some (Intrinsic.objectPrototype.id realm)
  hidden : object.enumerableKeys = []
  noIndex : ∀ key ∈ object.ownKeys, key.arrayIndex? = none

/-- The array is there and the callback doubles, and on the array prototype, which was the given one,
there is an accessor with this getter and setter. -/
structure Trial.Ready (trial : Trial) (realm : RealmId) (warns : Bool) (prototype : Object)
    (getter setter : ObjectId) (world : World) : Prop where
  source : (world.object trial.source).IsArrayOf realm (mappedNumbers.map .number)
  double : ∃ id, trial.double = .object id ∧
    (world.object id).callable = some ⟨"", .probe .double⟩
  inherited : trial.setter = .object setter
  greets : (world.object getter).callable = some ⟨"get", .probe .greet⟩
  counts : (world.object setter).callable = some ⟨"set", .probe (.count warns)⟩
  planted : world.object (Intrinsic.arrayPrototype.id realm) = prototype.planted getter setter
  base : world.object (Intrinsic.objectPrototype.id realm) =
    Intrinsic.objectPrototype.object realm

section

variable {realm : RealmId} {warns : Bool} {prototype : Object} {world after : World}

/-- Where nothing but the array prototype has been changed, the trial can be prepared. By then no call
of the setter has been noted, if all calls so far were of functions that were there. -/
theorem World.OriginalBesides.outcome_prepareMapping
    (original : world.OriginalBesides realm prototype) (takes : prototype.TakesFirst)
    (logged : ∀ call ∈ world.log, world.Has call.callee) (depth : Nat) (warns : Bool) :
    ∃ trial getter setter called,
      (prepareMapping (callWithin (depth + 1)) realm warns).outcome world = .done trial called ∧
      trial.Ready realm warns prototype getter setter called ∧
      ∀ call ∈ called.log, call.callee ≠ setter := by
  have made := outcome_arrayOf (callWithin (depth + 1)) realm (mappedNumbers.map .number) world
  have array := Object.isArrayOf_createdAll realm (mappedNumbers.map .number) (by decide)
  have spendsArray : world.Spends [] [] (world.add realm
      ((Object.emptyArray realm).createdAll (indexed (mappedNumbers.map .number)))) :=
    World.spends_add _ _ _
  rw [← World.object_add_nextId original.hasRealm
    ((Object.emptyArray realm).createdAll (indexed (mappedNumbers.map .number)))] at array
  have hasSource := World.has_add_nextId original.hasRealm
    ((Object.emptyArray realm).createdAll (indexed (mappedNumbers.map .number)))
  have apart : Intrinsic.arrayPrototype.id realm ≠ world.nextId realm :=
    (original.has .arrayPrototype).ne_nextId
  generalize world.add realm _ = start at *
  have originalStart := original.of_spends spendsArray
  obtain ⟨getter, setter, first, plants, planted, spends, new, greets, counts⟩ :=
    originalStart.outcome_plantAccessor takes depth warns
  obtain ⟨double, called, doubled, spendsDouble, -, -, doubles⟩ :=
    outcome_plantProbe (spends.hasRealm realm originalStart.hasRealm) "" 3 .double
  -- Of what was there before, only the array prototype has been changed.
  have kept {id : ObjectId} (there : start.Has id) (other : id ≠ Intrinsic.arrayPrototype.id realm) :
      called.object id = start.object id := by
    rw [spendsDouble.object id (spends.has id there) nofun,
      spends.object id there fun member => other (List.mem_singleton.mp member)]
  refine ⟨⟨world.nextId realm, .object double, .object setter⟩, getter, setter, called, ?_, ?_, ?_⟩
  · rw [prepareMapping, Run.outcome_bind_of_done made, Run.outcome_bind_of_done plants,
      Run.outcome_bind_of_done doubled]
    rfl
  · constructor
    · rw [kept hasSource apart.symm]
      exact array
    · exact ⟨double, rfl, congrArg Object.callable doubles⟩
    · rfl
    · rw [spendsDouble.object getter (World.has_of_callable greets) nofun, greets]
    · rw [spendsDouble.object setter (World.has_of_callable counts) nofun, counts]
    · rw [spendsDouble.object _ (spends.has _ (originalStart.has _)) nofun, planted]
    · have other : Intrinsic.objectPrototype.id realm ≠ Intrinsic.arrayPrototype.id realm :=
        fun same => nomatch Intrinsic.id_injective realm same
      rw [kept (originalStart.has _) other, originalStart.object .objectPrototype nofun]
  · -- Whatever has been called was there before the setter was made.
    rintro call member rfl
    refine new ?_
    have early := (spendsDouble.log call member).resolve_right List.not_mem_nil
    rcases spends.log call early with old | builtin
    · have older := (spendsArray.log call old).resolve_right List.not_mem_nil
      exact spendsArray.has _ (logged call older)
    · rw [List.mem_singleton.mp builtin]
      exact originalStart.has _

namespace Trial.Ready

variable {trial : Trial} {getter setter : ObjectId}

/-- The mapping function is found on the array prototype. -/
theorem outcome_invoke_map (ready : trial.Ready realm warns prototype getter setter world)
    {function : Value} (slot : prototype.own? (.text "map") = some (.hidden function))
    (call : Caller) (arguments : List Value) :
    (invoke call realm (.object trial.source) "map" arguments).outcome world =
      (call realm function (.object trial.source) arguments).outcome world := by
  have own : (world.object trial.source).own? (.text "map") = none :=
    ready.source.own?_eq_none (by decide) (by decide) (by decide)
  have above : (world.object (Intrinsic.arrayPrototype.id realm)).own? (.text "map") =
      some (.hidden function) := by
    rw [ready.planted, Object.own?_planted _ _ _ (by decide) (by decide), slot]
  exact outcome_invoke call realm arguments
    (World.search_of_prototype_found own ready.source.prototype (World.search_of_own? above))

/-- The trial is still ready if nothing that is asked of it has been changed. What functions do
cannot have been changed anyway. -/
theorem of_remembers (ready : trial.Ready realm warns prototype getter setter world)
    (remembers : world.Remembers after)
    (same : ∀ id ∈ [trial.source, Intrinsic.arrayPrototype.id realm,
      Intrinsic.objectPrototype.id realm], after.object id = world.object id) :
    trial.Ready realm warns prototype getter setter after := by
  obtain ⟨source, array, base⟩ : _ ∧ _ ∧ _ := by simpa using same
  obtain ⟨double, isDouble, doubles⟩ := ready.double
  exact ⟨source ▸ ready.source, ⟨double, isDouble, remembers.callable_eq doubles⟩,
    ready.inherited, remembers.callable_eq ready.greets, remembers.callable_eq ready.counts,
    array.trans ready.planted, base.trans ready.base⟩

end Trial.Ready

end

end EcmaCore
