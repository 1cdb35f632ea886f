/-
This file says what mapping an array does, whatever the getters of the source and the
callback do meanwhile. The indices below the length, which is read once, are dealt with
in ascending order. An index under which the source has nothing when its turn comes stays
a hole; under any other, what is read there is given to the callback, and what that returns
becomes a property of the result.

The result is out of reach for scripts. Its identity was never given out before, and until
it is returned nobody is told. So between two of the writes that fill it, it stays as it is,
and a write cannot be refused, diverted to a setter or undone. What scripts change is at
most what mapping reads next.
-/

import EcmaCore.Proofs.Engine.Making
import EcmaCore.Proofs.Object.Holes
import EcmaCore.Proofs.Secrecy.Closed
import EcmaCore.Proofs.World.Chains

namespace EcmaCore

/-! ### An array of a length -/

theorem own?_length_emptyArray (realm : RealmId) :
    (Object.emptyArray realm).own? .length = some (lengthSlot 0) :=
  Object.own?_put_self _ _ _

/-- An empty array takes any length at once. -/
theorem lengthDefined_emptyArray (realm : RealmId) (length : Nat) :
    (Object.emptyArray realm).lengthDefined length { value := some (.number (.ofNat length)) } =
      (.sparseArray realm length, true) := by
  have empty : (Object.emptyArray realm).arrayLength = 0 :=
    Object.arrayLength_of_slot (Nat.zero_le _) (own?_length_emptyArray realm)
  have allowed : (Object.emptyArray realm).redefined? .length
      { value := some (.number (.ofNat length)) } = some (.sparseArray realm length) := by
    rw [Object.redefined?, own?_length_emptyArray]
    rfl
  rw [Object.lengthDefined, empty, if_pos (Nat.zero_le length)]
  simp only [allowed]

theorem avoids_sparseArray {secret : Secret} (realm : RealmId) (length : Nat) :
    (Object.sparseArray realm length).Avoids secret :=
  (Object.avoids_emptyArray realm).put (Secret.absent_primitive rfl)

section

variable (call : Caller) {realm : RealmId} {world : World} {length : Nat}

/-- Giving a new array its length finds the slot that the array has by itself. No setter is asked,
and nothing refuses. -/
theorem outcome_set_length (made : world.HasRealm realm) (bound : length ≤ maxLength) :
    (set call realm (world.nextId realm) .length (.number (.ofNat length))).outcome
      (world.add realm (.emptyArray realm)) =
      .done () (world.add realm (.sparseArray realm length)) := by
  have object := World.object_add_nextId made (.emptyArray realm)
  have slot : ((world.add realm (.emptyArray realm)).object (world.nextId realm)).own? .length =
      some (lengthSlot 0) := by rw [object, own?_length_emptyArray]
  have array : ((world.add realm (.emptyArray realm)).object (world.nextId realm)).isArray =
      true := by
    rw [object]
    rfl
  have defined : (defineLength call realm (world.nextId realm)
      { value := some (.number (.ofNat length)) }).outcome (world.add realm (.emptyArray realm)) =
      .done true (world.add realm (.sparseArray realm length)) := by
    have converted : (toNumber call realm (.number (.ofNat length))).outcome
        (world.add realm (.emptyArray realm)) = .done (.ofNat length) _ := rfl
    simp only [defineLength]
    rw [Run.outcome_bind_of_done converted, Number.toUint32_ofNat bound,
      if_pos (Number.equals_ofNat bound),
      Run.outcome_bind_of_done (Run.outcome_object _ _), object, lengthDefined_emptyArray]
    exact congrArg _ (World.modifyObject_add _ _)
  rw [outcome_set_of_data call realm slot, define,
    Run.outcome_bind_of_done (Run.outcome_object _ _), if_pos array, if_pos rfl, defined]
  rfl

/-- Making an array of a length adds it to the world as it is to be. -/
theorem outcome_arrayOfLength (made : world.HasRealm realm) (bound : length ≤ maxLength) :
    (arrayOfLength call realm (.ofNat length)).outcome world =
      .done (world.nextId realm) (world.add realm (.sparseArray realm length)) := by
  rw [arrayOfLength, Run.outcome_bind_of_done (Run.outcome_allocate _ _ _),
    Run.outcome_bind_of_done (outcome_set_length call made bound)]
  rfl

end

/-! ### What mapping does -/

section

variable (call : Caller) (realm : RealmId)

/-- The source is an object or is boxed as one, and its length is read. -/
def MapStart (source : Value) (world : World) (id : ObjectId) (length : Nat)
    (measured : World) : Prop :=
  ∃ boxed, (toObject realm source).outcome world = .done id boxed ∧
    (lengthOf call realm id).outcome boxed = .done length measured

variable (source result : ObjectId) (callback receiver : Value)

/-- One index of the source is dealt with. If the source has nothing there, own or inherited, all is
as it was. Else the property is read, the callback is called with what was read, and what that
returns is written to the result and nowhere else. The result has not been touched meanwhile. -/
inductive MapPass (index : Nat) : World → Option Value → World → Prop
  | hole {world : World} (absent : world.search source (.ofIndex index) = .absent) :
      MapPass index world none world
  | element {world read called : World} {holder : ObjectId} {property : Property}
      {element mapped : Value}
      (present : world.search source (.ofIndex index) = .found holder property)
      (got : (get call realm source (.ofIndex index)).outcome world = .done element read)
      (ended : (call realm callback receiver
        [element, .number (.ofNat index), .object source]).outcome read = .done mapped called)
      (untouched : called.object result = world.object result) :
      MapPass index world (some mapped)
        (called.modifyObject result (·.put (.ofIndex index) (.plain mapped)))

/-- Indices are dealt with from one on, in ascending order and each once. -/
inductive MapPasses : Nat → World → List (Option Value) → World → Prop
  | none (index : Nat) (world : World) : MapPasses index world [] world
  | more {index : Nat} {world between after : World} {element : Option Value}
      {elements : List (Option Value)}
      (first : MapPass call realm source result callback receiver index world element between)
      (rest : MapPasses (index + 1) between elements after) :
      MapPasses index world (element :: elements) after

/-- An index of the source is not dealt with to the end: the getter or the callback fails. -/
inductive MapStop (index : Nat) : World → Error → World → Prop
  | reading {world after : World} {holder : ObjectId} {property : Property} {error : Error}
      (present : world.search source (.ofIndex index) = .found holder property)
      (failed : (get call realm source (.ofIndex index)).outcome world = .threw error after) :
      MapStop index world error after
  | calling {world read after : World} {holder : ObjectId} {property : Property}
      {element : Value} {error : Error}
      (present : world.search source (.ofIndex index) = .found holder property)
      (got : (get call realm source (.ofIndex index)).outcome world = .done element read)
      (failed : (call realm callback receiver
        [element, .number (.ofNat index), .object source]).outcome read = .threw error after) :
      MapStop index world error after

end

/-- Mapping fails, and the error is that of a script or of a check that comes before the first
index. Filling the result is no part of it. -/
inductive MapFailure (call : Caller) (realm : RealmId) (source callback receiver : Value)
    (world : World) : Error → World → Prop
  | noObject {error : Error} {after : World}
      (failed : (toObject realm source).outcome world = .threw error after) :
      MapFailure call realm source callback receiver world error after
  | noLength {id : ObjectId} {error : Error} {boxed after : World}
      (made : (toObject realm source).outcome world = .done id boxed)
      (failed : (lengthOf call realm id).outcome boxed = .threw error after) :
      MapFailure call realm source callback receiver world error after
  | notCallable {id : ObjectId} {length : Nat} {measured : World}
      (start : MapStart call realm source world id length measured)
      (no : measured.isCallable callback = false) :
      MapFailure call realm source callback receiver world
        (.notCallable (measured.display callback)) measured
  | tooLong {id : ObjectId} {length : Nat} {measured : World}
      (start : MapStart call realm source world id length measured)
      (callable : measured.isCallable callback = true) (above : maxLength < length) :
      MapFailure call realm source callback receiver world .invalidLength measured
  | stopped {id : ObjectId} {length : Nat} {error : Error} {measured reached after : World}
      {elements : List (Option Value)}
      (start : MapStart call realm source world id length measured)
      (callable : measured.isCallable callback = true) (bound : length ≤ maxLength)
      (inside : elements.length < length)
      (before : MapPasses call realm id (measured.nextId realm) callback receiver 0
        (measured.add realm (.sparseArray realm length)) elements reached)
      (stop : MapStop call realm id callback receiver elements.length reached error after) :
      MapFailure call realm source callback receiver world error after

/-! ### One index -/

/-- Where the source has a property, it is read, the callback is called, and the result is
written. -/
theorem outcome_mapElement_of_found (call : Caller) (realm : RealmId) {source : ObjectId}
    (result : ObjectId) (callback receiver : Value) {index : Nat} {world : World}
    {holder : ObjectId} {property : Property}
    (found : world.search source (.ofIndex index) = .found holder property) :
    (mapElement call realm source result callback receiver index).outcome world =
      ((get call realm source (.ofIndex index)).outcome world).andThen fun element read =>
        ((call realm callback receiver
          [element, .number (.ofNat index), .object source]).outcome read).andThen
            fun mapped called =>
              (createOrThrow call realm result (.ofIndex index) mapped).outcome called := by
  rw [mapElement, Run.outcome_bind_of_done (Run.outcome_has_of_found found), if_pos rfl,
    Run.outcome_bind]
  simp only [Run.outcome_bind]

/-- The result is out of reach, and so far it holds the given elements. -/
structure Filling (secret : Secret) (realm : RealmId) (length : Nat)
    (elements : List (Option Value)) (world : World) : Prop where
  hides : world.Hides secret
  made : world.Has secret.id
  filled : (world.object secret.id).PartlyFilled realm length elements

section

variable {secret : Secret} {realm : RealmId} {length : Nat} {elements : List (Option Value)}
  {world after : World} {depth : Nat} {source : ObjectId} {callback receiver : Value}

/-- What a discreet run leaves of the result is the result as it was. -/
theorem Filling.of_done {α : Type} {run : Run α} {goal : α → Prop} {value : α}
    (filling : Filling secret realm length elements world) (discreet : run.Discreet secret goal)
    (grows : run.Steady kindDiscipline.hosted) (ended : run.outcome world = .done value after) :
    goal value ∧ Filling secret realm length elements after ∧
      after.object secret.id = world.object secret.id := by
  obtain ⟨met, spares⟩ := discreet.of_done grows filling.hides ended fun _ => filling.made
  have made := (grows.sameKinds ended secret.id filling.made).1
  exact ⟨met, ⟨spares.hides, made, spares.object ▸ filling.filled⟩, spares.object⟩

/-- Creating the next element of the result writes it, whatever the result inherits. -/
theorem Filling.outcome_next (call : Caller)
    (filling : Filling secret realm length elements world) (inside : elements.length < length)
    (bound : length ≤ maxLength) (value : Value) :
    (createOrThrow call realm secret.id (.ofIndex elements.length) value).outcome world =
      .done ()
        (world.modifyObject secret.id (·.put (.ofIndex elements.length) (.plain value))) := by
  rw [outcome_createOrThrow call realm filling.filled.receptive
    (fun _ => Key.ofIndex_ne_length _) value]
  exact congrArg _ (World.modifyObject_congr (filling.filled.created_eq inside bound value))

theorem Filling.put (filling : Filling secret realm length elements world) (value : Value) :
    Filling secret realm length (elements ++ [some value])
      (world.modifyObject secret.id (·.put (.ofIndex elements.length) (.plain value))) where
  hides := filling.hides.modifyObject fun other => absurd rfl other
  made := (World.has_modifyObject _ _).mpr filling.made
  filled := by
    rw [World.object_modifyObject_self filling.made]
    exact filling.filled.put value

theorem Filling.hole (filling : Filling secret realm length elements world) :
    Filling secret realm length (elements ++ [none]) world :=
  ⟨filling.hides, filling.made, filling.filled.hole⟩

variable (filling : Filling secret realm length elements world) (known : source ≠ secret.id)
  (avoids : callback.Avoids secret) (avoidsReceiver : receiver.Avoids secret)
  (inside : elements.length < length) (bound : length ≤ maxLength)
include filling known avoids avoidsReceiver inside bound

/-- The step for the next index, if it comes to its end, is a pass that leaves one element more or a
hole; if it fails, a script did. -/
theorem Filling.pass :
    (∀ result after, (mapElement (callWithin depth) realm source secret.id callback receiver
        elements.length).outcome world = .done result after →
      ∃ element, MapPass (callWithin depth) realm source secret.id callback receiver elements.length
          world element after ∧ Filling secret realm length (elements ++ [element]) after) ∧
    (∀ error after, (mapElement (callWithin depth) realm source secret.id callback receiver
        elements.length).outcome world = .threw error after →
      MapStop (callWithin depth) realm source callback receiver elements.length world error
        after) := by
  have caller := discreet_callWithin secret depth
  have grows := steady_callWithin kindDiscipline depth
  cases found : world.search source (.ofIndex elements.length) with
  | endless =>
    rw [mapElement, Run.outcome_bind, Run.outcome_has_of_endless found]
    exact ⟨by simp, by simp⟩
  | absent =>
    rw [mapElement, Run.outcome_bind_of_done (Run.outcome_has_of_absent found)]
    refine ⟨fun result after ended => ?_, by simp⟩
    cases ended
    exact ⟨none, .hole found, filling.hole⟩
  | found holder property =>
    rw [outcome_mapElement_of_found _ _ _ _ _ found]
    cases got : (get (callWithin depth) realm source (.ofIndex elements.length)).outcome world with
    | cutOff => exact ⟨by simp, by simp⟩
    | threw failure reached =>
      refine ⟨by simp, fun error after ended => ?_⟩
      cases ended
      exact .reading found got
    | done element read =>
      obtain ⟨avoidsElement, fillingRead, sameRead⟩ := filling.of_done
        (discreet_get caller realm known _) (steady_get grows realm source _) got
      have told : secret.Absent [callback, receiver, element, .number (.ofNat elements.length),
          .object source] := by
        have number : (Value.number (.ofNat elements.length)).Avoids secret :=
          Value.avoids_of_primitive rfl
        simp [avoids, avoidsReceiver, avoidsElement, number, known]
      rw [Outcome.andThen]
      cases called : (callWithin depth realm callback receiver
          [element, .number (.ofNat elements.length), .object source]).outcome read with
      | cutOff => exact ⟨by simp, by simp⟩
      | threw failure reached =>
        refine ⟨by simp, fun error after ended => ?_⟩
        cases ended
        exact .calling found got called
      | done mapped reached =>
        obtain ⟨_, fillingCalled, sameCalled⟩ := fillingRead.of_done
          (caller _ _ _ _ told) (grows _ _ _ _) called
        rw [Outcome.andThen, fillingCalled.outcome_next _ inside bound mapped]
        refine ⟨fun result after ended => ?_, by simp⟩
        cases ended
        exact ⟨some mapped, .element found got called (sameCalled.trans sameRead),
          fillingCalled.put mapped⟩

end

/-! ### All indices -/

section

variable {secret : Secret} {realm : RealmId} {length : Nat} {source : ObjectId}
  {callback receiver : Value} (depth : Nat) (known : source ≠ secret.id)
  (avoids : callback.Avoids secret) (avoidsReceiver : receiver.Avoids secret)
  (bound : length ≤ maxLength)
include known avoids avoidsReceiver bound

/-- From any index on, the loop deals with all that remain, or it stops at one of them because a
script fails. -/
theorem Filling.passes {elements : List (Option Value)} {world : World}
    (filling : Filling secret realm length elements world) (collected : List Unit)
    {remaining : Nat} (all : elements.length + remaining = length) :
    (∀ results after, (Run.collectFrom (mapElement (callWithin depth) realm source secret.id
        callback receiver) collected elements.length remaining).outcome world =
          .done results after →
      ∃ others, others.length = remaining ∧
        MapPasses (callWithin depth) realm source secret.id callback receiver elements.length world
          others after ∧
        Filling secret realm length (elements ++ others) after) ∧
    (∀ error after, (Run.collectFrom (mapElement (callWithin depth) realm source secret.id
        callback receiver) collected elements.length remaining).outcome world =
          .threw error after →
      ∃ others reached, others.length < remaining ∧
        MapPasses (callWithin depth) realm source secret.id callback receiver elements.length world
          others reached ∧
        MapStop (callWithin depth) realm source callback receiver (elements.length + others.length)
          reached error after) := by
  induction remaining generalizing elements world collected with
  | zero =>
    refine ⟨fun results after ended => ?_, by simp [Run.collectFrom]⟩
    cases ended
    exact ⟨[], rfl, .none _ _, (List.append_nil elements).symm ▸ filling⟩
  | succ remaining inductionHypothesis =>
    have inside : elements.length < length := by omega
    rw [Run.collectFrom, Run.outcome_bind]
    cases stepped : (mapElement (callWithin depth) realm source secret.id callback receiver
        elements.length).outcome world with
    | cutOff => exact ⟨by simp, by simp⟩
    | threw failure reached =>
      refine ⟨by simp, fun error after ended => ?_⟩
      cases ended
      exact ⟨[], world, Nat.succ_pos remaining, .none _ _,
        (filling.pass known avoids avoidsReceiver inside bound).2 _ _ stepped⟩
    | done result between =>
      obtain ⟨element, pass, later⟩ :=
        (filling.pass known avoids avoidsReceiver inside bound).1 result _ stepped
      have one : (elements ++ [element]).length = elements.length + 1 := by
        rw [List.length_append, List.length_singleton]
      have rest := inductionHypothesis later (result :: collected) (by omega)
      rw [one] at rest
      refine ⟨fun results after ended => ?_, fun error after ended => ?_⟩
      · obtain ⟨others, count, passes, filled⟩ := rest.1 results after ended
        refine ⟨element :: others, congrArg (· + 1) count, .more pass passes, ?_⟩
        rwa [List.append_assoc] at filled
      · obtain ⟨others, reached, fewer, passes, stop⟩ := rest.2 error after ended
        refine ⟨element :: others, reached, Nat.succ_lt_succ fewer, .more pass passes, ?_⟩
        rwa [Nat.add_assoc, Nat.add_comm 1] at stop

end

/-! ### The whole map -/

namespace MapStart

variable {call : Caller} {realm : RealmId} {source callback receiver : Value}
  {world measured : World} {id : ObjectId} {length : Nat}
  (start : MapStart call realm source world id length measured)
include start

/-- A callback that cannot be called is found out before anything is made. -/
theorem outcome_of_notCallable (no : measured.isCallable callback = false) :
    (mapArray call realm source callback receiver).outcome world =
      .threw (.notCallable (measured.display callback)) measured := by
  obtain ⟨boxed, made, read⟩ := start
  rw [mapArray, Run.outcome_bind_of_done made, Run.outcome_bind_of_done read, Run.isCallable,
    Run.outcome_bind_of_done (Run.outcome_read _ _), no]
  rfl

/-- A length that no array can have is found out before anything is made. -/
theorem outcome_of_tooLong (callable : measured.isCallable callback = true)
    (above : maxLength < length) :
    (mapArray call realm source callback receiver).outcome world =
      .threw .invalidLength measured := by
  obtain ⟨boxed, made, read⟩ := start
  rw [mapArray, Run.outcome_bind_of_done made, Run.outcome_bind_of_done read, Run.isCallable,
    Run.outcome_bind_of_done (Run.outcome_read _ _), callable, if_pos rfl,
    if_neg (Nat.not_le_of_lt above)]
  rfl

/-- Else the result is made with its length, and the indices are dealt with. -/
theorem outcome_of_callable (made : measured.HasRealm realm)
    (callable : measured.isCallable callback = true) (bound : length ≤ maxLength) :
    (mapArray call realm source callback receiver).outcome world =
      ((Run.collect length
          (mapElement call realm id (measured.nextId realm) callback receiver)).outcome
        (measured.add realm (.sparseArray realm length))).andThen
          fun _ after => .done (.object (measured.nextId realm)) after := by
  obtain ⟨boxed, boxing, read⟩ := start
  rw [mapArray, Run.outcome_bind_of_done boxing, Run.outcome_bind_of_done read, Run.isCallable,
    Run.outcome_bind_of_done (Run.outcome_read _ _), callable, if_pos rfl, if_pos bound,
    Run.outcome_bind_of_done (outcome_arrayOfLength call made bound), Run.outcome_bind]
  rfl

end MapStart

/-- Mapping reads a length, or it fails before, or it has no answer. -/
theorem exists_mapStart (call : Caller) (realm : RealmId) (source callback receiver : Value)
    (world : World) :
    (∃ id length measured, MapStart call realm source world id length measured) ∨
    (∃ error after, (mapArray call realm source callback receiver).outcome world =
        .threw error after ∧ MapFailure call realm source callback receiver world error after) ∨
    (mapArray call realm source callback receiver).outcome world = .cutOff := by
  rw [mapArray, Run.outcome_bind]
  cases boxing : (toObject realm source).outcome world with
  | cutOff => exact Or.inr (Or.inr rfl)
  | threw error after => exact Or.inr (Or.inl ⟨error, after, rfl, .noObject boxing⟩)
  | done id boxed =>
    rw [Outcome.andThen, Run.outcome_bind]
    cases read : (lengthOf call realm id).outcome boxed with
    | cutOff => exact Or.inr (Or.inr rfl)
    | threw error after => exact Or.inr (Or.inl ⟨error, after, rfl, .noLength boxing read⟩)
    | done length measured => exact Or.inl ⟨id, length, measured, boxed, boxing, read⟩

section

variable {realm : RealmId} {source callback receiver : Value} {world : World} {depth : Nat}
  (intrinsics : world.HasIntrinsics realm) (closed : world.Closed)
  (known : ∀ value ∈ [source, callback, receiver], value.Known world)
include intrinsics closed known

/-- When the result is made, its identity is new, and nothing leads to it. -/
theorem MapStart.filling {id : ObjectId} {length : Nat} {measured : World}
    (start : MapStart (callWithin depth) realm source world id length measured) :
    ∃ secret : Secret, secret.id = measured.nextId realm ∧ measured.HasRealm realm ∧
      ¬ world.Has secret.id ∧ id ≠ secret.id ∧ callback.Avoids secret ∧ receiver.Avoids secret ∧
      Filling secret realm length [] (measured.add realm (.sparseArray realm length)) := by
  obtain ⟨boxed, boxing, read⟩ := start
  have caller := steady_callWithin kindDiscipline depth
  have early := (steady_toObject realm source).sameKinds boxing
  have late := (steady_lengthOf caller realm id).sameKinds read
  have present : measured.HasIntrinsics realm := intrinsics.of_sameKinds (early.trans late)
  have made : measured.HasRealm realm := (present .global (by decide)).hasRealm
  let secret : Secret := ⟨measured.nextId realm, present.late⟩
  have missingBoxed : ¬ boxed.Has secret.id := fun given =>
    World.not_has_nextId (late secret.id given).1
  have missing : ¬ world.Has secret.id := fun given => missingBoxed (early secret.id given).1
  have avoids (value : Value) (member : value ∈ [source, callback, receiver]) :
      value.Avoids secret := (known value member).avoids missing
  obtain ⟨knownId, sparesBoxed⟩ := (discreet_toObject realm (avoids source (by simp))).of_done
    (steady_toObject realm source) (closed secret missing) boxing
    fun given => absurd given missingBoxed
  obtain ⟨-, sparesMeasured⟩ := (silent_lengthOf (discreet_callWithin secret depth) realm
    knownId).of_done (steady_lengthOf caller realm id) sparesBoxed.hides read
    fun given => absurd given World.not_has_nextId
  refine ⟨secret, rfl, made, missing, knownId, avoids callback (by simp), avoids receiver (by simp),
    sparesMeasured.hides.add (avoids_sparseArray realm length), World.has_add_nextId made _, ?_⟩
  rw [World.object_add_nextId made]
  exact Object.partlyFilled_sparseArray realm length

/-- With a callback and a length that will do, all indices are dealt with and the result is handed
out, or a script stops the loop. -/
theorem MapStart.outcome_cases {id : ObjectId} {length : Nat} {measured : World}
    (start : MapStart (callWithin depth) realm source world id length measured)
    (callable : measured.isCallable callback = true) (bound : length ≤ maxLength) :
    (∀ value after,
      (mapArray (callWithin depth) realm source callback receiver).outcome world =
        .done value after →
      ¬ world.Has (measured.nextId realm) ∧ value = .object (measured.nextId realm) ∧
      ∃ elements, elements.length = length ∧
        MapPasses (callWithin depth) realm id (measured.nextId realm) callback receiver 0
          (measured.add realm (.sparseArray realm length)) elements after ∧
        (after.object (measured.nextId realm)).IsArrayWithHoles realm elements) ∧
    (∀ error after,
      (mapArray (callWithin depth) realm source callback receiver).outcome world =
        .threw error after →
      MapFailure (callWithin depth) realm source callback receiver world error after) := by
  obtain ⟨secret, same, made, missing, other, avoids, avoidsReceiver, filling⟩ :=
    MapStart.filling intrinsics closed known start
  have loop := filling.passes depth other avoids avoidsReceiver bound [] (Nat.zero_add length)
  rw [start.outcome_of_callable made callable bound, Run.collect, ← same]
  cases ended : (Run.collectFrom (mapElement (callWithin depth) realm id secret.id callback
      receiver) [] 0 length).outcome (measured.add realm (.sparseArray realm length)) with
  | cutOff => exact ⟨by simp, by simp⟩
  | threw failure reached =>
    refine ⟨by simp, fun error after stopped => ?_⟩
    cases stopped
    obtain ⟨elements, stopped, inside, passes, stop⟩ := loop.2 failure reached ended
    rw [same] at passes
    rw [List.length_nil, Nat.zero_add] at stop
    exact .stopped start callable bound inside passes stop
  | done results reached =>
    refine ⟨fun value after done => ?_, by simp⟩
    cases done
    obtain ⟨elements, count, passes, filled⟩ := loop.1 results reached ended
    refine ⟨missing, rfl, elements, count, passes, ?_⟩
    have whole := filled.filled
    rw [List.nil_append, ← count] at whole
    exact whole.isArrayWithHoles (count ▸ bound)

/-- What mapping returns and when it fails. If it returns a value, then that is a new array of the
realm, filled by passes over the indices below the length that was read at the start, and it has
what the callback returned in them and nothing else. A callback that cannot be called is an error of
type and a length above the largest is one of range, before any index. And whatever error mapping
fails with, it is one of these two or it comes from a script. -/
theorem mapArray_contract :
    (∀ value after,
      (mapArray (callWithin depth) realm source callback receiver).outcome world =
        .done value after →
      ∃ id length measured elements,
        MapStart (callWithin depth) realm source world id length measured ∧
        measured.isCallable callback = true ∧ length ≤ maxLength ∧
        ¬ world.Has (measured.nextId realm) ∧ value = .object (measured.nextId realm) ∧
        elements.length = length ∧
        MapPasses (callWithin depth) realm id (measured.nextId realm) callback receiver 0
          (measured.add realm (.sparseArray realm length)) elements after ∧
        (after.object (measured.nextId realm)).IsArrayWithHoles realm elements) ∧
    (∀ id length measured, MapStart (callWithin depth) realm source world id length measured →
      (measured.isCallable callback = false → ∃ error, error.kind = .typeError ∧
        (mapArray (callWithin depth) realm source callback receiver).outcome world =
          .threw error measured) ∧
      (measured.isCallable callback = true → maxLength < length → ∃ error,
        error.kind = .rangeError ∧
        (mapArray (callWithin depth) realm source callback receiver).outcome world =
          .threw error measured)) ∧
    (∀ error after,
      (mapArray (callWithin depth) realm source callback receiver).outcome world =
        .threw error after →
      MapFailure (callWithin depth) realm source callback receiver world error after) := by
  have start := exists_mapStart (callWithin depth) realm source callback receiver world
  refine ⟨fun value after ended => ?_, fun id length measured start => ⟨fun no => ?_, ?_⟩,
    fun error after ended => ?_⟩
  · rcases start with ⟨id, length, measured, start⟩ | ⟨error, reached, failed, _⟩ | cut
    · cases callable : measured.isCallable callback with
      | false =>
        rw [start.outcome_of_notCallable callable] at ended
        cases ended
      | true =>
        rcases Nat.lt_or_ge maxLength length with above | bound
        · rw [start.outcome_of_tooLong callable above] at ended
          cases ended
        · obtain ⟨new, same, elements, count, passes, shape⟩ :=
            (start.outcome_cases intrinsics closed known callable bound).1 value after ended
          exact ⟨id, length, measured, elements, start, callable, bound, new, same, count, passes,
            shape⟩
    · rw [failed] at ended
      cases ended
    · rw [cut] at ended
      cases ended
  · exact ⟨_, rfl, start.outcome_of_notCallable no⟩
  · exact fun callable above => ⟨_, rfl, start.outcome_of_tooLong callable above⟩
  · rcases start with ⟨id, length, measured, start⟩ | ⟨failure, reached, failed, cause⟩ | cut
    · cases callable : measured.isCallable callback with
      | false =>
        rw [start.outcome_of_notCallable callable] at ended
        cases ended
        exact .notCallable start callable
      | true =>
        rcases Nat.lt_or_ge maxLength length with above | bound
        · rw [start.outcome_of_tooLong callable above] at ended
          cases ended
          exact .tooLong start callable above
        · exact (start.outcome_cases intrinsics closed known callable bound).2 error after ended
    · rw [failed] at ended
      cases ended
      exact cause
    · rw [cut] at ended
      cases ended

end

/-- A fresh world with an array besides, of which only the last of two elements is there. -/
def World.withHole : World :=
  (fresh 1).add 0 ((Object.sparseArray 0 2).put (.ofIndex 1) (.plain .null))

/-- The array with a hole is mapped by a builtin function. -/
theorem mapArray_contract_over_hole :
    ∃ after elements,
      (mapArray (callWithin 1) 0 (.object ⟨0, 20⟩) (Intrinsic.value (.function .arrayIsArray) 0)
        .undefined).outcome .withHole = .done (.object ⟨0, 21⟩) after ∧
      elements.length = 2 ∧ (after.object ⟨0, 21⟩).IsArrayWithHoles 0 elements := by
  have closed : World.withHole.Closed := (World.closed_fresh 1).add fun secret _ =>
    (avoids_sparseArray 0 2).put (Secret.absent_primitive rfl)
  have intrinsics : World.withHole.HasIntrinsics 0 :=
    (World.hasIntrinsics_fresh Nat.zero_lt_one).of_sameKinds (World.sameKinds_add _ _ _)
  have known : ∀ value ∈ [.object ⟨0, 20⟩, Intrinsic.value (.function .arrayIsArray) 0,
      .undefined], value.Known .withHole := by
    simp only [List.forall_mem_cons, List.not_mem_nil, false_implies, implies_true, and_true]
    refine ⟨?_, ?_, nofun⟩
    · rintro _ ⟨⟩
      decide +kernel
    · rintro _ ⟨⟩
      decide +kernel
  obtain ⟨after, ended⟩ := Outcome.exists_of_value? (by decide +kernel :
    ((mapArray (callWithin 1) 0 (.object ⟨0, 20⟩) (Intrinsic.value (.function .arrayIsArray) 0)
      .undefined).outcome .withHole).value? = some (.object ⟨0, 21⟩))
  obtain ⟨boxed, read⟩ := Outcome.exists_of_value? (by decide +kernel :
    ((lengthOf (callWithin 1) 0 ⟨0, 20⟩).outcome .withHole).value? = some 2)
  obtain ⟨id, length, measured, elements, ⟨_, boxing, measuring⟩, -, -, -, same, count, -, shape⟩ :=
    (mapArray_contract intrinsics closed known).1 _ after ended
  cases boxing
  rw [read] at measuring
  cases measuring
  rw [Value.object.injEq] at same
  exact ⟨after, elements, ended, count, same ▸ shape⟩

end EcmaCore
