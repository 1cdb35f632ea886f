/-
This file compares the ways in which a number becomes the length of an array. The array
constructor looks at the number itself. An assignment and a definition convert what they are
given, and compare the number that comes of it with its remainder modulo `2 ^ 32`. Mapping
cuts off the fraction of a length that it reads. The first three let the same numbers pass, and
mapping refuses a number just if its integer part is no length for being too large.

A new array takes every length at once. The conversion of an object may call scripts, but no
script can have got hold of an array that was only just made.
-/

import EcmaCore.Proofs.Engine.Defining
import EcmaCore.Proofs.Engine.Mapping

namespace EcmaCore

/-! ### Numbers that are lengths -/

/-- The number is an integer that an array can have as its length. Either zero is the length
zero. -/
def Number.IsLength (number : Number) (length : Nat) : Prop :=
  length ≤ maxLength ∧ number.integer? = some (length : Int)

/-- The integer part of the number is above every length. -/
def Number.Overlong (number : Number) : Prop :=
  number = .infinity false ∨
    ∃ integer : Int, number.truncated? = some integer ∧ (maxLength : Int) < integer

namespace Number

variable {number : Number} {length : Nat}

/-- A number that is a length equals it. -/
theorem IsLength.equals_ofNat (whole : number.IsLength length) :
    (ofNat length).equals number = true := by
  rw [← toUint32_of_integer? whole.2 whole.1]
  exact equals_toUint32_iff.mpr ⟨length, whole⟩

theorem IsLength.toLength (whole : number.IsLength length) : number.toLength = length := by
  rw [toLength_of_integer? whole.2]
  exact Nat.min_eq_left (Nat.le_trans whole.1 (by decide))

/-- Cutting a number off at its fraction and between zero and `2 ^ 53 - 1` does not hide that it is
too large. -/
theorem overlong_iff : number.Overlong ↔ maxLength < number.toLength := by
  have room : maxLength < maxSafeInteger := by decide
  cases number with
  | nan =>
    constructor
    · rintro (same | ⟨integer, same, -⟩)
      · cases same
      · cases same
    · exact fun above => absurd above (Nat.not_lt_zero _)
  | infinity negative =>
    cases negative with
    | false => exact ⟨fun _ => room, fun _ => Or.inl rfl⟩
    | true =>
      constructor
      · rintro (same | ⟨integer, same, -⟩)
        · cases same
        · cases same
      · exact fun above => absurd above (Nat.not_lt_zero _)
  | finite negative mantissa scale canonical =>
    rw [Overlong, truncated?, toLength]
    generalize mantissa * Nat.pow 2 scale / one = steps
    cases negative with
    | false =>
      rw [if_neg Bool.false_ne_true, Nat.lt_min, and_iff_left room]
      constructor
      · rintro (same | ⟨integer, same, above⟩)
        · cases same
        · obtain rfl : (steps : Int) = integer := Option.some.inj same
          exact Int.ofNat_lt.mp above
      · exact fun above => Or.inr ⟨steps, rfl, Int.ofNat_lt.mpr above⟩
    | true =>
      rw [if_pos rfl]
      constructor
      · rintro (same | ⟨integer, same, above⟩)
        · cases same
        · obtain rfl : -(steps : Int) = integer := Option.some.inj same
          omega
      · exact fun above => absurd above (Nat.not_lt_zero _)

/-- What is too large is no length. -/
theorem Overlong.not_isLength (above : number.Overlong) : ¬ number.IsLength length := by
  rintro ⟨bound, whole⟩
  rcases above with rfl | ⟨integer, same, above⟩
  · cases whole
  · rw [truncated?_of_integer? whole] at same
    cases same
    exact Nat.not_lt_of_le bound (Int.ofNat_lt.mp above)

end Number

/-! ### New arrays -/

variable {world converted : World} {realm home : RealmId} {id : ObjectId} {value : Value}
  {number : Number} {length : Nat}

theorem lengthDefined_of_new (home : RealmId) (length : Nat) (value : Value) :
    (Object.emptyArray home).lengthDefined length { value := some value } =
      (.sparseArray home length, true) :=
  lengthDefined_emptyArray home length

section

variable (call : Caller) (new : world.object id = .emptyArray home)
  (ended : (toNumber call realm value).outcome world = .done number converted)
include new ended

/-- A value that is defined as the length of a new array is converted, and then it is a length or
not. -/
theorem outcome_define_of_new :
    (define call realm id .length { value := some value }).outcome world =
      if (Number.ofNat number.toUint32).equals number then
        .done ((converted.object id).lengthDefined number.toUint32 { value := some value }).2
          (converted.modifyObject id fun _ =>
            ((converted.object id).lengthDefined number.toUint32 { value := some value }).1)
      else .threw .invalidLength converted := by
  rw [outcome_define_of_converts call realm (by rw [new]; rfl) rfl, ended, Outcome.andThen_done]

theorem outcome_define_of_isLength (still : converted.object id = .emptyArray home)
    (whole : number.IsLength length) :
    (define call realm id .length { value := some value }).outcome world =
      .done true (converted.modifyObject id fun _ => .sparseArray home length) := by
  rw [outcome_define_of_new call new ended, if_pos (Number.equals_toUint32_iff.mpr ⟨_, whole⟩),
    Number.toUint32_of_integer? whole.2 whole.1, still, lengthDefined_of_new]

theorem outcome_define_of_not_isLength (other : ∀ length, ¬ number.IsLength length) :
    (define call realm id .length { value := some value }).outcome world =
      .threw .invalidLength converted := by
  rw [outcome_define_of_new call new ended, if_neg]
  rintro equal
  obtain ⟨length, whole⟩ := Number.equals_toUint32_iff.mp equal
  exact other length whole

omit ended in
/-- The length of a new array may change, so assigning it defines it. -/
theorem outcome_set_of_new :
    (set call realm id .length value).outcome world =
      ((define call realm id .length { value := some value }).outcome world).andThen
        fun met after => if met then .done () after else .threw (.readOnly .length) after :=
  outcome_set_of_data call realm (by rw [new]; exact own?_length_emptyArray home) value

end

/-- The constructor makes an array of every length. -/
theorem outcome_constructArray_of_isLength (call : Caller) (made : world.HasRealm realm)
    (whole : number.IsLength length) :
    (constructArray call realm [.number number]).outcome world =
      .done (world.nextId realm) (world.add realm (.sparseArray realm length)) := by
  have inside : (0 : Int) ≤ length ∧ (length : Int) ≤ maxLength :=
    ⟨Int.natCast_nonneg length, Int.ofNat_le.mpr whole.1⟩
  have new := World.object_add_nextId made (.emptyArray realm)
  have ended : (toNumber call realm (.number number)).outcome
      (world.add realm (.emptyArray realm)) = .done number _ := rfl
  simp only [constructArray, whole.2]
  rw [if_pos inside, arrayOfLength, Run.outcome_bind_of_done (Run.outcome_allocate _ _ _),
    Run.outcome_bind, outcome_set_of_new call new,
    outcome_define_of_isLength call new ended new whole, World.modifyObject_add]
  rfl

theorem outcome_constructArray_of_not_isLength (call : Caller) (realm : RealmId) (world : World)
    (other : ∀ length, ¬ number.IsLength length) :
    (constructArray call realm [.number number]).outcome world = .threw .invalidLength world := by
  cases whole : number.integer? with
  | none => simp only [constructArray, whole, Run.outcome_throw]
  | some integer =>
    have outside : ¬ (0 ≤ integer ∧ integer ≤ maxLength) := by
      rintro ⟨low, high⟩
      obtain ⟨length, rfl⟩ := Int.eq_ofNat_of_zero_le low
      exact other length ⟨Int.ofNat_le.mp high, whole⟩
    simp only [constructArray, whole, if_neg outside, Run.outcome_throw]

/-- A value that does not have an array which was only just made is converted without it. -/
theorem still_new_of_just_made {depth : Nat} (intrinsics : world.HasIntrinsics realm)
    (closed : world.Closed) (known : value.Known world)
    (ended : (toNumber (callWithin depth) realm value).outcome (world.add realm (.emptyArray realm))
      = .done number converted) :
    converted.object (world.nextId realm) = .emptyArray realm := by
  let secret : Secret := ⟨world.nextId realm, intrinsics.late⟩
  have made : world.HasRealm realm := (intrinsics .global (by decide)).hasRealm
  have missing : ¬ world.Has secret.id := World.not_has_nextId
  have hides : (world.add realm (.emptyArray realm)).Hides secret :=
    (closed secret missing).add (Object.avoids_emptyArray realm)
  have silent : (toNumber (callWithin depth) realm value).Silent secret :=
    contained_toNumber (Caller.confined_confinement.mpr (discreet_callWithin secret depth)) trivial
      (Value.within_territory.mpr (known.avoids missing))
  have grows := steady_toNumber (steady_callWithin kindDiscipline depth) realm value
  obtain ⟨-, spares⟩ := Run.Discreet.of_done silent grows hides ended
    fun _ => World.has_add_nextId made _
  rw [spares.object]
  exact World.object_add_nextId made _

/-! ### The ways to a length -/

/-- The number makes an array of the length, or gives it to a new one, in each of three ways. The
length equals the number, and it is the one that mapping reads from it. -/
structure LengthTaken (number : Number) (length : Nat) : Prop where
  equal : (Number.ofNat length).equals number = true
  mapped : number.toLength = length
  shown : ∀ home, (Object.sparseArray home length).own? .length =
    some (.data (.number (.ofNat length)) true false false)
  constructed : ∀ (call : Caller) (depth : Nat) (realm : RealmId) (receiver : Value) (world : World),
    world.HasRealm realm →
    (Builtin.run call depth realm receiver [.number number] .array).outcome world =
      .done (.object (world.nextId realm)) (world.add realm (.sparseArray realm length))
  assigned : ∀ (call : Caller) (realm home : RealmId) (world converted : World) (id : ObjectId)
    (value : Value), world.object id = .emptyArray home →
    (toNumber call realm value).outcome world = .done number converted →
    converted.object id = .emptyArray home →
    (set call realm id .length value).outcome world =
      .done () (converted.modifyObject id fun _ => .sparseArray home length)
  defined : ∀ (call : Caller) (realm home : RealmId) (world converted : World) (id : ObjectId)
    (value : Value), world.object id = .emptyArray home →
    (toNumber call realm value).outcome world = .done number converted →
    converted.object id = .emptyArray home →
    (define call realm id .length { value := some value }).outcome world =
      .done true (converted.modifyObject id fun _ => .sparseArray home length)

/-- The number is refused as a length in each of three ways, and with the same error. The array is
not even looked at again after the conversion. -/
structure LengthRefused (number : Number) (error : Error) : Prop where
  constructed : ∀ (call : Caller) (depth : Nat) (realm : RealmId) (receiver : Value) (world : World),
    (Builtin.run call depth realm receiver [.number number] .array).outcome world =
      .threw error world
  assigned : ∀ (call : Caller) (realm home : RealmId) (world converted : World) (id : ObjectId)
    (value : Value), world.object id = .emptyArray home →
    (toNumber call realm value).outcome world = .done number converted →
    (set call realm id .length value).outcome world = .threw error converted
  defined : ∀ (call : Caller) (realm home : RealmId) (world converted : World) (id : ObjectId)
    (value : Value), world.object id = .emptyArray home →
    (toNumber call realm value).outcome world = .done number converted →
    (define call realm id .length { value := some value }).outcome world = .threw error converted

theorem lengthTaken_of_isLength (whole : number.IsLength length) : LengthTaken number length where
  equal := whole.equals_ofNat
  mapped := whole.toLength
  shown home := Object.own?_put_self _ _ _
  constructed call depth realm receiver world made := by
    rw [Builtin.run,
      Run.outcome_bind_of_done (outcome_constructArray_of_isLength call made whole)]
    rfl
  assigned call realm home world converted id value new ended still := by
    rw [outcome_set_of_new call new, outcome_define_of_isLength call new ended still whole]
    rfl
  defined call realm home world converted id value new ended still :=
    outcome_define_of_isLength call new ended still whole

theorem lengthRefused_of_not_isLength (other : ∀ length, ¬ number.IsLength length) :
    LengthRefused number .invalidLength where
  constructed call depth realm receiver world := by
    rw [Builtin.run, Run.outcome_bind, outcome_constructArray_of_not_isLength call realm world other]
    rfl
  assigned call realm home world converted id value new ended := by
    rw [outcome_set_of_new call new, outcome_define_of_not_isLength call new ended other]
    rfl
  defined call realm home world converted id value new ended :=
    outcome_define_of_not_isLength call new ended other

/-- The ways to a length agree on every number. One that is an integer from zero up to `2 ^ 32 - 1`,
either zero included, makes an array of just that length, and gives it to a new array by assignment
and by definition, whatever value it was converted from. Any other number is refused by all three,
with an error of range. An array that was only just made is still new after the conversion, as
nothing in a closed world leads to it; and every world is closed that a program reaches from new
realms, if it has no identity but those that were given out. And a length that mapping reads is
refused, with the same error, if the integer part is above all lengths; else the result gets the
length that is left of the number, and its elements are filled in. -/
theorem length_gates_agree (number : Number) :
    (∀ length, number.IsLength length → LengthTaken number length) ∧
    ((∀ length, ¬ number.IsLength length) → LengthRefused number .invalidLength) ∧
    Error.invalidLength.kind = .rangeError ∧
    (∀ (depth : Nat) (realm : RealmId) (world converted : World) (value : Value),
      world.HasIntrinsics realm → world.Closed → value.Known world →
      (toNumber (callWithin depth) realm value).outcome (world.add realm (.emptyArray realm)) =
        .done number converted →
      converted.object (world.nextId realm) = .emptyArray realm) ∧
    (∀ (program : Program) (depth count : Nat),
      (∀ secret : Secret, ¬ (World.fresh count).Has secret.id → program.Avoids secret) →
      ∀ reached ∈ (program.run (callWithin depth)).worlds (.fresh count),
        reached.Closed ∧ ∀ realm < count, reached.HasIntrinsics realm) ∧
    ∀ (call : Caller) (realm : RealmId) (source callback receiver value : Value)
      (world boxed read measured : World) (id : ObjectId),
      (toObject realm source).outcome world = .done id boxed →
      (get call realm id .length).outcome boxed = .done value read →
      (toNumber call realm value).outcome read = .done number measured →
      measured.HasRealm realm → measured.isCallable callback = true →
      (number.Overlong → (∀ length, ¬ number.IsLength length) ∧
        (mapArray call realm source callback receiver).outcome world =
          .threw .invalidLength measured) ∧
      (¬ number.Overlong → (mapArray call realm source callback receiver).outcome world =
        ((Run.collect number.toLength
            (mapElement call realm id (measured.nextId realm) callback receiver)).outcome
          (measured.add realm (.sparseArray realm number.toLength))).andThen
            fun _ after => .done (.object (measured.nextId realm)) after) := by
  refine ⟨fun length whole => lengthTaken_of_isLength whole,
    fun other => lengthRefused_of_not_isLength other, rfl,
    fun depth realm world converted value intrinsics closed known ended =>
      still_new_of_just_made intrinsics closed known ended,
    fun program depth count avoids reached member =>
      ⟨Program.closed_of_mem (World.closed_fresh count) avoids depth member, fun realm inside =>
        Program.hasIntrinsics_of_mem (World.hasIntrinsics_fresh inside) depth member⟩, ?_⟩
  intro call realm source callback receiver value world boxed read measured id boxing got ended made
    callable
  have length : (lengthOf call realm id).outcome boxed = .done number.toLength measured := by
    rw [lengthOf, Run.outcome_bind_of_done got, toLength, Run.outcome_bind_of_done ended]
    rfl
  have start : MapStart call realm source world id number.toLength measured :=
    ⟨boxed, boxing, length⟩
  constructor
  · intro above
    exact ⟨fun _ => above.not_isLength,
      start.outcome_of_tooLong callable (Number.overlong_iff.mp above)⟩
  · intro below
    exact start.outcome_of_callable made callable
      (Nat.le_of_not_lt fun above => below (Number.overlong_iff.mpr above))

/-! ### One element, and one too many -/

/-- One more than the largest length. -/
theorem Number.overlong_above : (ofNat 4294967296).Overlong :=
  Or.inr ⟨_, truncated?_of_integer? (integer?_ofNat (by decide)), by decide⟩

/-- An object that claims to have one element more than an array can have. -/
def Object.overlong : Object :=
  (plain 0).put .length (.plain (.number (.ofNat 4294967296)))

/-- A new array takes the length that `true` converts to, and neither a new array nor mapping takes
one above the largest. -/
theorem length_gates_agree_on_one_and_too_many :
    let world := (World.fresh 1).add 0 .overlong
    let source := (World.fresh 1).nextId 0
    let made := world.add 0 (.emptyArray 0)
    let id := world.nextId 0
    (Builtin.run (callWithin 1) 1 0 .undefined [.number (.ofNat 1)] .array).outcome world =
        .done (.object id) (world.add 0 (.sparseArray 0 1)) ∧
      (set (callWithin 1) 0 id .length (.boolean true)).outcome made =
        .done () (made.modifyObject id fun _ => .sparseArray 0 1) ∧
      (define (callWithin 1) 0 id .length
          { value := some (.number (.ofNat 4294967296)) }).outcome made =
        .threw .invalidLength made ∧
      (mapArray (callWithin 1) 0 (.object source) ((Intrinsic.function .arrayIsArray).value 0)
          .undefined).outcome world = .threw .invalidLength world := by
  intro world source made id
  have hasFresh : (World.fresh 1).HasRealm 0 := World.hasRealm_fresh Nat.zero_lt_one
  have intrinsics : world.HasIntrinsics 0 :=
    (World.hasIntrinsics_fresh Nat.zero_lt_one).of_sameKinds (World.sameKinds_add _ _ _)
  have hasRealm : world.HasRealm 0 := (intrinsics .global (by decide)).hasRealm
  have closed : world.Closed := (World.closed_fresh 1).add fun secret _ =>
    (Object.avoids_bare .ordinary fun parent same => by
      cases same
      exact secret.intrinsic_ne .objectPrototype 0).put (Secret.absent_primitive rfl)
  have new : made.object id = .emptyArray 0 := World.object_add_nextId hasRealm _
  have object : world.object source = .overlong := World.object_add_nextId hasFresh _
  obtain ⟨taken, -, -, still, -⟩ := length_gates_agree (.ofNat 1)
  have one := taken 1 ⟨by decide, Number.integer?_ofNat_of_le (by decide)⟩
  obtain ⟨-, refused, -, -, -, maps⟩ := length_gates_agree (.ofNat 4294967296)
  have many := refused fun _ => Number.overlong_above.not_isLength
  have read : (get (callWithin 1) 0 source .length).outcome world =
      .done (.number (.ofNat 4294967296)) world := by
    rw [get, getFor, Run.outcome_bind_of_done (Run.outcome_search_of_found
      (World.search_of_own? (by rw [object]; exact Object.own?_put_self _ _ _)))]
    rfl
  have callable : world.isCallable ((Intrinsic.function .arrayIsArray).value 0) = true := by
    decide +kernel
  refine ⟨one.constructed _ _ _ _ _ hasRealm,
    one.assigned _ 0 0 made made id _ new rfl
      (still 1 0 world made (.boolean true) intrinsics closed nofun rfl),
    many.defined _ 0 0 made made id _ new rfl, ?_⟩
  exact ((maps (callWithin 1) 0 (.object source) _ .undefined _ world world world world source rfl
    read rfl hasRealm callable).1 Number.overlong_above).2

end EcmaCore
