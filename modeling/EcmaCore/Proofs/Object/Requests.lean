/-
This file says what a request to define a property comes to, field by field. Which changes
a slot forbids is written down as a list of their kinds, and what the slot says afterwards
as one rule for all fields: a field has what was asked, or else what it had if the slot has
a field of this kind, or else its default. So the enumerable and the configurable attribute,
which every slot has, are kept even when a value becomes a pair of accessors.

From this it is read off what a definition does to an object, as long as no value has to be
converted to a length: one slot, its place in the order of the keys, and the length of an
array that has got a further element.
-/

import EcmaCore.Proofs.Object.Shapes
import EcmaCore.Proofs.Object.Truncation

namespace EcmaCore

/-! ### The fields of a slot -/

namespace Property

/-- The value, if the slot holds one. -/
def value? : Property → Option Value
  | .data value _ _ _ => some value
  | .accessor .. => none

/-- Whether the value may change, if the slot holds one. -/
def writable? : Property → Option Bool
  | .data _ writable _ _ => some writable
  | .accessor .. => none

/-- The getter, or that there is none, if the slot is a pair of accessors. -/
def getter? : Property → Option (Option Value)
  | .data .. => none
  | .accessor getter _ _ _ => some getter

/-- The setter, or that there is none, if the slot is a pair of accessors. -/
def setter? : Property → Option (Option Value)
  | .data .. => none
  | .accessor _ setter _ _ => some setter

/-- The changes that a slot forbids which is not configurable. -/
inductive Forbids (current : Property) (descriptor : Descriptor) : Prop
  | configurable (asked : descriptor.configurable = some true)
  | enumerable {flag : Bool} (asked : descriptor.enumerable = some flag)
      (other : flag ≠ current.enumerable)
  | accessor (asked : descriptor.isAccessor = true) (data : current.isAccessor = false)
  | data (asked : descriptor.isData = true) (accessor : current.isAccessor = true)
  | getter {half : Option Value} {getter : Value} (held : current.getter? = some half)
      (asked : descriptor.getter = some getter) (other : getter ≠ half.getD .undefined)
  | setter {half : Option Value} {setter : Value} (held : current.setter? = some half)
      (asked : descriptor.setter = some setter) (other : setter ≠ half.getD .undefined)
  | writable (readOnly : current.writable? = some false) (asked : descriptor.writable = some true)
  | value {old value : Value} (readOnly : current.writable? = some false)
      (held : current.value? = some old) (asked : descriptor.value = some value)
      (other : value ≠ old)

variable {current : Property} {descriptor : Descriptor}

theorem keepsHalf_iff {field half : Option Value} :
    keepsHalf field half = true ↔ ∀ asked, field = some asked → asked = half.getD .undefined := by
  cases field with
  | none => exact ⟨fun _ => nofun, fun _ => rfl⟩
  | some asked =>
    rw [keepsHalf, Option.isNone_some, Bool.false_or, Option.getD_some, Value.same, beq_iff_eq]
    exact ⟨fun same _ given => Option.some.inj given ▸ same, fun keeps => keeps asked rfl⟩

/-- What a slot of the right kind keeps of its content when it is not configurable. -/
theorem keepsContent_iff :
    current.keepsContent descriptor = true ↔
      (∀ half asked, current.getter? = some half → descriptor.getter = some asked →
        asked = half.getD .undefined) ∧
      (∀ half asked, current.setter? = some half → descriptor.setter = some asked →
        asked = half.getD .undefined) ∧
      (current.writable? = some false → descriptor.writable ≠ some true ∧
        ∀ old asked, current.value? = some old → descriptor.value = some asked → asked = old) := by
  cases current with
  | accessor getter setter enumerable configurable =>
    rw [keepsContent, Bool.and_eq_true, keepsHalf_iff, keepsHalf_iff]
    constructor
    · rintro ⟨sameGetter, sameSetter⟩
      refine ⟨fun half asked held => ?_, fun half asked held => ?_, fun readOnly => ?_⟩
      · exact Option.some.inj held ▸ sameGetter asked
      · exact Option.some.inj held ▸ sameSetter asked
      · cases readOnly
    · rintro ⟨sameGetter, sameSetter, _⟩
      exact ⟨fun asked => sameGetter getter asked rfl, fun asked => sameSetter setter asked rfl⟩
  | data value writable enumerable configurable =>
    cases writable with
    | true =>
      refine ⟨fun _ => ⟨fun _ _ held => ?_, fun _ _ held => ?_, fun readOnly => ?_⟩, fun _ => rfl⟩
      · cases held
      · cases held
      · cases readOnly
    | false =>
      rw [keepsContent, Bool.and_eq_true, bne_iff_ne]
      have sameValue : (descriptor.value.all fun asked => Value.same asked value) = true ↔
          ∀ asked, descriptor.value = some asked → asked = value := by
        simp only [Option.all_eq_true, Value.same, beq_iff_eq]
      rw [sameValue]
      constructor
      · rintro ⟨stays, same⟩
        refine ⟨fun _ _ held => ?_, fun _ _ held => ?_, fun _ => ⟨stays, fun old asked held => ?_⟩⟩
        · cases held
        · cases held
        · exact Option.some.inj held ▸ same asked
      · rintro ⟨_, _, keeps⟩
        obtain ⟨stays, same⟩ := keeps rfl
        exact ⟨stays, fun asked => same value asked rfl⟩

/-- A slot that is configurable admits everything, and any other what it does not forbid. -/
theorem admits_iff (unmixed : descriptor.Unmixed) :
    current.admits descriptor = true ↔
      current.configurable = true ∨ ¬ current.Forbids descriptor := by
  rw [admits, Bool.or_eq_true]
  refine or_congr_right ?_
  simp only [Bool.and_eq_true, bne_iff_ne, Bool.or_eq_true, beq_iff_eq, Option.all_eq_true,
    keepsContent_iff]
  constructor
  · rintro ⟨⟨⟨notConfigurable, sameEnumerable⟩, sameKind⟩, sameGetter, sameSetter, keepsValue⟩
    intro forbidden
    cases forbidden with
    | configurable asked => exact notConfigurable asked
    | enumerable asked other => exact other (sameEnumerable _ asked)
    | accessor asked data =>
      rcases sameKind with generic | same
      · rw [Descriptor.isGeneric, asked] at generic
        cases generic
      · rw [asked, data] at same
        cases same
    | data asked accessor =>
      rcases sameKind with generic | same
      · rw [Descriptor.isGeneric, asked, Bool.not_true, Bool.and_false] at generic
        cases generic
      · rw [accessor] at same
        rw [unmixed same] at asked
        cases asked
    | getter held asked other => exact other (sameGetter _ _ held asked)
    | setter held asked other => exact other (sameSetter _ _ held asked)
    | writable readOnly asked => exact (keepsValue readOnly).1 asked
    | value readOnly held asked other => exact other ((keepsValue readOnly).2 _ _ held asked)
  · intro allowed
    refine ⟨⟨⟨fun asked => allowed (.configurable asked), fun flag asked => ?_⟩, ?_⟩, ?_, ?_, ?_⟩
    · exact Decidable.byContradiction fun other => allowed (.enumerable asked other)
    · cases asksAccessor : descriptor.isAccessor with
      | true =>
        refine Or.inr (Decidable.byContradiction fun other => allowed (.accessor asksAccessor ?_))
        exact Bool.eq_false_iff.mpr fun accessor => other accessor.symm
      | false =>
        cases asksData : descriptor.isData with
        | false => exact Or.inl (by rw [Descriptor.isGeneric, asksAccessor, asksData]; rfl)
        | true =>
          refine Or.inr (Bool.eq_false_iff.mpr fun accessor => ?_).symm
          exact allowed (.data asksData accessor)
    · exact fun half asked held given =>
        Decidable.byContradiction fun other => allowed (.getter held given other)
    · exact fun half asked held given =>
        Decidable.byContradiction fun other => allowed (.setter held given other)
    · refine fun readOnly => ⟨fun asked => allowed (.writable readOnly asked), ?_⟩
      exact fun old asked held given =>
        Decidable.byContradiction fun other => allowed (.value readOnly held given other)

end Property

/-! ### What a slot says after a request -/

namespace Descriptor

/-- The slot that a request makes of the slot that was there before, if there was one. -/
def applied (descriptor : Descriptor) : Option Property → Property
  | none => descriptor.toProperty
  | some current => current.revised descriptor

/-- An accessor that was asked for, none for undefined. -/
def askedHalf (field : Option Value) : Option (Option Value) :=
  field.map fun asked => if asked = .undefined then none else some asked

/-- The slot says what was asked. A field that was left out is as it was before if there was a field
of the same kind, and has its default otherwise. -/
structure Applies (descriptor : Descriptor) (before : Option Property) (slot : Property) :
    Prop where
  kind : slot.isAccessor = (descriptor.isAccessor ||
    !descriptor.isData && before.any Property.isAccessor)
  value : slot.isAccessor = false → slot.value? = some
    (descriptor.value.getD ((before.bind Property.value?).getD .undefined))
  writable : slot.isAccessor = false → slot.writable? = some
    (descriptor.writable.getD ((before.bind Property.writable?).getD false))
  getter : slot.isAccessor = true → slot.getter? = some
    ((askedHalf descriptor.getter).getD ((before.bind Property.getter?).getD none))
  setter : slot.isAccessor = true → slot.setter? = some
    ((askedHalf descriptor.setter).getD ((before.bind Property.setter?).getD none))
  enumerable : slot.enumerable =
    descriptor.enumerable.getD ((before.map Property.enumerable).getD false)
  configurable : slot.configurable =
    descriptor.configurable.getD ((before.map Property.configurable).getD false)

variable {descriptor : Descriptor}

theorem half_eq (field : Option Value) : half field = (askedHalf field).getD none := by
  cases field with
  | none => rfl
  | some asked =>
    rw [half, Option.filter_some, askedHalf, Option.map_some, Option.getD_some]
    by_cases undefined : asked = .undefined
    · rw [if_pos undefined, if_neg (by rw [undefined]; decide)]
    · rw [if_neg undefined, if_pos (bne_iff_ne.mpr undefined)]

theorem half_or (field old : Option Value) :
    (if field.isSome then half field else old) = (askedHalf field).getD old := by
  cases field with
  | none => rfl
  | some asked => exact half_eq (some asked)

theorem applies_accessor {before : Option Property} {getter setter : Option Value}
    {enumerable configurable : Bool}
    (kind : (descriptor.isAccessor ||
      !descriptor.isData && before.any Property.isAccessor) = true)
    (sameGetter : getter =
      (askedHalf descriptor.getter).getD ((before.bind Property.getter?).getD none))
    (sameSetter : setter =
      (askedHalf descriptor.setter).getD ((before.bind Property.setter?).getD none))
    (sameEnumerable : enumerable =
      descriptor.enumerable.getD ((before.map Property.enumerable).getD false))
    (sameConfigurable : configurable =
      descriptor.configurable.getD ((before.map Property.configurable).getD false)) :
    descriptor.Applies before (.accessor getter setter enumerable configurable) where
  kind := kind.symm
  value data := by cases data
  writable data := by cases data
  getter _ := congrArg some sameGetter
  setter _ := congrArg some sameSetter
  enumerable := sameEnumerable
  configurable := sameConfigurable

theorem applies_data {before : Option Property} {value : Value}
    {writable enumerable configurable : Bool}
    (kind : (descriptor.isAccessor ||
      !descriptor.isData && before.any Property.isAccessor) = false)
    (sameValue : value =
      descriptor.value.getD ((before.bind Property.value?).getD .undefined))
    (sameWritable : writable =
      descriptor.writable.getD ((before.bind Property.writable?).getD false))
    (sameEnumerable : enumerable =
      descriptor.enumerable.getD ((before.map Property.enumerable).getD false))
    (sameConfigurable : configurable =
      descriptor.configurable.getD ((before.map Property.configurable).getD false)) :
    descriptor.Applies before (.data value writable enumerable configurable) where
  kind := kind.symm
  value _ := congrArg some sameValue
  writable _ := congrArg some sameWritable
  getter accessor := by cases accessor
  setter accessor := by cases accessor
  enumerable := sameEnumerable
  configurable := sameConfigurable

/-- The slot that a request makes says what it asks for. -/
theorem applies_applied (unmixed : descriptor.Unmixed) (before : Option Property) :
    descriptor.Applies before (descriptor.applied before) := by
  cases asksAccessor : descriptor.isAccessor with
  | true =>
    have noData : descriptor.isData = false := unmixed asksAccessor
    rcases before with _ | (_ | _)
    case some.accessor =>
      simp only [applied, Property.revised, noData, Bool.false_eq_true, if_false, half_or]
      exact applies_accessor (by rw [asksAccessor]; rfl) rfl rfl rfl rfl
    all_goals
      simp only [applied, toProperty, Property.revised, asksAccessor, if_true, half_eq]
      exact applies_accessor (by rw [asksAccessor]; rfl) rfl rfl rfl rfl
  | false =>
    cases asksData : descriptor.isData with
    | true =>
      rcases before with _ | (_ | _)
      all_goals
        simp only [applied, toProperty, Property.revised, asksAccessor, asksData, if_true,
          Bool.false_eq_true, if_false]
        exact applies_data (by rw [asksAccessor, asksData]; rfl) rfl rfl rfl rfl
    | false =>
      rcases before with _ | (_ | _)
      case some.accessor =>
        simp only [applied, Property.revised, asksData, Bool.false_eq_true, if_false, half_or]
        exact applies_accessor (by rw [asksAccessor, asksData]; rfl) rfl rfl rfl rfl
      all_goals
        simp only [applied, toProperty, Property.revised, asksAccessor, Bool.false_eq_true,
          if_false]
        exact applies_data (by rw [asksAccessor, asksData]; rfl) rfl rfl rfl rfl

end Descriptor

namespace Object

variable {object changed : Object} {key : Key} {descriptor : Descriptor}

/-! ### Definitions that convert nothing -/

/-- A definition under the key gives the object a length, so its value is converted first. -/
def Converts (object : Object) (key : Key) (descriptor : Descriptor) : Prop :=
  object.isArray = true ∧ key = .length ∧ descriptor.value.isSome = true

/-- The object after a definition for which no value is converted. -/
def defined? (object : Object) (key : Key) (descriptor : Descriptor) : Option Object :=
  match object.isArray, key.arrayIndex? with
  | true, some index => object.elementDefined? index descriptor
  | _, _ => object.redefined? key descriptor

/-- The key names a new element of an array whose length is read-only. -/
def Closes (object : Object) (key : Key) : Prop :=
  object.isArray = true ∧ object.lengthWritable = false ∧
    ∃ index, key.arrayIndex? = some index ∧ object.arrayLength ≤ index

/-- The length to which a definition under the key raises that of an array, if it does. -/
def raisedLength? (object : Object) (key : Key) : Option Nat :=
  match object.isArray, key.arrayIndex? with
  | true, some index => if object.arrayLength ≤ index then some (index + 1) else none
  | _, _ => none

theorem raisedLength?_ofIndex {index : Nat} (array : object.isArray = true)
    (bound : index ≤ maxArrayIndex) :
    object.raisedLength? (.ofIndex index) =
      if object.arrayLength ≤ index then some (index + 1) else none := by
  rw [raisedLength?, array, Key.arrayIndex?_ofIndex bound]

/-- The object may get the slot that is asked for. -/
theorem isSome_redefined?_iff (unmixed : descriptor.Unmixed) :
    (object.redefined? key descriptor).isSome = true ↔
      (object.own? key = none ∧ object.extensible = true) ∨
        ∃ current, object.own? key = some current ∧
          (current.configurable = true ∨ ¬ current.Forbids descriptor) := by
  rw [redefined?]
  cases slot : object.own? key with
  | none =>
    dsimp only
    cases object.extensible <;> simp
  | some current =>
    have allowed := current.admits_iff unmixed
    dsimp only
    split
    · rename_i admitted
      exact ⟨fun _ => Or.inr ⟨current, rfl, allowed.mp admitted⟩, fun _ => rfl⟩
    · rename_i refused
      refine ⟨fun present => absurd present Bool.false_ne_true, ?_⟩
      rintro (⟨absent, _⟩ | ⟨_, same, forbidsNot⟩)
      · cases absent
      · cases same
        exact absurd (allowed.mpr forbidsNot) refused

/-- A definition writes the slot that the request makes of the one before. -/
theorem redefined?_eq_put_applied (defined : object.redefined? key descriptor = some changed) :
    changed = object.put key (descriptor.applied (object.own? key)) := by
  rcases redefined?_eq_some defined with ⟨absent, _, written⟩ | ⟨current, present, _, written⟩
  · rw [absent]
    exact written
  · rw [present]
    exact written

/-- An allowed definition writes one slot, and for a new element of an array then the length. -/
theorem defined?_eq_some (allowed : object.defined? key descriptor = some changed) :
    (object.redefined? key descriptor).isSome = true ∧ ¬ object.Closes key ∧
      changed = (object.raisedLength? key).elim
        (object.put key (descriptor.applied (object.own? key)))
        (object.put key (descriptor.applied (object.own? key))).withLength := by
  unfold defined? at allowed
  unfold raisedLength?
  split at allowed
  · rename_i index array spelled
    obtain ⟨rfl, _⟩ := Key.arrayIndex?_eq_some.mp spelled
    rw [elementDefined?] at allowed
    split at allowed
    · cases allowed
    · rename_i opened
      obtain ⟨filled, defined, rfl⟩ := Option.map_eq_some_iff.mp allowed
      refine ⟨Option.isSome_iff_exists.mpr ⟨_, defined⟩, ?_, ?_⟩
      · rintro ⟨_, closed, other, same, above⟩
        rw [Option.some.inj (spelled.symm.trans same)] at opened
        exact opened ⟨above, closed⟩
      · rw [redefined?_eq_put_applied defined]
        split <;> rfl
  · rename_i other
    rw [redefined?_eq_put_applied allowed]
    refine ⟨Option.isSome_iff_exists.mpr ⟨_, allowed⟩, ?_, ?_⟩
    · rintro ⟨array, _, index, spelled, _⟩
      exact other index array spelled
    · rfl

theorem isSome_defined?_iff :
    (object.defined? key descriptor).isSome = true ↔
      (object.redefined? key descriptor).isSome = true ∧ ¬ object.Closes key := by
  constructor
  · intro allowed
    obtain ⟨changed, allowed⟩ := Option.isSome_iff_exists.mp allowed
    obtain ⟨redefined, free, _⟩ := defined?_eq_some allowed
    exact ⟨redefined, free⟩
  · rintro ⟨redefined, free⟩
    unfold defined?
    split
    · rename_i index array spelled
      obtain ⟨rfl, _⟩ := Key.arrayIndex?_eq_some.mp spelled
      rw [elementDefined?, if_neg, Option.isSome_map]
      · exact redefined
      · rintro ⟨above, closed⟩
        exact free ⟨array, closed, index, spelled, above⟩
    · exact redefined

/-! ### What a definition leaves behind -/

/-- The object after a definition that was allowed. The slot says what was asked, all other slots
are as they were, and an array reaches up to a new element. A key that was there keeps its place,
and a new one comes last. -/
structure Defines (object : Object) (key : Key) (descriptor : Descriptor) (changed : Object) :
    Prop where
  slot : ∃ slot, changed.own? key = some slot ∧ descriptor.Applies (object.own? key) slot
  others : ∀ other, other ≠ key → (object.isArray = true → other ≠ .length) →
    changed.own? other = object.own? other
  length : object.isArray = true → key ≠ .length → ∀ old writable enumerable configurable,
    object.own? .length = some (.data old writable enumerable configurable) →
    changed.own? .length = some (.data (((object.raisedLength? key).map fun length =>
      Value.number (.ofNat length)).getD old) writable enumerable configurable)
  entries : changed.table.keys =
    if (object.own? key).isSome then object.table.keys else object.table.keys ++ [key]
  stays : (object.own? key).isSome = true → changed.ownKeys = object.ownKeys
  joins : object.own? key = none → changed.ownKeys.filter (· ≠ key) = object.ownKeys ∧
    (key.arrayIndex? = none → changed.ownKeys = object.ownKeys ++ [key])
  prototype : changed.prototype = object.prototype
  extensible : changed.extensible = object.extensible
  nature : object.SameNature changed

/-- Writing the length of an array adds no key. -/
theorem keys_withLength (object : Object) (length : Nat) :
    (object.withLength length).table.keys = object.table.keys := by
  unfold withLength
  split
  · rename_i slot
    rw [keys_put, slot, Option.isSome_some, if_pos rfl]
  · rfl

/-- Objects with the same keys in the table list the same keys. -/
theorem ownKeys_congr (same : changed.table.keys = object.table.keys) :
    changed.ownKeys = object.ownKeys := by
  rw [ownKeys, ownKeys, indices, indices, same]

/-- A key that is no index and comes last in the table is listed last. -/
theorem ownKeys_concat (keys : changed.table.keys = object.table.keys ++ [key])
    (noIndex : key.arrayIndex? = none) : changed.ownKeys = object.ownKeys ++ [key] := by
  rw [ownKeys, ownKeys, indices, indices, keys, List.filterMap_append, List.filter_append,
    List.filterMap_cons_none noIndex, List.filterMap_nil, List.append_nil, List.filter_singleton,
    noIndex, Option.isNone_none, cond_true, List.append_assoc]

/-- The raise of a length shows in no slot but that of the length. -/
theorem own?_raised {other : Key} (filled : Object)
    (different : object.isArray = true → other ≠ .length) :
    ((object.raisedLength? key).elim filled filled.withLength).own? other = filled.own? other := by
  unfold raisedLength?
  split
  · rename_i index array spelled
    split
    · exact withLength_own?_of_ne (different array) filled (index + 1)
    · rfl
  · rfl

/-- An allowed definition leaves the slot that the request makes of the one before. -/
theorem own?_of_defined? (noLength : object.isArray = true → key ≠ .length)
    (allowed : object.defined? key descriptor = some changed) :
    changed.own? key = some (descriptor.applied (object.own? key)) := by
  rw [(defined?_eq_some allowed).2.2, own?_raised _ noLength, own?_put_self]

/-- An allowed definition leaves the object as a definition does. -/
theorem defines_of_defined? (unmixed : descriptor.Unmixed)
    (noLength : object.isArray = true → key ≠ .length)
    (allowed : object.defined? key descriptor = some changed) :
    object.Defines key descriptor changed := by
  have written := (defined?_eq_some allowed).2.2
  generalize filledObject :
    object.put key (descriptor.applied (object.own? key)) = filled at written
  have keys : changed.table.keys =
      if (object.own? key).isSome then object.table.keys else object.table.keys ++ [key] := by
    rw [written, ← keys_put object key (descriptor.applied (object.own? key)), filledObject]
    cases object.raisedLength? key with
    | none => rfl
    | some length => exact keys_withLength filled length
  have frame : changed.prototype = object.prototype ∧ changed.extensible = object.extensible ∧
      object.SameNature changed := by
    rw [written, ← filledObject]
    cases object.raisedLength? key with
    | none => exact ⟨rfl, rfl, rfl, rfl⟩
    | some length =>
      rw [Option.elim_some, withLength_frame]
      exact ⟨rfl, rfl, rfl, rfl⟩
  refine ⟨⟨_, own?_of_defined? noLength allowed, Descriptor.applies_applied unmixed _⟩, ?_, ?_,
    keys, ?_, ?_, frame.1, frame.2.1, frame.2.2⟩
  · intro other different noLength
    rw [written, own?_raised _ noLength, ← filledObject, own?_put_of_ne _ different]
  · intro array different old writable enumerable configurable length
    have filledLength : filled.own? .length =
        some (.data old writable enumerable configurable) := by
      rw [← filledObject, own?_put_of_ne _ different.symm, length]
    rw [written]
    cases object.raisedLength? key with
    | none => exact filledLength
    | some length =>
      rw [Option.elim_some, withLength_of_own? filledLength, own?_put_self]
      rfl
  · intro present
    rw [if_pos present] at keys
    exact ownKeys_congr keys
  · intro absent
    rw [absent, if_neg (by decide)] at keys
    refine ⟨(ownKeys_of_keys_filter ?_).symm, ownKeys_concat keys⟩
    have fresh : ∀ other ∈ object.table.keys, other ≠ key := by
      rintro _ member rfl
      rw [mem_table_keys, absent] at member
      cases member
    rw [keys, List.filter_append, List.filter_singleton, List.filter_eq_self.mpr]
    · simp
    · simpa using fresh

/-! ### Definitions of a length -/

/-- The length is below that of the array, and an element at or above it may not be deleted. -/
structure Obstructed (object : Object) (length : Nat) : Prop where
  below : length < object.arrayLength
  pinned : ∃ index, length ≤ index ∧ object.Pinned index

/-- A length that is met stands in the slot as it was asked for, if it is not to be locked. -/
theorem own?_length_of_met {length : Nat} (noLock : descriptor.writable ≠ some false)
    (met : (object.lengthDefined length descriptor).2 = true) :
    (object.lengthDefined length descriptor).1.own? .length =
      some (Descriptor.applied { descriptor with value := some (.number (.ofNat length)) }
        (object.own? .length)) := by
  have ends := object.lengthEnds length descriptor
  generalize object.lengthDefined length descriptor = result at ends met ⊢
  obtain ⟨changed, met'⟩ := result
  cases ends with
  | refused => cases met
  | written above allowed => rw [redefined?_eq_put_applied allowed, own?_put_self]
  | emptied writable below allowed deleted =>
    obtain ⟨value, enumerable, configurable, slot⟩ := lengthWritable_iff.mp writable
    have stays : descriptor.writable.getD true = true := by
      cases asked : descriptor.writable with
      | none => rfl
      | some flag =>
        cases flag with
        | true => rfl
        | false => exact absurd asked noLock
    rename_i shorter emptied
    rw [beq_eq_false_iff_ne.mpr noLock]
    show emptied.own? .length = _
    rw [deleted.own?_length, redefined?_eq_put_applied allowed, own?_put_self, slot]
    simp only [Descriptor.applied, Property.revised, Option.getD_some, stays]
    rfl
  | stuck => cases met

end Object

end EcmaCore
