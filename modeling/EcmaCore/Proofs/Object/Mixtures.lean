/-
This file is about requests that mix an accessor with a value or its writability. They are
not screened out before an object is asked to define a property. Whether a slot admits them is
decided by the accessor alone, and what the slot becomes by the value.

A slot that holds a value and is not configurable refuses every mixture. A pair of accessors
that is not configurable gives way to a mixture that names its own halves, and becomes a value.
All other promises of an object are honoured, whatever it is asked for.
-/

import EcmaCore.Proofs.Object.Requests

namespace EcmaCore

/-! ### Slots -/

/-- The request mixes an accessor with a value or its writability. -/
def Descriptor.Mixed (descriptor : Descriptor) : Prop :=
  descriptor.isAccessor = true ∧ descriptor.isData = true

/-- The request without a value and its writability. -/
def Descriptor.withoutData (descriptor : Descriptor) : Descriptor :=
  { descriptor with value := none, writable := none }

/-- The slot is a pair of accessors that is not configurable, and the request is a mixture in which
the value and its writability are all that the slot forbids. -/
structure Property.YieldsTo (current : Property) (descriptor : Descriptor) : Prop where
  pair : current.isAccessor = true
  fixed : current.configurable = false
  mixed : descriptor.Mixed
  allowed : ¬ current.Forbids descriptor.withoutData

namespace Descriptor

variable {descriptor : Descriptor}

theorem unmixed_of_not_mixed (pure : ¬ descriptor.Mixed) : descriptor.Unmixed :=
  fun accessor => Bool.eq_false_iff.mpr fun data => pure ⟨accessor, data⟩

theorem unmixed_withoutData (descriptor : Descriptor) : descriptor.withoutData.Unmixed :=
  fun _ => rfl

end Descriptor

namespace Property

variable {current : Property} {descriptor : Descriptor}

/-- A pair of accessors looks at nothing but the accessors of a mixture. -/
theorem admits_withoutData (pair : current.isAccessor = true) (mixed : descriptor.Mixed) :
    current.admits descriptor.withoutData = current.admits descriptor := by
  have named : descriptor.withoutData.isAccessor = true := mixed.1
  cases current with
  | data => cases pair
  | accessor getter setter enumerable configurable =>
    rw [admits, admits, Descriptor.isGeneric, Descriptor.isGeneric, mixed.1, named]
    rfl

theorem YieldsTo.admits (yields : current.YieldsTo descriptor) :
    current.admits descriptor = true := by
  rw [← admits_withoutData yields.pair yields.mixed,
    admits_iff (descriptor.unmixed_withoutData)]
  exact Or.inr yields.allowed

/-- A mixture that a fixed pair of accessors admits makes it give way. -/
theorem yieldsTo_of_admits (pair : current.isAccessor = true) (fixed : current.configurable = false)
    (mixed : descriptor.Mixed) (admitted : current.admits descriptor = true) :
    current.YieldsTo descriptor := by
  rw [← admits_withoutData pair mixed, admits_iff (descriptor.unmixed_withoutData)] at admitted
  exact ⟨pair, fixed, mixed, admitted.resolve_left (by rw [fixed]; exact Bool.false_ne_true)⟩

/-- The slot that gave way holds a value, and it is still not configurable. -/
theorem YieldsTo.revised (yields : current.YieldsTo descriptor) :
    ∃ value writable enumerable,
      current.revised descriptor = .data value writable enumerable false := by
  have notConfigurable := (admits_of_fixed yields.fixed yields.admits).1
  obtain ⟨pair, fixed, mixed, -⟩ := yields
  cases current with
  | data => cases pair
  | accessor getter setter enumerable configurable =>
    cases fixed
    rw [Property.revised, if_pos mixed.2, Property.configurable, notConfigurable]
    exact ⟨_, _, _, rfl⟩

theorem Kept.isAccessor {later : Property} (kept : current.Kept later) :
    later.isAccessor = current.isAccessor := by
  cases kept <;> rfl

/-- A fixed slot that does not give way keeps its promises, whatever is asked for. -/
theorem kept_of_not_yieldsTo (fixed : current.configurable = false)
    (admitted : current.admits descriptor = true) (stays : ¬ current.YieldsTo descriptor) :
    current.Kept (current.revised descriptor) := by
  refine kept_revised fixed admitted (Descriptor.unmixed_of_not_mixed fun mixed => ?_)
  cases kind : current.isAccessor with
  | true => exact stays (yieldsTo_of_admits kind fixed mixed admitted)
  | false =>
    obtain ⟨-, -, generic | same, -⟩ := admits_of_fixed fixed admitted
    · rw [Descriptor.isGeneric, mixed.1] at generic
      cases generic
    · rw [mixed.1, kind] at same
      cases same

/-- Which value is asked for, and whether it is to be writable, does not matter. -/
theorem YieldsTo.of_data {value : Option Value} {writable : Option Bool}
    (given : descriptor.value.isSome = true)
    (yields : current.YieldsTo { descriptor with value, writable }) :
    current.YieldsTo descriptor where
  pair := yields.pair
  fixed := yields.fixed
  mixed := ⟨yields.mixed.1, by rw [Descriptor.isData, given, Bool.true_or]⟩
  allowed := yields.allowed

theorem YieldsTo.to_data (value : Value) (writable : Option Bool)
    (yields : current.YieldsTo descriptor) :
    current.YieldsTo { descriptor with value := some value, writable } where
  pair := yields.pair
  fixed := yields.fixed
  mixed := ⟨yields.mixed.1, rfl⟩
  allowed := yields.allowed

end Property

/-! ### Objects -/

namespace Object

/-- The second object keeps what the fixed slots of the first have promised, but for a slot under
the key that gives way to the request. -/
def Spares (before : Object) (key : Key) (descriptor : Descriptor) (after : Object) : Prop :=
  ∀ asked current, before.own? asked = some current → current.configurable = false →
    ¬ (asked = key ∧ current.YieldsTo descriptor) →
    ∃ later, after.own? asked = some later ∧ current.Kept later

variable {object changed : Object} {key : Key} {property : Property} {descriptor : Descriptor}

theorem Honours.spares (honours : object.Honours changed) : object.Spares key descriptor changed :=
  fun asked current slot fixed _ => honours.slots asked current slot fixed

theorem Spares.trans {middle : Object} (early : object.Spares key descriptor middle)
    (late : middle.Honours changed) : object.Spares key descriptor changed := by
  intro asked current slot fixed stays
  obtain ⟨between, betweenSlot, kept⟩ := early asked current slot fixed stays
  obtain ⟨later, laterSlot, keptToo⟩ := late.slots asked between betweenSlot kept.configurable
  exact ⟨later, laterSlot, kept.trans keptToo⟩

/-- A definition that was allowed spares all slots but one that gives way. -/
theorem spares_redefined? (allowed : object.redefined? key descriptor = some changed) :
    object.Spares key descriptor changed := by
  intro asked current slot fixed stays
  by_cases same : asked = key
  · subst same
    rcases redefined?_eq_some allowed with ⟨absent, _⟩ | ⟨found, foundSlot, admitted, rfl⟩
    · rw [absent] at slot
      cases slot
    · rw [slot] at foundSlot
      cases foundSlot
      exact ⟨_, own?_put_self _ _ _,
        Property.kept_of_not_yieldsTo fixed admitted fun yields => stays ⟨rfl, yields⟩⟩
  · obtain ⟨property, rfl⟩ := redefined?_eq_put allowed
    exact ⟨current, by rw [own?_put_of_ne _ same, slot], .refl fixed⟩

/-- A slot that gives way is written as a value. -/
theorem redefined?_of_yieldsTo (slot : object.own? key = some property)
    (yields : property.YieldsTo descriptor) :
    object.redefined? key descriptor = some (object.put key (property.revised descriptor)) := by
  rw [redefined?, slot]
  exact if_pos yields.admits

/-- The raise of a length by a new element honours all promises, as the length is then writable. -/
theorem honours_raised {filled : Object} (opened : ¬ object.Closes key)
    (sameLength : key ≠ .length → filled.own? .length = object.own? .length) :
    filled.Honours ((object.raisedLength? key).elim filled filled.withLength) := by
  unfold raisedLength?
  split
  · rename_i index array spelled
    split
    · rename_i above
      refine honours_withLength ?_ (index + 1)
      intro value writable enumerable configurable slot
      have different : key ≠ .length := by
        rintro rfl
        rw [Key.arrayIndex?_length] at spelled
        cases spelled
      have lengthWritable : object.lengthWritable = true := by
        rw [← Bool.not_eq_false]
        exact fun readOnly => opened ⟨array, readOnly, index, spelled, above⟩
      obtain ⟨_, _, _, writableSlot⟩ := lengthWritable_iff.mp lengthWritable
      rw [sameLength different, writableSlot] at slot
      cases slot
      rfl
    · exact .refl filled
  · exact .refl filled

theorem honours_put_raised (property : Property) (opened : ¬ object.Closes key) :
    (object.put key property).Honours
      ((object.raisedLength? key).elim (object.put key property)
        (object.put key property).withLength) :=
  honours_raised opened fun different => own?_put_of_ne _ different.symm property

theorem spares_defined? (allowed : object.defined? key descriptor = some changed) :
    object.Spares key descriptor changed := by
  obtain ⟨redefined, opened, rfl⟩ := defined?_eq_some allowed
  obtain ⟨filled, redefined⟩ := Option.isSome_iff_exists.mp redefined
  have spared := spares_redefined? redefined
  rw [redefined?_eq_put_applied redefined] at spared
  exact spared.trans (honours_put_raised _ opened)

/-- A slot that gives way holds a value once the definition was allowed. -/
theorem isAccessor_of_defined? (allowed : object.defined? key descriptor = some changed)
    (slot : object.own? key = some property) (yields : property.YieldsTo descriptor) :
    ∃ later, changed.own? key = some later ∧ later.isAccessor = false := by
  obtain ⟨-, opened, rfl⟩ := defined?_eq_some allowed
  obtain ⟨value, writable, enumerable, revised⟩ := yields.revised
  rw [slot, Descriptor.applied, revised]
  have honours := honours_put_raised (.data value writable enumerable false) opened
  obtain ⟨later, laterSlot, kept⟩ := honours.slots key _ (own?_put_self object key _) rfl
  exact ⟨later, laterSlot, kept.isAccessor⟩

/-! ### The length of an array -/

theorem honours_lengthLocked (object : Object) : object.Honours object.lengthLocked := by
  unfold lengthLocked
  cases allowed : object.redefined? .length { writable := some false } with
  | none => exact .refl object
  | some locked => exact honours_redefined? (fun accessor => by cases accessor) allowed

/-- The definition of a length spares all slots but a length that gives way. -/
theorem LengthSteps.spares {length : Nat} (given : descriptor.value.isSome = true)
    (steps : LengthSteps object length descriptor changed) :
    object.Spares .length descriptor changed := by
  have sparesFirst {value : Option Value} {writable : Option Bool} {first : Object}
      (allowed : object.redefined? .length { descriptor with value, writable } = some first) :
      object.Spares .length descriptor first :=
    fun asked current slot fixed stays => spares_redefined? allowed asked current slot fixed
      fun yields => stays ⟨yields.1, yields.2.of_data given⟩
  induction steps with
  | refused => exact (Honours.refl object).spares
  | written above allowed => exact sparesFirst allowed
  | emptied writable below allowed deleted => exact (sparesFirst allowed).trans deleted.honours
  | stuck writable below allowed deleted =>
    refine ((sparesFirst allowed).trans deleted.honours).trans (honours_withLength ?_ _)
    intro value writable enumerable configurable slot
    rw [deleted.own?_length] at slot
    exact writable_of_redefined? rfl allowed slot
  | locked before inductionHypothesis =>
    exact inductionHypothesis.trans (honours_lengthLocked _)

/-- A length that is a pair of accessors counts as zero. -/
theorem arrayLength_of_isAccessor (slot : object.own? .length = some property)
    (pair : property.isAccessor = true) : object.arrayLength = 0 := by
  cases property with
  | data => cases pair
  | accessor => rw [arrayLength, slot]

/-- A length that gives way is written as a value, and no element is in its way. -/
theorem lengthDefined_of_yieldsTo (slot : object.own? .length = some property)
    (yields : property.YieldsTo descriptor) (length : Nat) :
    (object.lengthDefined length descriptor).2 = true ∧
      ∃ later, (object.lengthDefined length descriptor).1.own? .length = some later ∧
        later.isAccessor = false := by
  have request := yields.to_data (.number (.ofNat length)) descriptor.writable
  obtain ⟨value, writable, enumerable, revised⟩ := request.revised
  rw [lengthDefined, arrayLength_of_isAccessor slot yields.pair]
  simp only [Nat.zero_le, if_true, redefined?_of_yieldsTo slot request]
  exact ⟨trivial, _, own?_put_self _ _ _, by rw [revised]; rfl⟩

end Object

end EcmaCore
