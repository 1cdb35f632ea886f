/-
This file is about the promises that an object makes to whoever looks at it. An object
that is not extensible promises to get no further keys, and a slot that is not
configurable promises to stay, as the kind of slot it is and as enumerable as it is. A
pair of accessors also promises its two halves, and a read-only slot its value.

Every single step of an object honours all promises the object has made. Where the
length of an array is written without a question, it is writable.
-/

import EcmaCore.Proofs.Object.Creation
import EcmaCore.Proofs.Object.Steps

namespace EcmaCore

/-- The descriptor does not mix accessors with a value or its writability. -/
def Descriptor.Unmixed (descriptor : Descriptor) : Prop :=
  descriptor.isAccessor = true → descriptor.isData = false

/-! ### Slots -/

/-- The second slot keeps what the first, which is not configurable, has promised. An accessor that
is absent counts as undefined. -/
inductive Property.Kept : Property → Property → Prop
  | data {value later : Value} {writable laterWritable enumerable : Bool}
      (fixed : writable = false → laterWritable = false ∧ later = value) :
      Kept (.data value writable enumerable false) (.data later laterWritable enumerable false)
  | accessor {getter setter laterGetter laterSetter : Option Value} {enumerable : Bool}
      (sameGetter : laterGetter.getD .undefined = getter.getD .undefined)
      (sameSetter : laterSetter.getD .undefined = setter.getD .undefined) :
      Kept (.accessor getter setter enumerable false)
        (.accessor laterGetter laterSetter enumerable false)

namespace Property

theorem Kept.refl {property : Property} (fixed : property.configurable = false) :
    property.Kept property := by
  cases property with
  | data value writable enumerable configurable =>
    cases fixed
    exact .data fun readOnly => ⟨readOnly, rfl⟩
  | accessor getter setter enumerable configurable =>
    cases fixed
    exact .accessor rfl rfl

theorem Kept.configurable {first second : Property} (kept : first.Kept second) :
    second.configurable = false := by
  cases kept <;> rfl

theorem Kept.trans {first second third : Property} (early : first.Kept second)
    (late : second.Kept third) : first.Kept third := by
  cases early with
  | data fixed =>
    cases late with
    | data stillFixed =>
      refine .data fun readOnly => ?_
      obtain ⟨stillReadOnly, same⟩ := fixed readOnly
      obtain ⟨readOnlyToo, sameToo⟩ := stillFixed stillReadOnly
      exact ⟨readOnlyToo, sameToo.trans same⟩
  | accessor sameGetter sameSetter =>
    cases late with
    | accessor stillGetter stillSetter =>
      exact .accessor (stillGetter.trans sameGetter) (stillSetter.trans sameSetter)

/-- A field that names the half a slot has, or none, leaves that half as it is. -/
theorem getD_half {field half : Option Value} (keeps : keepsHalf field half = true) :
    (if field.isSome then Descriptor.half field else half).getD .undefined =
      half.getD .undefined := by
  cases field with
  | none => rfl
  | some asked =>
    have same : asked = half.getD .undefined := by
      simpa [keepsHalf, Value.same] using keeps
    rw [if_pos Option.isSome_some, ← same, Descriptor.half, Option.filter_some]
    split
    · rfl
    · rename_i undefined
      rw [bne_iff_ne, Decidable.not_not] at undefined
      exact undefined.symm

theorem getD_of_all {field : Option Bool} {flag : Bool}
    (agrees : (field.all (· == flag)) = true) : field.getD flag = flag := by
  cases field with
  | none => rfl
  | some asked => simpa using agrees

/-- What a fixed slot says about a request that it admits. -/
theorem admits_of_fixed {current : Property} {descriptor : Descriptor}
    (fixed : current.configurable = false) (admitted : current.admits descriptor = true) :
    descriptor.configurable.getD false = false ∧
      descriptor.enumerable.getD current.enumerable = current.enumerable ∧
      (descriptor.isGeneric = true ∨ descriptor.isAccessor = current.isAccessor) ∧
      current.keepsContent descriptor = true := by
  rw [admits, fixed, Bool.false_or, Bool.and_eq_true, Bool.and_eq_true, Bool.and_eq_true,
    Bool.or_eq_true] at admitted
  obtain ⟨⟨⟨notConfigurable, sameEnumerable⟩, sameKind⟩, content⟩ := admitted
  refine ⟨?_, getD_of_all sameEnumerable, sameKind.imp_right beq_iff_eq.mp, content⟩
  rcases configurable : descriptor.configurable with _ | _ | _
  · rfl
  · rfl
  · rw [configurable] at notConfigurable
    cases notConfigurable

/-- A slot that is not configurable keeps its promises through every change that it admits. -/
theorem kept_revised {current : Property} {descriptor : Descriptor}
    (fixed : current.configurable = false) (admitted : current.admits descriptor = true)
    (unmixed : descriptor.Unmixed) : current.Kept (current.revised descriptor) := by
  obtain ⟨notConfigurable, sameEnumerable, sameKind, content⟩ := admits_of_fixed fixed admitted
  cases current with
  | data value writable enumerable configurable =>
    cases fixed
    have noAccessor : descriptor.isAccessor = false := by
      rcases sameKind with generic | same
      · rw [Descriptor.isGeneric, Bool.and_eq_true, Bool.not_eq_true'] at generic
        exact generic.1
      · exact same
    simp only [Property.enumerable] at sameEnumerable
    simp only [revised, noAccessor, Property.enumerable, Property.configurable, sameEnumerable,
      notConfigurable, Bool.false_eq_true, if_false]
    refine .data fun readOnly => ?_
    subst readOnly
    rw [keepsContent, Bool.and_eq_true] at content
    constructor
    · rcases writable : descriptor.writable with _ | _ | _
      · rfl
      · rfl
      · rw [writable] at content
        cases content.1
    · cases asked : descriptor.value with
      | none => rfl
      | some later =>
        rw [asked] at content
        simpa [Value.same] using content.2
  | accessor getter setter enumerable configurable =>
    cases fixed
    have noData : descriptor.isData = false := by
      rcases sameKind with generic | same
      · rw [Descriptor.isGeneric, Bool.and_eq_true, Bool.not_eq_true', Bool.not_eq_true'] at generic
        exact generic.2
      · exact unmixed same
    rw [keepsContent, Bool.and_eq_true] at content
    simp only [Property.enumerable] at sameEnumerable
    simp only [revised, noData, Property.enumerable, Property.configurable, sameEnumerable,
      notConfigurable, Bool.false_eq_true, if_false]
    exact .accessor (getD_half content.1) (getD_half content.2)

end Property

/-! ### Objects -/

namespace Object

/-- The second object keeps every promise of the first. -/
structure Honours (before after : Object) : Prop where
  extensible : before.extensible = false → after.extensible = false
  keys : before.extensible = false →
    ∀ key, (after.own? key).isSome = true → (before.own? key).isSome = true
  slots : ∀ key property, before.own? key = some property → property.configurable = false →
    ∃ later, after.own? key = some later ∧ property.Kept later

variable {object changed : Object} {key : Key} {property : Property} {descriptor : Descriptor}

theorem Honours.refl (object : Object) : object.Honours object where
  extensible closed := closed
  keys _ _ present := present
  slots _ property slot fixed := ⟨property, slot, .refl fixed⟩

theorem Honours.trans {first second third : Object} (early : first.Honours second)
    (late : second.Honours third) : first.Honours third where
  extensible closed := late.extensible (early.extensible closed)
  keys closed key present := early.keys closed key (late.keys (early.extensible closed) key present)
  slots key property slot fixed := by
    obtain ⟨middle, middleSlot, kept⟩ := early.slots key property slot fixed
    obtain ⟨later, laterSlot, keptToo⟩ := late.slots key middle middleSlot kept.configurable
    exact ⟨later, laterSlot, kept.trans keptToo⟩

/-- Nothing was promised about an object without properties that is extensible. -/
theorem honours_of_empty (empty : ∀ key, object.own? key = none)
    (extensible : object.extensible = true)
    (after : Object) : object.Honours after where
  extensible closed := by
    rw [extensible] at closed
    cases closed
  keys closed := by
    rw [extensible] at closed
    cases closed
  slots key property slot := by
    rw [empty] at slot
    cases slot

/-! ### Single steps -/

/-- Writing a slot honours the promises if a new key was allowed and an old slot agrees. -/
theorem honours_put (new : object.own? key = none → object.extensible = true)
    (old : ∀ current, object.own? key = some current → current.configurable = false →
      current.Kept property) : object.Honours (object.put key property) where
  extensible closed := closed
  keys closed other present := by
    rw [own?_put] at present
    split at present
    · rename_i same
      subst same
      cases slot : object.own? other with
      | none =>
        rw [new slot] at closed
        cases closed
      | some current => rfl
    · exact present
  slots other current slot fixed := by
    by_cases same : other = key
    · subst same
      exact ⟨property, own?_put_self _ _ _, old current slot fixed⟩
    · exact ⟨current, by rw [own?_put_of_ne _ same, slot], .refl fixed⟩

theorem honours_redefined? (unmixed : descriptor.Unmixed)
    (allowed : object.redefined? key descriptor = some changed) : object.Honours changed := by
  rcases redefined?_eq_some allowed with ⟨absent, extensible, rfl⟩ | ⟨current, slot, admitted, rfl⟩
  · refine honours_put (fun _ => extensible) fun other otherSlot _ => ?_
    rw [absent] at otherSlot
    cases otherSlot
  · refine honours_put (fun absent => ?_) fun other otherSlot fixed => ?_
    · rw [slot] at absent
      cases absent
    · rw [slot] at otherSlot
      cases otherSlot
      exact Property.kept_revised fixed admitted unmixed

theorem honours_erased (slot : object.own? key = some property)
    (configurable : property.configurable = true) : object.Honours (object.erased key) where
  extensible closed := closed
  keys closed other present := by
    by_cases same : other = key
    · subst same
      rw [slot]
      rfl
    · rwa [own?_erased_of_ne _ same] at present
  slots other current otherSlot fixed := by
    have different : other ≠ key := by
      rintro rfl
      rw [slot] at otherSlot
      cases otherSlot
      rw [configurable] at fixed
      cases fixed
    exact ⟨current, by rw [own?_erased_of_ne _ different, otherSlot], .refl fixed⟩

theorem honours_deleted? (allowed : object.deleted? key = some changed) :
    object.Honours changed := by
  rcases deleted?_eq_some allowed with ⟨_, rfl⟩ | ⟨property, slot, configurable, rfl⟩
  · exact .refl changed
  · exact honours_erased slot configurable

/-! ### The length of an array -/

/-- Writing the length in place honours the promises while the slot, if it holds a value, is
writable. -/
theorem honours_withLength
    (free : ∀ value writable enumerable configurable,
      object.own? .length = some (.data value writable enumerable configurable) → writable = true)
    (length : Nat) : object.Honours (object.withLength length) := by
  unfold withLength
  split
  · rename_i value writable enumerable configurable slot
    refine honours_put (fun absent => ?_) fun current currentSlot fixed => ?_
    · rw [slot] at absent
      cases absent
    · rw [slot] at currentSlot
      cases currentSlot
      cases fixed
      refine .data fun readOnly => ?_
      rw [free value writable enumerable false slot] at readOnly
      cases readOnly
  · exact .refl object

theorem honours_elementDefined? {index : Nat} (unmixed : descriptor.Unmixed)
    (allowed : object.elementDefined? index descriptor = some changed) :
    object.Honours changed := by
  rw [elementDefined?] at allowed
  split at allowed
  · cases allowed
  · rename_i growth
    obtain ⟨filled, defined, rfl⟩ := Option.map_eq_some_iff.mp allowed
    have first : object.Honours filled := honours_redefined? unmixed defined
    split
    · rename_i above
      refine first.trans (honours_withLength ?_ (index + 1))
      intro value writable enumerable configurable slot
      obtain ⟨property, rfl⟩ := redefined?_eq_put defined
      rw [own?_put_of_ne _ (Key.ofIndex_ne_length index).symm] at slot
      have lengthWritable : object.lengthWritable = true := by
        rw [← Bool.not_eq_false]
        exact fun readOnly => growth ⟨above, readOnly⟩
      obtain ⟨_, _, _, writableSlot⟩ := lengthWritable_iff.mp lengthWritable
      rw [slot] at writableSlot
      cases writableSlot
      rfl
    · exact first

theorem Deletions.honours {indices : List Nat} {last : Object} {stop : Option Nat}
    (deleted : Deletions object indices last stop) : object.Honours last := by
  induction deleted with
  | all object => exact .refl object
  | stuck rest refused => exact .refl _
  | more allowed others inductionHypothesis =>
    exact (honours_deleted? allowed).trans inductionHypothesis

/-- Deleting elements does nothing to the length. -/
theorem Deletions.own?_length {indices : List Nat} {last : Object} {stop : Option Nat}
    (deleted : Deletions object indices last stop) : last.own? .length = object.own? .length := by
  induction deleted with
  | all object => rfl
  | stuck rest refused => rfl
  | more allowed others inductionHypothesis =>
    rw [inductionHypothesis]
    rcases deleted?_eq_some allowed with ⟨_, rfl⟩ | ⟨_, _, _, rfl⟩
    · rfl
    · exact own?_erased_of_ne _ (Key.ofIndex_ne_length _).symm

/-- A definition that asks for a writable value leaves one, if it leaves a value at all. -/
theorem writable_of_redefined? (asked : descriptor.writable = some true)
    (allowed : object.redefined? key descriptor = some changed) {value : Value}
    {writable enumerable configurable : Bool}
    (slot : changed.own? key = some (.data value writable enumerable configurable)) :
    writable = true := by
  rcases redefined?_eq_some allowed with ⟨_, _, rfl⟩ | ⟨current, _, _, rfl⟩
  · rw [own?_put_self, Descriptor.toProperty] at slot
    split at slot
    · cases slot
    · cases slot
      rw [asked]
      rfl
  · rw [own?_put_self] at slot
    cases current with
    | data =>
      rw [Property.revised] at slot
      split at slot
      · cases slot
      · cases slot
        rw [asked]
        rfl
    | accessor =>
      rw [Property.revised] at slot
      split at slot
      · cases slot
        rw [asked]
        rfl
      · cases slot

theorem LengthSteps.honours {length : Nat} (given : descriptor.value.isSome = true)
    (unmixed : descriptor.Unmixed) (steps : LengthSteps object length descriptor changed) :
    object.Honours changed := by
  have noAccessor : descriptor.isAccessor = false := by
    rw [← Bool.not_eq_true]
    intro accessor
    have noData := unmixed accessor
    rw [Descriptor.isData, given] at noData
    cases noData
  have unmixedToo (value : Option Value) (writable : Option Bool) :
      Descriptor.Unmixed { descriptor with value, writable } := by
    intro accessor
    have mixed : descriptor.isAccessor = true := accessor
    rw [noAccessor] at mixed
    cases mixed
  induction steps with
  | refused => exact .refl object
  | written above allowed => exact honours_redefined? (unmixedToo _ _) allowed
  | emptied writable below allowed deleted =>
    exact (honours_redefined? (unmixedToo _ _) allowed).trans deleted.honours
  | stuck writable below allowed deleted =>
    refine ((honours_redefined? (unmixedToo _ _) allowed).trans deleted.honours).trans
      (honours_withLength ?_ _)
    intro value writable enumerable configurable slot
    rw [deleted.own?_length] at slot
    exact writable_of_redefined? rfl allowed slot
  | locked before inductionHypothesis =>
    refine inductionHypothesis.trans ?_
    unfold lengthLocked
    cases allowed : Object.redefined? _ .length { writable := some false } with
    | none => exact .refl _
    | some locked => exact honours_redefined? (fun accessor => by cases accessor) allowed

/-- Every step of an object that is not asked for a mixture honours its promises. -/
theorem Step.honours (step : object.Step Descriptor.Unmixed changed) : object.Honours changed := by
  cases step with
  | defined unmixed noElement noLength allowed => exact honours_redefined? unmixed allowed
  | element unmixed bound allowed => exact honours_elementDefined? unmixed allowed
  | length unmixed given bound => exact (lengthSteps object _ _).honours given unmixed
  | deleted allowed => exact honours_deleted? allowed

end Object

end EcmaCore
