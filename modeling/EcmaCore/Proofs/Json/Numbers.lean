/-
This file says for which numbers JSON output and string conversion have the same text. Safe
integers are written by their digits on one side, and by the layout of their shortest decimal
on the other, which comes to the same, since that decimal is the integer. For every other number
the two layouts are compared. The text of a numeral determines its magnitude, so they write the
same text only if both rules for ties find the same decimal, and then only where both leave
the exponent out or both write it, and no empty fraction is added.

So the texts differ below `10 ^ -5` down to `10 ^ -6`, for integers beyond the safe ones up to
`10 ^ 21`, and for a few numbers that are halfway between their two shortest decimals.
-/

import EcmaCore.Engine.Call
import EcmaCore.Proofs.Json.Serializing
import EcmaCore.Proofs.Json.Writing
import EcmaCore.Proofs.Number.Shortest

namespace EcmaCore

/-! ### Two layouts of one decimal -/

/-- The place of the point, counted from before the first digit. -/
def Decimal.point (value : Decimal) : Int :=
  (Nat.toDigits 10 value.coefficient).length + value.exponent

/-- The layouts of string conversion and of JSON output write the decimal in the same way: both with
an exponent, or both without one and with digits after the point. -/
def Decimal.WrittenAlike (value : Decimal) : Prop :=
  value.point ≤ -6 ∨ (-5 < value.point ∧ value.point ≤ 16 ∧ value.exponent < 0) ∨ 21 < value.point

namespace Layout

variable {digits : List Char} {point : Int}

theorem decimal_of_within {layout : Layout} {value : Decimal}
    (within : layout.least < value.point ∧ value.point ≤ layout.most) :
    layout.decimal value =
      layout.positional (Nat.toDigits 10 value.coefficient) value.point :=
  if_pos within

theorem decimal_of_beyond {layout : Layout} {value : Decimal}
    (beyond : ¬ (layout.least < value.point ∧ value.point ≤ layout.most)) :
    layout.decimal value = exponential (Nat.toDigits 10 value.coefficient) value.point :=
  if_neg beyond

theorem mem_exponential (digits : List Char) (point : Int) : 'e' ∈ exponential digits point := by
  simp [exponential]

theorem not_mem_positional (layout : Layout) (clean : 'e' ∉ digits) (point : Int) :
    'e' ∉ layout.positional digits point := by
  unfold positional
  split_ifs
  · simp [clean]
  · simp [clean]
  · simp [clean]
  · intro member
    rcases List.mem_append.mp member with front | back
    · exact clean (List.mem_of_mem_take front)
    · exact clean (List.mem_of_mem_drop ((List.mem_cons.mp back).resolve_left (by decide)))

/-- A text with an exponent is told from one without. -/
theorem positional_ne_exponential (layout : Layout) (coefficient : Nat) (point another : Int) :
    layout.positional (Nat.toDigits 10 coefficient) point ≠
      exponential (Nat.toDigits 10 coefficient) another := by
  intro same
  have clean : 'e' ∉ Nat.toDigits 10 coefficient := fun member =>
    absurd (Nat.isDigit_of_mem_toDigits (by decide) le_rfl member) (by decide)
  exact layout.not_mem_positional clean point (same ▸ mem_exponential _ another)

/-- Without an exponent, two layouts differ where one of them writes an empty fraction. -/
theorem positional_eq_iff {first second : Layout} (without : first.emptyFraction = false)
    (withFraction : second.emptyFraction = true) :
    first.positional digits point = second.positional digits point ↔
      point ≤ 0 ∨ point < digits.length := by
  rw [positional, positional]
  by_cases low : point ≤ 0
  · rw [if_pos low, if_pos low]
    exact iff_of_true rfl (Or.inl low)
  rw [if_neg low, if_neg low]
  by_cases high : digits.length ≤ point.toNat
  · rw [if_pos high, if_pos high, without, withFraction]
    refine iff_of_false (fun same => ?_) (by omega)
    have lengths := congrArg List.length same
    simp at lengths
  · rw [if_neg high, if_neg high]
    exact iff_of_true rfl (Or.inr (by omega))

theorem script_decimal_eq_json_decimal_iff (value : Decimal) :
    script.decimal value = json.decimal value ↔ value.WrittenAlike := by
  have some : 0 < (Nat.toDigits 10 value.coefficient).length := Nat.length_toDigits_pos
  have place : value.point = (Nat.toDigits 10 value.coefficient).length + value.exponent := rfl
  have bounds : script.least = -6 ∧ script.most = 21 ∧ json.least = -5 ∧ json.most = 16 :=
    ⟨rfl, rfl, rfl, rfl⟩
  rw [Decimal.WrittenAlike]
  by_cases inScript : script.least < value.point ∧ value.point ≤ script.most
  · rw [decimal_of_within inScript]
    by_cases inJson : json.least < value.point ∧ value.point ≤ json.most
    · rw [decimal_of_within inJson, positional_eq_iff rfl rfl]
      omega
    · rw [decimal_of_beyond inJson]
      exact iff_of_false (positional_ne_exponential _ _ _ _) (by omega)
  · have neither : ¬ (json.least < value.point ∧ value.point ≤ json.most) := by omega
    rw [decimal_of_beyond inScript, decimal_of_beyond neither]
    exact iff_of_true rfl (by omega)

end Layout

/-! ### Integers -/

theorem toDigits_mul_ten_pow {coefficient : Nat} (positive : 0 < coefficient) (power : Nat) :
    Nat.toDigits 10 (coefficient * 10 ^ power) =
      Nat.toDigits 10 coefficient ++ List.replicate power '0' := by
  induction power with
  | zero => rw [pow_zero, mul_one, List.replicate_zero, List.append_nil]
  | succ power inductionHypothesis =>
    have tenfold : coefficient * 10 ^ (power + 1) = 10 * (coefficient * 10 ^ power) + 0 := by ring
    have before : 0 < coefficient * 10 ^ power := Nat.mul_pos positive (Nat.pow_pos (by decide))
    rw [tenfold, ← Nat.toDigits_append_toDigits (by decide) before (by decide), inductionHypothesis,
      List.replicate_succ', ← List.append_assoc]
    rfl

/-- An integer with at most as many digits as are written without an exponent is written by its
digits in string conversion, whatever power of ten its decimal has taken out. -/
theorem Layout.script_decimal_integer {coefficient power value : Nat}
    (same : coefficient * 10 ^ power = value) (positive : 0 < value) (short : value < 10 ^ 21) :
    script.decimal ⟨false, coefficient, power⟩ = Nat.toDigits 10 value := by
  have some : 0 < coefficient := Nat.pos_of_ne_zero fun nothing => by
    rw [nothing, zero_mul] at same
    exact positive.ne same
  have digits := toDigits_mul_ten_pow some power
  have length := congrArg List.length digits
  rw [List.length_append, List.length_replicate, same] at length
  have bound := (Nat.length_toDigits_le_iff (by decide) (by decide)).mpr short
  have first : 0 < (Nat.toDigits 10 coefficient).length := Nat.length_toDigits_pos
  have place : Decimal.point ⟨false, coefficient, power⟩ =
      (Nat.toDigits 10 coefficient).length + (power : Int) := rfl
  have within : script.least < Decimal.point ⟨false, coefficient, power⟩ ∧
      Decimal.point ⟨false, coefficient, power⟩ ≤ script.most := by
    have bounds : script.least = -6 ∧ script.most = 21 := ⟨rfl, rfl⟩
    omega
  have zeros : (Decimal.point ⟨false, coefficient, power⟩).toNat -
      (Nat.toDigits 10 coefficient).length = power := by omega
  have ahead : ¬ Decimal.point ⟨false, coefficient, power⟩ ≤ 0 := by omega
  have enough : (Nat.toDigits 10 coefficient).length ≤
      (Decimal.point ⟨false, coefficient, power⟩).toNat := by omega
  rw [decimal_of_within within, positional, if_neg ahead, if_pos enough, zeros, ← same, digits]
  exact List.append_nil _

namespace Number

variable {negative : Bool} {mantissa scale : Nat}

/-- A positive count with a sign. -/
theorem integerText_signed (negative : Bool) {integer : Nat} (positive : 0 < integer) :
    integerText (signed negative integer) =
      if negative then '-' :: Nat.toDigits 10 integer else Nat.toDigits 10 integer := by
  cases negative with
  | false =>
    have above : ¬ signed false integer < 0 := by simp [signed]
    rw [integerText, if_neg above]
    rfl
  | true =>
    have below : signed true integer < 0 := by simp [signed, positive]
    rw [integerText, if_pos below, natAbs_signed, if_pos rfl]

theorem text_of_nonzero (negative : Bool) (canonical : Canonical mantissa scale)
    (nonzero : mantissa ≠ 0) :
    (Number.finite negative mantissa scale canonical).text =
      String.ofList ((Number.finite negative mantissa scale canonical).laidOut .script) := by
  have some : (Number.finite negative mantissa scale canonical).isZero = false :=
    beq_eq_false_iff_ne.mpr nonzero
  show (if (Number.finite negative mantissa scale canonical).isZero then "0" else _) = _
  rw [some]
  rfl

/-- String conversion writes a safe integer by its digits. -/
theorem text_of_integer? {number : Number} {value : Int} (whole : number.integer? = some value)
    (safe : value.natAbs ≤ maxSafeInteger) : number.text = String.ofList (integerText value) := by
  cases number with
  | nan => cases whole
  | infinity negative => cases whole
  | finite negative mantissa scale canonical =>
    rcases Nat.eq_zero_or_pos mantissa with rfl | positive
    · rw [integer?_zero] at whole
      cases whole
      rfl
    obtain ⟨integer, rfl, steps⟩ := exists_steps_of_integer? whole
    have some := pos_of_steps positive steps
    have small : integer < 2 ^ 53 := by
      rw [natAbs_signed] at safe
      exact Nat.lt_of_le_of_lt safe (by decide)
    have short : integer < 10 ^ 21 := small.trans (by decide)
    obtain ⟨coefficient, power, found, same⟩ :=
      Shortest.exists_found_integer .away canonical steps some small
    rw [text_of_nonzero negative canonical positive.ne', integerText_signed negative some,
      laidOut_of_nonzero .script negative canonical positive.ne']
    show String.ofList (if negative then
        '-' :: Layout.script.decimal (Shortest.found .away canonical)
      else Layout.script.decimal (Shortest.found .away canonical)) = _
    rw [found, Layout.script_decimal_integer same some short]

end Number

/-! ### Texts and magnitudes -/

/-- A numeral is determined by its characters. -/
theorem Numeral.Regular.eq_of_unsignedChars {first second : Numeral} (regular : first.Regular)
    (regularToo : second.Regular) (sign : first.negative = second.negative)
    (same : first.unsignedChars = second.unsignedChars) : first = second := by
  have ends : Json.EndsNumber [] := nofun
  have read := (Json.unsigned_unsignedChars regular []).unsignedNumber_eq ends
  have readToo := (Json.unsigned_unsignedChars regularToo []).unsignedNumber_eq ends
  rw [sign, same, readToo] at read
  exact (Prod.mk.inj (Except.ok.inj read)).1.symm

/-- So characters spell one magnitude. -/
theorem Spells.unique {chars : List Char} {magnitude another : ℚ} (first : Spells chars magnitude)
    (second : Spells chars another) : magnitude = another := by
  obtain ⟨numeral, regular, sign, spelled, rfl⟩ := first
  obtain ⟨other, regularToo, signToo, spelledToo, rfl⟩ := second
  rw [regular.eq_of_unsignedChars regularToo (sign.trans signToo.symm)
    (spelled.trans spelledToo.symm)]

namespace Shortest

variable {mantissa scale : Nat}

/-- If the texts of the two shortest decimals agree, these are the same, whatever the layouts, as
they are on one grid. -/
theorem found_eq_of_decimal_eq {layout another : Layout} {first second : Tie}
    (canonical : Canonical mantissa scale) (nonzero : mantissa ≠ 0)
    (same : layout.decimal (found first canonical) = another.decimal (found second canonical)) :
    found first canonical = found second canonical := by
  have read := toNumber_found first canonical
  have readToo := toNumber_found second canonical
  have spells := layout.spells_decimal (coefficient_pos_of_toNumber read nonzero)
  have spellsToo := another.spells_decimal (coefficient_pos_of_toNumber readToo nonzero)
  rw [same] at spells
  have magnitudes := spells.unique spellsToo
  have power : (10 : ℚ) ^ (found second canonical).exponent ≠ 0 := zpow_ne_zero _ (by norm_num)
  rw [exponent_found first second canonical] at magnitudes
  exact found_eq_of_coefficient_eq canonical (Nat.cast_inj.mp (mul_right_cancel₀ power magnitudes))

end Shortest

/-! ### Numbers -/

namespace Number

variable {mantissa scale : Nat}

/-- The number is a safe integer, or has one shortest decimal for both rules for ties that both
layouts write in the same way. -/
inductive PrintedAlike (number : Number) : Prop
  | integer {value : Int} (whole : number.integer? = some value)
      (safe : value.natAbs ≤ maxSafeInteger) : PrintedAlike number
  | decimal {value : Decimal} (away : number.shortest? .away = some value)
      (even : number.shortest? .even = some value) (alike : value.WrittenAlike) :
      PrintedAlike number

/-- The shortest decimals of a number are the same for two rules if those of its magnitude are. -/
theorem found_eq_of_shortest?_eq {first second : Tie} {negative : Bool}
    {canonical : Canonical mantissa scale} (nonzero : mantissa ≠ 0)
    (same : (Number.finite negative mantissa scale canonical).shortest? first =
      (Number.finite negative mantissa scale canonical).shortest? second) :
    Shortest.found first canonical = Shortest.found second canonical := by
  rw [shortest?_of_nonzero first negative canonical nonzero,
    shortest?_of_nonzero second negative canonical nonzero] at same
  obtain ⟨-, coefficients, -⟩ := Decimal.mk.inj (Option.some.inj same)
  exact Shortest.found_eq_of_coefficient_eq canonical coefficients

theorem laidOut_json_eq_laidOut_script_iff (negative : Bool) (canonical : Canonical mantissa scale)
    (nonzero : mantissa ≠ 0) :
    (Number.finite negative mantissa scale canonical).laidOut .json =
        (Number.finite negative mantissa scale canonical).laidOut .script ↔
      Shortest.found .even canonical = Shortest.found .away canonical ∧
        (Shortest.found .away canonical).WrittenAlike := by
  have unsigned : (Number.finite negative mantissa scale canonical).laidOut .json =
        (Number.finite negative mantissa scale canonical).laidOut .script ↔
      Layout.json.decimal (Shortest.found .even canonical) =
        Layout.script.decimal (Shortest.found .away canonical) := by
    rw [laidOut_of_nonzero .json negative canonical nonzero,
      laidOut_of_nonzero .script negative canonical nonzero]
    cases negative with
    | false => exact Iff.rfl
    | true => exact List.cons_inj_right '-'
  rw [unsigned]
  constructor
  · intro same
    have one := Shortest.found_eq_of_decimal_eq canonical nonzero same
    rw [one] at same
    exact ⟨one, (Layout.script_decimal_eq_json_decimal_iff _).mp same.symm⟩
  · rintro ⟨one, alike⟩
    rw [one]
    exact ((Layout.script_decimal_eq_json_decimal_iff _).mpr alike).symm

/-- A finite number other than a safe integer is written by the layout of JSON numbers. -/
theorem jsonText_of_unsafe {number : Number} (finite : number.isFinite = true)
    (large : ∀ value, number.integer? = some value → ¬ value.natAbs ≤ maxSafeInteger) :
    number.jsonText = String.ofList (number.laidOut .json) := by
  rw [jsonText]
  split
  · rename_i value whole
    exact if_neg (large value whole)
  · exact if_pos finite

/-- JSON output and string conversion have the same text for a finite number exactly if it is
printed alike. -/
theorem jsonText_eq_text_iff {number : Number} (finite : number.isFinite = true) :
    number.jsonText = number.text ↔ number.PrintedAlike := by
  by_cases safe : ∃ value, number.integer? = some value ∧ value.natAbs ≤ maxSafeInteger
  · obtain ⟨value, whole, bound⟩ := safe
    rw [jsonText_of_integer? whole bound, text_of_integer? whole bound]
    exact iff_of_true rfl (.integer whole bound)
  · have large : ∀ value, number.integer? = some value → ¬ value.natAbs ≤ maxSafeInteger :=
      fun value whole bound => safe ⟨value, whole, bound⟩
    have laid := jsonText_of_unsafe finite large
    cases number with
    | nan => cases finite
    | infinity negative => cases finite
    | finite negative mantissa scale canonical =>
      have nonzero : mantissa ≠ 0 := by
        rintro rfl
        exact large 0 (integer?_zero negative canonical) (Nat.zero_le _)
      have away := shortest?_of_nonzero .away negative canonical nonzero
      have even := shortest?_of_nonzero .even negative canonical nonzero
      rw [laid, text_of_nonzero negative canonical nonzero, String.ofList_inj,
        laidOut_json_eq_laidOut_script_iff negative canonical nonzero]
      constructor
      · rintro ⟨one, alike⟩
        rw [one] at even
        exact .decimal away even alike
      · rintro (⟨whole, bound⟩ | ⟨awayToo, evenToo, alike⟩)
        · exact absurd bound (large _ whole)
        · have one := found_eq_of_shortest?_eq nonzero (evenToo.trans awayToo.symm)
          cases away.symm.trans awayToo
          exact ⟨one, alike⟩

end Number

/-! ### JSON output -/

namespace Json

variable (call : Caller) (realm : RealmId) (number : Number) (world : World)

/-- The JSON text of a number is made without a look at the world. -/
theorem outcome_stringify_number :
    (stringify call realm (.number number)).outcome world =
      .done (some (unitsOf number.jsonText)) world := by
  have tells : Tells world 0 (.number number) (some (.ofNumber number)) := .number 0 number
  rw [tells.outcome_stringify call realm (Nat.zero_le maxDepth)]
  cases number <;> rfl

/-- JSON output of a number. What is not finite is null. Anything else has the text of its string
conversion exactly if it is a safe integer, or if it has one shortest decimal, however ties are
broken, and this is below `10 ^ -6`, or at least `10 ^ -5` and no integer below `10 ^ 16`, or at
least `10 ^ 21`. Nothing is called, and the world stays as it is. -/
theorem stringify_number :
    ∃ text, (stringify call realm (.number number)).outcome world =
        .done (some (unitsOf text)) world ∧
      (number.isFinite = false → text = "null") ∧
      (number.isFinite = true → (text = number.text ↔ number.PrintedAlike)) := by
  refine ⟨number.jsonText, outcome_stringify_number call realm number world, fun infinite => ?_,
    fun finite => Number.jsonText_eq_text_iff finite⟩
  cases number with
  | nan => rfl
  | infinity negative => rfl
  | finite negative mantissa scale canonical => cases infinite

/-- One half has no exponent in either text. -/
theorem stringify_number_half :
    let half := Decimal.toNumber ⟨false, 5, -1⟩
    half.PrintedAlike ∧
      (stringify (callWithin 0) 0 (.number half)).outcome (.fresh 1) =
        .done (some (unitsOf "0.5")) (.fresh 1) := by
  intro half
  have finite : half.isFinite = true := by decide +kernel
  have shown : half.text = "0.5" := by decide +kernel
  have away : half.shortest? .away = some ⟨false, 5, -1⟩ := by decide +kernel
  have even : half.shortest? .even = some ⟨false, 5, -1⟩ := by decide +kernel
  have alike : half.PrintedAlike :=
    .decimal away even (Or.inr (Or.inl (by decide +kernel)))
  obtain ⟨text, done, -, same⟩ := stringify_number (callWithin 0) 0 half (.fresh 1)
  rw [(same finite).mpr alike, shown] at done
  exact ⟨alike, done⟩

/-- An integer beyond the safe ones has an exponent in JSON output, and none in string
conversion. -/
theorem stringify_number_large :
    (stringify (callWithin 0) 0 (.number (.ofNat (10 ^ 16)))).outcome (.fresh 1) =
        .done (some (unitsOf "1e+16")) (.fresh 1) ∧
      (Number.ofNat (10 ^ 16)).isFinite = true ∧
      (Number.ofNat (10 ^ 16)).text = "10000000000000000" ∧
      unitsOf "1e+16" ≠ unitsOf (Number.ofNat (10 ^ 16)).text := by
  have finite : (Number.ofNat (10 ^ 16)).isFinite = true := by decide +kernel
  have text : (Number.ofNat (10 ^ 16)).text = "10000000000000000" := by decide +kernel
  have json : (Number.ofNat (10 ^ 16)).jsonText = "1e+16" := by decide +kernel
  refine ⟨?_, finite, text, text ▸ by decide +kernel⟩
  rw [outcome_stringify_number, json]

end Json

end EcmaCore
