/-
This file proves that the text of a finite number in JSON output is a numeral that denotes
the number, a negative zero excepted, which is written like the positive one. A layout
moves the point of a decimal and writes an exponent or none, but whatever it writes has
the magnitude of the decimal; the decimal is one that reads back as the number; and the
digits of an integer are exact.
-/

import EcmaCore.Number.Layout
import EcmaCore.Proofs.Key.Index
import EcmaCore.Proofs.Number.Decimals

namespace EcmaCore

open Number

/-! ### Written numerals -/

/-- The characters of digits. -/
def digitChars (digits : List Nat) : List Char := digits.map Nat.digitChar

theorem digitChars_append (first second : List Nat) :
    digitChars (first ++ second) = digitChars first ++ digitChars second := List.map_append

theorem ofDigits_zeros (count : Nat) (digits : List Nat) :
    ofDigits (List.replicate count 0 ++ digits) = ofDigits digits := by
  induction count with
  | zero => rfl
  | succ count inductionHypothesis =>
    rw [List.replicate_succ, List.cons_append, ofDigits, List.foldl_cons, Nat.zero_mul,
      Nat.zero_add, ← ofDigits, inductionHypothesis]

namespace Numeral

/-- The point and the digits after it, if there are any. -/
def fractionChars : List Nat → List Char
  | [] => []
  | digit :: others => '.' :: digitChars (digit :: others)

/-- The exponent with its sign, if it has any digit. -/
def exponentChars (negative : Bool) : List Nat → List Char
  | [] => []
  | digit :: others => 'e' :: (if negative then '-' else '+') :: digitChars (digit :: others)

/-- The numeral without its sign. -/
def unsignedChars (numeral : Numeral) : List Char :=
  digitChars numeral.whole ++ fractionChars numeral.fraction ++
    exponentChars numeral.exponentNegative numeral.exponent

/-- The numeral as a text. -/
def written (numeral : Numeral) : List Char :=
  if numeral.negative then '-' :: numeral.unsignedChars else numeral.unsignedChars

/-- The numeral is one that a JSON text may hold: decimal digits, of which there is one before the
point, and no needless zero before it. Only an exponent that is there has a sign. -/
structure Regular (numeral : Numeral) : Prop where
  whole : ∀ digit ∈ numeral.whole, digit < 10
  fraction : ∀ digit ∈ numeral.fraction, digit < 10
  exponent : ∀ digit ∈ numeral.exponent, digit < 10
  shortest : ∃ first others, numeral.whole = first :: others ∧ (first = 0 → others = [])
  signed : numeral.exponent = [] → numeral.exponentNegative = false

end Numeral

/-! ### Layouts -/

/-- The characters are those of a numeral that is not below zero and has the given magnitude. -/
def Spells (chars : List Char) (magnitude : ℚ) : Prop :=
  ∃ numeral : Numeral, numeral.Regular ∧ numeral.negative = false ∧
    numeral.unsignedChars = chars ∧ numeral.magnitude = magnitude

/-- The digits of a positive number, the first of which is no zero. -/
theorem exists_positive_digits {value : Nat} (positive : 0 < value) :
    ∃ first others, Nat.toDigits 10 value = digitChars (first :: others) ∧
      (∀ digit ∈ first :: others, digit < 10) ∧ first ≠ 0 ∧ ofDigits (first :: others) = value := by
  obtain ⟨first, others, spelled, small, shortest, read⟩ := exists_digits value
  refine ⟨first, others, spelled, small, ?_, read⟩
  rintro rfl
  rw [shortest rfl] at read
  exact absurd read (Nat.ne_of_lt positive)

section Layout

variable {first : Nat} {others : List Nat}

theorem lt_ten_of_mem_zero : ∀ digit ∈ [0], digit < 10 := by decide

theorem mem_zeros_append {count : Nat} {digits : List Nat} (small : ∀ digit ∈ digits, digit < 10) :
    ∀ digit ∈ List.replicate count 0 ++ digits, digit < 10 := by
  intro digit member
  rcases List.mem_append.mp member with zero | member
  · rw [List.eq_of_mem_replicate zero]
    decide
  · exact small digit member

theorem digitChars_zeros (count : Nat) :
    digitChars (List.replicate count 0) = List.replicate count '0' := List.map_replicate

/-- A point before all digits, with zeros between. -/
theorem spells_point_first (small : ∀ digit ∈ first :: others, digit < 10) (zeros : Nat) :
    Spells ('0' :: '.' :: List.replicate zeros '0' ++ digitChars (first :: others))
      (ofDigits (first :: others) / 10 ^ (zeros + (first :: others).length)) := by
  obtain ⟨digit, digits, nonempty⟩ :
      ∃ digit digits, List.replicate zeros 0 ++ first :: others = digit :: digits := by
    cases zeros with
    | zero => exact ⟨_, _, rfl⟩
    | succ zeros => exact ⟨_, _, rfl⟩
  refine ⟨⟨false, [0], List.replicate zeros 0 ++ first :: others, false, []⟩,
    ⟨lt_ten_of_mem_zero, mem_zeros_append small, nofun, ⟨0, [], rfl, fun _ => rfl⟩, fun _ => rfl⟩,
    rfl, ?_, ?_⟩
  · rw [Numeral.unsignedChars, nonempty, Numeral.fractionChars, ← nonempty, digitChars_append,
      digitChars_zeros]
    simp [digitChars, Numeral.exponentChars]
  · rw [Numeral.magnitude, ofDigits_zeros, List.length_append, List.length_replicate]
    simp [ofDigits]

/-- Zeros after all digits, and perhaps an empty fraction. -/
theorem spells_integer (small : ∀ digit ∈ first :: others, digit < 10) (nonzero : first ≠ 0)
    (zeros : Nat) (emptyFraction : Bool) :
    Spells (digitChars (first :: others) ++ List.replicate zeros '0' ++
        (if emptyFraction then ['.', '0'] else []))
      (ofDigits (first :: others) * 10 ^ zeros) := by
  have smallWhole : ∀ digit ∈ first :: others ++ List.replicate zeros 0, digit < 10 := by
    intro digit member
    rcases List.mem_append.mp member with member | zero
    · exact small digit member
    · rw [List.eq_of_mem_replicate zero]
      decide
  have value : ofDigits (List.replicate zeros 0) = 0 := by
    rw [← List.append_nil (List.replicate zeros 0), ofDigits_zeros]
    rfl
  refine ⟨⟨false, first :: others ++ List.replicate zeros 0, if emptyFraction then [0] else [],
    false, []⟩, ⟨smallWhole, ?_, nofun, ⟨first, others ++ List.replicate zeros 0, rfl,
      fun zero => absurd zero nonzero⟩, fun _ => rfl⟩, rfl, ?_, ?_⟩
  · cases emptyFraction
    · exact nofun
    · exact lt_ten_of_mem_zero
  · rw [Numeral.unsignedChars, digitChars_append, digitChars_zeros]
    cases emptyFraction <;> simp [Numeral.fractionChars, Numeral.exponentChars, digitChars]
  · rw [Numeral.magnitude, ofDigits_append, value, List.length_replicate]
    cases emptyFraction <;> simp [ofDigits]

/-- A point between digits. -/
theorem spells_point_inside (small : ∀ digit ∈ first :: others, digit < 10) (nonzero : first ≠ 0)
    {point : Nat} (positive : 0 < point) (inside : point < (first :: others).length) :
    Spells ((digitChars (first :: others)).take point ++
        '.' :: (digitChars (first :: others)).drop point)
      (ofDigits (first :: others) / 10 ^ ((first :: others).length - point)) := by
  obtain ⟨before, rfl⟩ : ∃ before, point = before + 1 := ⟨point - 1, by omega⟩
  obtain ⟨digit, digits, nonempty⟩ :
      ∃ digit digits, (first :: others).drop (before + 1) = digit :: digits :=
    List.exists_cons_of_length_pos (by rw [List.length_drop]; omega)
  have whole : (first :: others).take (before + 1) = first :: others.take before := rfl
  refine ⟨⟨false, (first :: others).take (before + 1), (first :: others).drop (before + 1), false,
    []⟩, ⟨fun digit member => small digit (List.mem_of_mem_take member),
      fun digit member => small digit (List.mem_of_mem_drop member), nofun,
      ⟨first, others.take before, whole, fun zero => absurd zero nonzero⟩, fun _ => rfl⟩,
    rfl, ?_, ?_⟩
  · rw [Numeral.unsignedChars, nonempty, Numeral.fractionChars, ← nonempty, digitChars, digitChars,
      digitChars, List.map_take, List.map_drop, Numeral.exponentChars, List.append_nil]
  · have parts : ofDigits (first :: others) =
        ofDigits ((first :: others).take (before + 1)) *
          10 ^ ((first :: others).drop (before + 1)).length +
        ofDigits ((first :: others).drop (before + 1)) := by
      rw [← ofDigits_append, List.take_append_drop]
    rw [Numeral.magnitude, parts, List.length_drop]
    push_cast
    have power : (10 : ℚ) ^ ((first :: others).length - (before + 1)) ≠ 0 :=
      pow_ne_zero _ (by norm_num)
    simp [ofDigits]
    field_simp

/-- A point after the first digit, and an exponent. -/
theorem spells_exponential (small : ∀ digit ∈ first :: others, digit < 10) (point : Int) :
    Spells (Layout.exponential (digitChars (first :: others)) point)
      (ofDigits (first :: others) / 10 ^ others.length * 10 ^ (point - 1)) := by
  obtain ⟨digit, digits, spelled, exponentSmall, _, read⟩ := exists_digits (point - 1).natAbs
  have exponent : (if decide (point - 1 < 0) = true then -(ofDigits (digit :: digits) : ℤ)
      else ofDigits (digit :: digits)) = point - 1 := by
    rw [read, Int.natCast_natAbs]
    split
    · rename_i negative
      rw [abs_of_neg (of_decide_eq_true negative), neg_neg]
    · rename_i positive
      exact abs_of_nonneg (not_lt.mp fun negative => positive (decide_eq_true negative))
  refine ⟨⟨false, [first], others, decide (point - 1 < 0), digit :: digits⟩,
    ⟨fun one member => small one (by simp_all), fun one member => small one (by simp_all),
      exponentSmall, ⟨first, [], rfl, fun _ => rfl⟩, nofun⟩, rfl, ?_, ?_⟩
  · unfold Layout.exponential
    dsimp only
    rw [Numeral.unsignedChars, spelled]
    cases others with
    | nil => simp [digitChars, Numeral.fractionChars, Numeral.exponentChars]
    | cons second rest => simp [digitChars, Numeral.fractionChars, Numeral.exponentChars]
  · have parts : ofDigits (first :: others) = ofDigits [first] * 10 ^ others.length +
        ofDigits others := ofDigits_append [first] others
    have power : (10 : ℚ) ^ others.length ≠ 0 := pow_ne_zero _ (by norm_num)
    rw [Numeral.magnitude, exponent, parts]
    push_cast
    field_simp

end Layout

/-- Whatever a layout writes of a positive decimal has the magnitude of the decimal. -/
theorem Layout.spells_decimal (layout : Layout) {value : Decimal}
    (positive : 0 < value.coefficient) :
    Spells (layout.decimal value) (value.coefficient * 10 ^ value.exponent) := by
  have ten : (10 : ℚ) ≠ 0 := by norm_num
  obtain ⟨first, others, spelled, small, nonzero, read⟩ := exists_positive_digits positive
  have length : (digitChars (first :: others)).length = (first :: others).length :=
    List.length_map _
  rw [decimal, spelled, length]
  generalize hpoint : ((first :: others).length : Int) + value.exponent = point
  have exponent : value.exponent = point - (first :: others).length := by omega
  rw [← read, exponent]
  split
  · unfold positional
    rw [length]
    by_cases low : point ≤ 0
    · have moved : point - ((first :: others).length : Int) =
          -(((-point).toNat + (first :: others).length : Nat) : Int) := by omega
      rw [if_pos low, moved, zpow_neg, zpow_natCast, ← div_eq_mul_inv]
      exact spells_point_first small _
    rw [if_neg low]
    by_cases high : (first :: others).length ≤ point.toNat
    · have moved : point - ((first :: others).length : Int) =
          ((point.toNat - (first :: others).length : Nat) : Int) := by omega
      rw [if_pos high, moved, zpow_natCast]
      exact spells_integer small nonzero _ _
    · have moved : point - ((first :: others).length : Int) =
          -(((first :: others).length - point.toNat : Nat) : Int) := by omega
      rw [if_neg high, moved, zpow_neg, zpow_natCast, ← div_eq_mul_inv]
      exact spells_point_inside small nonzero (by omega) (Nat.lt_of_not_le high)
  · have moved : (10 : ℚ) ^ (point - ((first :: others).length : Int)) =
        (10 ^ others.length)⁻¹ * 10 ^ (point - 1) := by
      rw [← zpow_natCast, ← zpow_neg, ← zpow_add₀ ten, List.length_cons]
      congr 1
      omega
    rw [moved, ← mul_assoc, ← div_eq_mul_inv]
    exact spells_exponential small point

/-! ### Decimals that read back -/

variable {negative : Bool} {mantissa scale : Nat}

/-- A number is the nearest to its own magnitude. -/
theorem Number.isNearest_self (negative : Bool) (canonical : Canonical mantissa scale) :
    (Number.finite negative mantissa scale canonical).IsNearest negative
      (magnitude mantissa scale) := by
  have rounded : Rounded (magnitude mantissa scale) mantissa scale := by
    refine ⟨?_, canonical.2.2.imp_right fun large => ?_, ?_, fun far => ?_⟩
    · exact mul_lt_mul_of_pos_right (by exact_mod_cast canonical.lt) (unit_pos scale)
    · exact mul_le_mul_of_nonneg_right (by exact_mod_cast large) (unit_pos scale).le
    · rw [sub_self, abs_zero]
      exact (half_pos (unit_pos scale)).le
    · rw [sub_self, abs_zero] at far
      exact absurd far (half_pos (unit_pos scale)).ne
  rw [← carried_of_canonical negative canonical]
  exact rounded.isNearest_carried negative

/-- The number with the other sign is the nearest to the same magnitude with that sign. -/
theorem Number.IsNearest.withSign {canonical : Canonical mantissa scale} {value : ℚ}
    (nearest : (Number.finite false mantissa scale canonical).IsNearest false value)
    (negative : Bool) :
    (Number.finite negative mantissa scale canonical).IsNearest negative value := by
  cases nearest with
  | finite _ below nearest even => exact .finite canonical below nearest even

namespace Shortest

variable {canonical : Canonical mantissa scale}

/-- The exact expansion of a number reads back. -/
theorem toNumber_exact (canonical : Canonical mantissa scale) {bits : Nat} {exponent : Int}
    (exact : 1074 = bits) (below : exponent = -(bits : ℤ)) :
    Decimal.toNumber ⟨false, mantissa * Nat.pow 2 scale * Nat.pow 5 bits, exponent⟩ =
      .finite false mantissa scale canonical := by
  subst below
  have read := Decimal.isNearest_toNumber
    ⟨false, mantissa * Nat.pow 2 scale * Nat.pow 5 bits, -(bits : ℤ)⟩
  have value : ((mantissa * Nat.pow 2 scale * Nat.pow 5 bits : Nat) : ℚ) * 10 ^ (-(bits : ℤ)) *
      one = magnitude mantissa scale := by
    rw [Nat.pow_eq, Nat.pow_eq, zpow_neg, zpow_natCast, one_eq_two_pow exact, magnitude,
      show (10 : ℚ) = 5 * 2 by norm_num, mul_pow]
    push_cast
    field_simp
  rw [value] at read
  exact read.unique (isNearest_self false canonical)

theorem toNumber_of_onGrid? {tie : Tie} {magnitude : Number} {steps : Nat} {exponent : Int}
    {decimal : Decimal} (hit : onGrid? tie magnitude steps exponent = some decimal) :
    decimal.toNumber = magnitude := by
  unfold onGrid? at hit
  dsimp only at hit
  split at hit
  · cases hit
  · rename_i low _
    cases hit
    exact beq_iff_eq.mp low
  · rename_i _ high
    cases hit
    exact beq_iff_eq.mp high
  · rename_i low high
    cases hit
    split
    · exact beq_iff_eq.mp low
    · exact beq_iff_eq.mp high
    · split
      · exact beq_iff_eq.mp high
      · split
        · exact beq_iff_eq.mp low
        · exact beq_iff_eq.mp high

/-- Wherever the search ends, its decimal reads back. -/
theorem toNumber_search (tie : Tie) (canonical : Canonical mantissa scale) (grids : Nat)
    (exponent : Int) :
    (search tie (.finite false mantissa scale canonical) (mantissa * Nat.pow 2 scale) grids
      exponent).toNumber = .finite false mantissa scale canonical := by
  induction grids generalizing exponent with
  | zero =>
    obtain ⟨bits, exact⟩ : ∃ bits, 1074 = bits := ⟨_, rfl⟩
    rw [search, exact]
    exact toNumber_exact canonical exact (by omega)
  | succ grids inductionHypothesis =>
    rw [search]
    split
    · rename_i decimal hit
      exact toNumber_of_onGrid? hit
    · exact inductionHypothesis (exponent - 1)

/-- A decimal that reads back as a magnitude is not below zero, and the magnitude is the nearest to
what it denotes. -/
theorem isNearest_of_toNumber {decimal : Decimal}
    (read : decimal.toNumber = .finite false mantissa scale canonical) :
    decimal.negative = false ∧ (Number.finite false mantissa scale canonical).IsNearest false
      (decimal.coefficient * 10 ^ decimal.exponent * one) := by
  obtain ⟨sign, coefficient, exponent⟩ := decimal
  have nearest := Decimal.isNearest_toNumber ⟨sign, coefficient, exponent⟩
  rw [read] at nearest
  have unsigned : sign = false := by
    cases nearest
    rfl
  subst unsigned
  exact ⟨rfl, nearest⟩

theorem coefficient_pos_of_toNumber {decimal : Decimal}
    (read : decimal.toNumber = .finite false mantissa scale canonical) (nonzero : mantissa ≠ 0) :
    0 < decimal.coefficient := by
  refine Nat.pos_of_ne_zero fun nothing => nonzero ?_
  have nearest := (isNearest_of_toNumber read).2
  have zero := isNearest_self false (show Canonical 0 0 by decide)
  rw [nothing, Nat.cast_zero, zero_mul, zero_mul] at nearest
  rw [Number.magnitude, Nat.cast_zero, zero_mul] at zero
  exact (Number.finite.inj (nearest.unique zero)).2.1

/-- The shortest decimal of a magnitude, as the search finds it. -/
def found (tie : Tie) (canonical : Canonical mantissa scale) : Decimal :=
  search tie (.finite false mantissa scale canonical) (mantissa * Nat.pow 2 scale) 1400
    (ceilingExponent (mantissa * Nat.pow 2 scale))

theorem toNumber_found (tie : Tie) (canonical : Canonical mantissa scale) :
    (found tie canonical).toNumber = .finite false mantissa scale canonical :=
  toNumber_search tie canonical _ _

end Shortest

/-! ### Numbers -/

namespace Number

/-- The number as its text has it: a negative zero is written like the positive one. -/
def settled (number : Number) : Number := if number.isZero then .zero else number

theorem shortest?_of_nonzero (tie : Tie) (negative : Bool) (canonical : Canonical mantissa scale)
    (nonzero : mantissa ≠ 0) :
    (Number.finite negative mantissa scale canonical).shortest? tie =
      some { Shortest.found tie canonical with negative := negative } := by
  have steps : mantissa * Nat.pow 2 scale ≠ 0 :=
    Nat.mul_ne_zero nonzero (Nat.ne_of_gt (Nat.two_pow_pos scale))
  rw [shortest?]
  dsimp only
  rw [if_neg steps]
  rfl

/-- The sign of a number stands before the text of its shortest decimal. -/
theorem laidOut_of_nonzero (layout : Layout) (negative : Bool)
    (canonical : Canonical mantissa scale) (nonzero : mantissa ≠ 0) :
    (Number.finite negative mantissa scale canonical).laidOut layout =
      if negative then '-' :: layout.decimal (Shortest.found layout.tie canonical)
      else layout.decimal (Shortest.found layout.tie canonical) := by
  rw [laidOut, shortest?_of_nonzero layout.tie negative canonical nonzero]
  rfl

/-- The number has a text in JSON that is the given numeral. -/
theorem exists_numeral_laidOut (layout : Layout) (negative : Bool)
    (canonical : Canonical mantissa scale) (nonzero : mantissa ≠ 0) :
    ∃ numeral : Numeral, numeral.Regular ∧
      (Number.finite negative mantissa scale canonical).laidOut layout = numeral.written ∧
      numeral.Denotes (.finite negative mantissa scale canonical) := by
  have read := Shortest.toNumber_found layout.tie canonical
  obtain ⟨numeral, regular, _, spelled, value⟩ :=
    layout.spells_decimal (Shortest.coefficient_pos_of_toNumber read nonzero)
  refine ⟨{ numeral with negative := negative },
    ⟨regular.whole, regular.fraction, regular.exponent, regular.shortest, regular.signed⟩, ?_, ?_⟩
  · rw [laidOut_of_nonzero layout negative canonical nonzero, ← spelled]
    rfl
  · have signed := (Shortest.isNearest_of_toNumber read).2.withSign negative
    rwa [← value] at signed

theorem exists_numeral_integerText (value : Int) :
    ∃ numeral : Numeral, numeral.Regular ∧ integerText value = numeral.written ∧
      numeral.negative = decide (value < 0) ∧ numeral.magnitude = value.natAbs := by
  obtain ⟨first, others, spelled, small, shortest, read⟩ := exists_digits value.natAbs
  refine ⟨⟨decide (value < 0), first :: others, [], false, []⟩,
    ⟨small, nofun, nofun, ⟨first, others, rfl, shortest⟩, fun _ => rfl⟩, ?_, rfl, ?_⟩
  · rw [integerText, spelled, Numeral.written, Numeral.unsignedChars, Numeral.fractionChars,
      Numeral.exponentChars, List.append_nil, List.append_nil]
    simp only [decide_eq_true_eq]
    rfl
  · rw [Numeral.magnitude, read]
    simp [ofDigits]

theorem jsonText_of_integer? {number : Number} {value : Int} (whole : number.integer? = some value)
    (safe : value.natAbs ≤ maxSafeInteger) :
    number.jsonText = String.ofList (integerText value) := by
  rw [jsonText, whole]
  exact if_pos safe

theorem jsonText_settled (number : Number) : number.settled.jsonText = number.jsonText := by
  unfold settled
  split
  · rename_i zero
    cases number with
    | nan => cases zero
    | infinity negative => cases zero
    | finite negative mantissa scale canonical =>
      obtain rfl : mantissa = 0 := beq_iff_eq.mp zero
      rw [jsonText_of_integer? (integer?_zero negative canonical) (Nat.zero_le _)]
      exact jsonText_of_integer? (integer?_zero false _) (Nat.zero_le _)
  · rfl

/-- An integer that a number is has the magnitude of the number and its sign. -/
theorem denotes_of_integer? {numeral : Numeral} {number : Number} {value : Int}
    (whole : number.integer? = some value) (sign : numeral.negative = decide (value < 0))
    (exact : numeral.magnitude = value.natAbs) : numeral.Denotes number.settled := by
  cases number with
  | nan => cases whole
  | infinity negative => cases whole
  | finite negative mantissa scale canonical =>
    rw [Numeral.Denotes, sign, exact]
    rcases Nat.eq_zero_or_pos mantissa with rfl | positive
    · rw [integer?_zero] at whole
      cases whole
      have zero := isNearest_self false (show Canonical 0 0 by decide)
      rw [magnitude, Nat.cast_zero, zero_mul] at zero
      rw [Int.natAbs_zero, Nat.cast_zero, zero_mul]
      exact zero
    rw [settled, isZero, if_neg (by simp [Nat.ne_of_gt positive])]
    obtain ⟨integer, rfl, steps⟩ := exists_steps_of_integer? whole
    have some := pos_of_steps positive steps
    have below : decide (signed negative integer < 0) = negative := by
      cases negative <;> simp [signed, some]
    have value : (integer : ℚ) * one = magnitude mantissa scale := by
      rw [magnitude_eq_cast, steps, Nat.cast_mul]
    rw [below, natAbs_signed, value]
    exact isNearest_self negative canonical

/-- The text of a finite number is a numeral that denotes the number, a negative zero excepted. -/
theorem exists_numeral_jsonText {number : Number} (finite : number.isFinite = true) :
    ∃ numeral : Numeral, numeral.Regular ∧ number.jsonText = String.ofList numeral.written ∧
      numeral.Denotes number.settled := by
  cases number with
  | nan => cases finite
  | infinity negative => cases finite
  | finite negative mantissa scale canonical =>
    have laid (nonzero : mantissa ≠ 0) : ∃ numeral : Numeral, numeral.Regular ∧
        String.ofList ((Number.finite negative mantissa scale canonical).laidOut .json) =
          String.ofList numeral.written ∧
        numeral.Denotes (Number.finite negative mantissa scale canonical).settled := by
      obtain ⟨numeral, regular, spelled, denotes⟩ :=
        exists_numeral_laidOut .json negative canonical nonzero
      refine ⟨numeral, regular, by rw [spelled], ?_⟩
      rwa [settled, isZero, if_neg (by simp [nonzero])]
    rw [jsonText]
    split
    · rename_i value whole
      split
      · obtain ⟨numeral, regular, spelled, sign, exact⟩ := exists_numeral_integerText value
        exact ⟨numeral, regular, by rw [spelled], denotes_of_integer? whole sign exact⟩
      · rename_i large
        refine laid ?_
        rintro rfl
        rw [integer?_zero] at whole
        cases whole
        exact large (Nat.zero_le _)
    · rename_i fractional
      refine laid ?_
      rintro rfl
      rw [integer?_zero] at fractional
      cases fractional

end Number

end EcmaCore
