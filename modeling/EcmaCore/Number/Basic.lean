/-
This file holds the numbers of scripts: the 64-bit binary floating-point values,
kept exactly. A finite number is a sign and a magnitude on the grid of the smallest
subnormal, `mantissa * 2 ^ scale` steps of `2 ^ -1074`, and the pair is canonical, so
two values are equal in Lean just when no script can tell them apart. Equality of
this type is therefore the SameValue relation, with both zeros kept distinct and
one NaN.

All arithmetic is done on natural numbers and rounded once, to the nearest number,
ties to the even mantissa.
-/

namespace EcmaCore

/-- Every magnitude has one canonical pair: the mantissa has 53 bits, or fewer at scale zero. -/
def Canonical (mantissa scale : Nat) : Prop :=
  mantissa < Nat.pow 2 53 ∧ scale ≤ 2045 ∧ (scale = 0 ∨ Nat.pow 2 52 ≤ mantissa)

instance (mantissa scale : Nat) : Decidable (Canonical mantissa scale) :=
  inferInstanceAs (Decidable (_ ∧ _ ∧ _))

/-- A number. A finite one is `mantissa * 2 ^ scale` grid steps, below zero when `negative`. -/
inductive Number
  | nan
  | infinity (negative : Bool)
  | finite (negative : Bool) (mantissa scale : Nat) (canonical : Canonical mantissa scale)
deriving DecidableEq

namespace Number

/-- The number of grid steps in one: the smallest subnormal is `2 ^ -1074`. -/
def one : Nat := Nat.pow 2 1074

/-! ### Rounding -/

/-- The integer nearest to a quotient, the even one of two. -/
def nearestEven (numerator denominator : Nat) : Nat :=
  let quotient := numerator / denominator
  let twice := 2 * (numerator % denominator)
  if twice < denominator then quotient
  else if denominator < twice then quotient + 1
  else quotient + quotient % 2

/-- The number of the given mantissa and scale. Rounding may carry a mantissa to `2 ^ 53`, and what
lies beyond the largest scale is infinite. -/
def carried (negative : Bool) (mantissa scale : Nat) : Number :=
  if canonical : Canonical mantissa scale then .finite negative mantissa scale canonical
  else if room : scale < 2045 then
    .finite negative (Nat.pow 2 52) (scale + 1) ⟨by decide, room, .inr (Nat.le_refl _)⟩
  else .infinity negative

/-- A natural number with a sign. -/
def signed (negative : Bool) (value : Nat) : Int := if negative then -(value : Int) else value

/-- The number nearest to a quotient of grid steps. The scale leaves 53 bits of the quotient. -/
def nearest (negative : Bool) (numerator denominator : Nat) : Number :=
  let scale := (numerator / denominator).log2 - 52
  carried negative (nearestEven numerator (denominator * Nat.pow 2 scale)) scale

/-- The number nearest to a natural number. -/
def ofNat (value : Nat) : Number := nearest false (value * one) 1

/-- The number nearest to a signed count of grid steps; a count of zero is positive. -/
def ofSteps (steps : Int) : Number := nearest (decide (steps < 0)) steps.natAbs 1

/-- The number nearest to an integer. -/
def ofInt (value : Int) : Number := ofSteps (value * one)

/-- Positive zero. -/
def zero : Number := .finite false 0 0 (by decide)

/-! ### Classes and order -/

/-- Neither NaN nor infinite. -/
def isFinite : Number → Bool
  | .finite .. => true
  | _ => false

/-- Either zero. -/
def isZero : Number → Bool
  | .finite _ mantissa _ _ => mantissa == 0
  | _ => false

/-- Equality of scripts: NaN equals nothing and the zeros are equal. -/
def equals (left right : Number) : Bool :=
  (left != nan && left == right) || (left.isZero && right.isZero)

/-! ### Integers -/

/-- The integer reached by dropping the fraction of a finite number. -/
def truncated? : Number → Option Int
  | .finite negative mantissa scale _ =>
    some (signed negative (mantissa * Nat.pow 2 scale / one))
  | _ => none

/-- The integer that a finite number without a fraction is. -/
def integer? : Number → Option Int
  | .finite negative mantissa scale canonical =>
    if mantissa * Nat.pow 2 scale % one = 0 then
      truncated? (.finite negative mantissa scale canonical)
    else
      none
  | _ => none

/-- The last integer below which every integer is a number: `2 ^ 53 - 1`. -/
def maxSafeInteger : Nat := Nat.pow 2 53 - 1

/-- The integer part taken modulo `2 ^ 32`; zero for a number that is not finite. -/
def toUint32 (number : Number) : Nat :=
  match number.truncated? with
  | some value => (value % Nat.pow 2 32).toNat
  | none => 0

/-- The integer part held between zero and `2 ^ 53 - 1`. -/
def toLength : Number → Nat
  | .nan => 0
  | .infinity negative => if negative then 0 else maxSafeInteger
  | .finite negative mantissa scale _ =>
    if negative then 0 else min (mantissa * Nat.pow 2 scale / one) maxSafeInteger

/-- The integer part held between zero and `2 ^ 32 - 1`. -/
def clampedUint32 (number : Number) : Nat := min number.toLength (Nat.pow 2 32 - 1)

/-! ### Arithmetic -/

/-- The sum, rounded once. Only two negative zeros have a negative zero as their sum. -/
def add : Number → Number → Number
  | .nan, _ => .nan
  | _, .nan => .nan
  | .infinity left, .infinity right => if left = right then .infinity left else .nan
  | .infinity sign, .finite .. => .infinity sign
  | .finite .., .infinity sign => .infinity sign
  | .finite leftSign leftMantissa leftScale _, .finite rightSign rightMantissa rightScale _ =>
    let left := signed leftSign (leftMantissa * Nat.pow 2 leftScale)
    let right := signed rightSign (rightMantissa * Nat.pow 2 rightScale)
    if left + right = 0 then nearest (leftSign && rightSign) 0 1 else ofSteps (left + right)

/-- The product, rounded once. -/
def mul : Number → Number → Number
  | .nan, _ => .nan
  | _, .nan => .nan
  | .infinity left, .infinity right => .infinity (left != right)
  | .infinity left, .finite right mantissa _ _ =>
    if mantissa = 0 then .nan else .infinity (left != right)
  | .finite left mantissa _ _, .infinity right =>
    if mantissa = 0 then .nan else .infinity (left != right)
  | .finite leftSign leftMantissa leftScale _, .finite rightSign rightMantissa rightScale _ =>
    nearest (leftSign != rightSign)
      (leftMantissa * Nat.pow 2 leftScale * (rightMantissa * Nat.pow 2 rightScale)) one

end Number

end EcmaCore
