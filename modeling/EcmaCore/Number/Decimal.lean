/-
This file holds decimal numerals: a coefficient with a power of ten, how a written
numeral denotes one, and the number nearest to it. Exponents may be as large as a
text can spell them, so the extreme ones are settled by size before any power of
ten is formed.
-/

import EcmaCore.Number.Basic
import EcmaCore.Text.Digits

namespace EcmaCore

/-- The decimal value `coefficient * 10 ^ exponent`, below zero when `negative`. -/
structure Decimal where
  negative : Bool
  coefficient : Nat
  exponent : Int
deriving DecidableEq, Repr

/-- The number nearest to a decimal. From `10 ^ 400` on every magnitude is infinite, and one below
`2 ^ -1076` rounds to zero. -/
def Decimal.toNumber (decimal : Decimal) : Number :=
  match decimal.exponent with
  | .ofNat exponent =>
    if decimal.coefficient = 0 then .nearest decimal.negative 0 1
    else if 400 < exponent then .infinity decimal.negative
    else .nearest decimal.negative (decimal.coefficient * Nat.pow 10 exponent * Number.one) 1
  | .negSucc below =>
    if decimal.coefficient.log2 + 1080 < 3 * below then .nearest decimal.negative 0 1
    else .nearest decimal.negative (decimal.coefficient * Number.one) (Nat.pow 10 (below + 1))

/-! ### Written numerals -/

/-- The parts of a written decimal numeral, each digit by its value. -/
structure Numeral where
  negative : Bool
  whole : List Nat
  fraction : List Nat
  exponentNegative : Bool
  exponent : List Nat
deriving DecidableEq, Repr

/-- The decimal that a numeral denotes: the point stands before the fraction, and the exponent
moves it. -/
def Numeral.toDecimal (numeral : Numeral) : Decimal :=
  let exponent : Int := ofDigits numeral.exponent
  { negative := numeral.negative
    coefficient := ofDigits (numeral.whole ++ numeral.fraction)
    exponent := (if numeral.exponentNegative then -exponent else exponent) -
      numeral.fraction.length }

/-- The number nearest to what a numeral denotes. -/
def Numeral.toNumber (numeral : Numeral) : Number := numeral.toDecimal.toNumber

end EcmaCore
