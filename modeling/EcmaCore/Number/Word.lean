/-
This file holds the 64-bit interchange form of a number: a sign bit, an exponent
field of eleven bits and a fraction field of 52. An exponent field of zero and one
of one share the scale zero; they differ in the leading mantissa bit, which the
word leaves out.
-/

import EcmaCore.Number.Basic

namespace EcmaCore.Number

/-- The number whose interchange word this is. Every word with the largest exponent field and some
fraction is the one NaN. -/
def ofWord (word : UInt64) : Number :=
  let negative := word.toNat / Nat.pow 2 63 = 1
  let exponent := word.toNat / Nat.pow 2 52 % Nat.pow 2 11
  let fraction := word.toNat % Nat.pow 2 52
  if exponent = Nat.pow 2 11 - 1 then
    if fraction = 0 then .infinity negative else .nan
  else if exponent = 0 then carried negative fraction 0
  else carried negative (Nat.pow 2 52 + fraction) (exponent - 1)

/-- The interchange word of a number; NaN has a positive quiet word. -/
def toWord : Number → UInt64
  | .nan => 0x7FF8000000000000
  | .infinity negative => if negative then 0xFFF0000000000000 else 0x7FF0000000000000
  | .finite negative mantissa scale _ =>
    let sign := if negative then Nat.pow 2 63 else 0
    if mantissa < Nat.pow 2 52 then UInt64.ofNat (sign + mantissa)
    else UInt64.ofNat (sign + (scale + 1) * Nat.pow 2 52 + (mantissa - Nat.pow 2 52))

end EcmaCore.Number
