/-
This file writes numbers. The digits are those of the shortest decimal; a layout
decides where the point stands and when an exponent is written. Two layouts are in
use: the one of string conversion and the one of JSON output, which agree on every
integer below `2 ^ 53` and part at larger magnitudes and at small fractions.
-/

import EcmaCore.Number.Shortest

namespace EcmaCore

/-- The decisions of a number format. A value `0.ddd * 10 ^ point` is written without an exponent
while `least < point` and `point ≤ most`. -/
structure Layout where
  least : Int
  most : Int
  /-- An integer written positionally still shows an empty fraction. -/
  emptyFraction : Bool
  tie : Tie
deriving DecidableEq, Repr

namespace Layout

/-- The digits with a point at the given place, by padding with zeros on either side. -/
def positional (layout : Layout) (digits : List Char) (point : Int) : List Char :=
  if point ≤ 0 then '0' :: '.' :: List.replicate (-point).toNat '0' ++ digits
  else if digits.length ≤ point.toNat then
    digits ++ List.replicate (point.toNat - digits.length) '0' ++
      (if layout.emptyFraction then ['.', '0'] else [])
  else digits.take point.toNat ++ '.' :: digits.drop point.toNat

/-- The digits with the point after the first and the exponent with its sign. -/
def exponential (digits : List Char) (point : Int) : List Char :=
  let exponent := point - 1
  let mantissa := match digits with
    | first :: second :: rest => first :: '.' :: second :: rest
    | short => short
  mantissa ++ 'e' :: (if exponent < 0 then '-' else '+') :: Nat.toDigits 10 exponent.natAbs

/-- The text of a positive decimal. -/
def decimal (layout : Layout) (value : Decimal) : List Char :=
  let digits := Nat.toDigits 10 value.coefficient
  let point := digits.length + value.exponent
  if layout.least < point ∧ point ≤ layout.most then layout.positional digits point
  else exponential digits point

/-- The layout of string conversion: positional from `10 ^ -6` up to below `10 ^ 21`, a tie going
away from zero. -/
def script : Layout := ⟨-6, 21, false, .away⟩

/-- The layout of JSON numbers that are not safe integers: positional from `10 ^ -5` up to below
`10 ^ 16`, always with a fraction there, a tie going to the even digit. -/
def json : Layout := ⟨-5, 16, true, .even⟩

end Layout

namespace Number

/-- The text of a number that is neither zero nor infinite nor NaN. -/
def laidOut (number : Number) (layout : Layout) : List Char :=
  match number.shortest? layout.tie with
  | some value =>
    if value.negative then '-' :: layout.decimal value else layout.decimal value
  | none => []

/-- The text of a number as a script sees it. Both zeros are written alike. -/
def text (number : Number) : String :=
  match number with
  | .nan => "NaN"
  | .infinity negative => if negative then "-Infinity" else "Infinity"
  | _ => if number.isZero then "0" else String.ofList (number.laidOut .script)

/-- The text of an integer in base ten. -/
def integerText (value : Int) : List Char :=
  if value < 0 then '-' :: Nat.toDigits 10 value.natAbs else Nat.toDigits 10 value.natAbs

/-- The text of a number in JSON output: a safe integer by its digits, anything else by the JSON
layout. JSON has no text for NaN and the infinities, which are written as null. -/
def jsonText (number : Number) : String :=
  match number.integer? with
  | some value =>
    if value.natAbs ≤ maxSafeInteger then String.ofList (integerText value)
    else String.ofList (number.laidOut .json)
  | none => if number.isFinite then String.ofList (number.laidOut .json) else "null"

end Number

end EcmaCore
