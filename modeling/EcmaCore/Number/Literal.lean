/-
This file reads the number that a string spells when a script converts it. Blanks at
the ends do not count; what is left is empty, a signed infinity, an unsigned literal
in base 16, 8 or 2, or a signed decimal literal. Every other text is NaN.
-/

import EcmaCore.Number.Decimal
import EcmaCore.Text.Blank

namespace EcmaCore

/-! ### Decimal literals -/

/-- The sign that a text starts with, whether it is a minus, and the rest. -/
def spanSign : List Char → Bool × List Char
  | '-' :: rest => (true, rest)
  | '+' :: rest => (false, rest)
  | rest => (false, rest)

/-- The digits after a point, if the text starts with one. -/
def spanFraction : List Char → List Nat × List Char
  | '.' :: rest => spanDigits rest
  | rest => ([], rest)

/-- The sign and digits of an exponent that is the whole text. An empty text is an exponent of
zero; the letter needs at least one digit after it. -/
def exponent? : List Char → Option (Bool × List Nat)
  | [] => some (false, [])
  | letter :: rest =>
    if letter = 'e' ∨ letter = 'E' then
      let (negative, digits) := spanSign rest
      match spanDigits digits with
      | (value :: values, []) => some (negative, value :: values)
      | _ => none
    else none

/-- The decimal literal that is the whole text: an optional sign, digits with an optional fraction
or a fraction alone, and an optional exponent. -/
def numeral? (text : List Char) : Option Numeral :=
  let (negative, unsigned) := spanSign text
  let (whole, afterWhole) := spanDigits unsigned
  let (fraction, afterFraction) := spanFraction afterWhole
  if whole.isEmpty && fraction.isEmpty then none
  else (exponent? afterFraction).map fun (exponentNegative, exponent) =>
    ⟨negative, whole, fraction, exponentNegative, exponent⟩

/-! ### Literals in other bases -/

/-- The number that digits spell in a base, collected from the left with a rounding at every
digit. -/
def Number.ofRadixDigits (base : Nat) (digits : List Nat) : Number :=
  digits.foldl (fun value digit => (value.mul (.ofNat base)).add (.ofNat digit)) .zero

/-- The base that the two leading characters of a literal name. -/
def radix? : List Char → Option (Nat × List Char)
  | '0' :: 'x' :: rest => some (16, rest)
  | '0' :: 'X' :: rest => some (16, rest)
  | '0' :: 'o' :: rest => some (8, rest)
  | '0' :: 'O' :: rest => some (8, rest)
  | '0' :: 'b' :: rest => some (2, rest)
  | '0' :: 'B' :: rest => some (2, rest)
  | _ => none

/-- The number that all characters spell in a base, of which there must be one. -/
def radixLiteral? (base : Nat) (text : List Char) : Option Number :=
  if text.isEmpty then none
  else (text.mapM (digitValue? base)).map (Number.ofRadixDigits base)

/-! ### Conversion -/

/-- The number that a text without blanks at its ends spells. -/
def literal? (text : List Char) : Option Number :=
  if text.isEmpty then some .zero
  else if text = "Infinity".toList ∨ text = "+Infinity".toList then some (.infinity false)
  else if text = "-Infinity".toList then some (.infinity true)
  else match radix? text with
    | some (base, digits) => radixLiteral? base digits
    | none => (numeral? text).map Numeral.toNumber

/-- The number that a string spells, NaN if it spells none. -/
def Number.ofText (text : List Char) : Number := (literal? (trimBlanks text)).getD .nan

end EcmaCore
