/-
This file reads digits: the value of one digit in a base of at most sixteen, the
digits that a text starts with, and the natural number that a sequence of decimal
digit values spells.
-/

namespace EcmaCore

/-- The value of the digit with a code point, in a base of at most sixteen. -/
def digitOfCode? (base code : Nat) : Option Nat :=
  let value :=
    if 0x30 ≤ code ∧ code ≤ 0x39 then code - 0x30
    else if 0x61 ≤ code ∧ code ≤ 0x66 then code - 0x61 + 10
    else if 0x41 ≤ code ∧ code ≤ 0x46 then code - 0x41 + 10
    else base
  if value < base then some value else none

/-- The value of a digit character. -/
def digitValue? (base : Nat) (char : Char) : Option Nat := digitOfCode? base char.toNat

/-- The values of the decimal digits that a text starts with, and the rest. -/
def spanDigits : List Char → List Nat × List Char
  | [] => ([], [])
  | char :: rest =>
    match digitValue? 10 char with
    | some value => let (values, others) := spanDigits rest; (value :: values, others)
    | none => ([], char :: rest)

/-- The natural number that a sequence of digit values spells in base ten. -/
def ofDigits (digits : List Nat) : Nat := digits.foldl (fun value digit => value * 10 + digit) 0

end EcmaCore
