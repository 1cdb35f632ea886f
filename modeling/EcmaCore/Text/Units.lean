/-
This file holds strings as a script sees them: finite sequences of 16-bit code
units, with no condition on surrogates. A unit sequence is read as a sequence of
pieces, each a Unicode scalar value or a surrogate that has no partner, and every
conversion to text is a choice of what to write for the second kind of piece.

A sequence is well formed when no piece is a lone surrogate. Such a sequence and
a character string determine each other, so conversion loses nothing exactly there.
-/

namespace EcmaCore

/-- One 16-bit unit of a string. -/
abbrev CodeUnit := UInt16

/-- A string value: any finite sequence of code units. -/
abbrev Units := List CodeUnit

namespace CodeUnit

/-- The first half of a surrogate pair. -/
def IsHigh (unit : CodeUnit) : Prop := 0xD800 ≤ unit.toNat ∧ unit.toNat < 0xDC00

/-- The second half of a surrogate pair. -/
def IsLow (unit : CodeUnit) : Prop := 0xDC00 ≤ unit.toNat ∧ unit.toNat < 0xE000

instance (unit : CodeUnit) : Decidable (IsHigh unit) := inferInstanceAs (Decidable (_ ∧ _))

instance (unit : CodeUnit) : Decidable (IsLow unit) := inferInstanceAs (Decidable (_ ∧ _))

/-- The code point that a high and a low surrogate spell together. -/
def joined (high low : CodeUnit) : Char :=
  Char.ofNat (0x10000 + (high.toNat - 0xD800) * 0x400 + (low.toNat - 0xDC00))

end CodeUnit

open CodeUnit

/-! ### Pieces -/

/-- What a decoder meets in a unit sequence: a scalar value or a surrogate on its own. -/
inductive Piece
  | scalar (char : Char)
  | lone (unit : CodeUnit)
deriving DecidableEq, Repr

/-- A unit that takes part in no pair. -/
def Piece.ofUnit (unit : CodeUnit) : Piece :=
  if IsHigh unit ∨ IsLow unit then .lone unit else .scalar (Char.ofNat unit.toNat)

/-- A high surrogate pairs with a low one that follows it at once; any other surrogate is alone. -/
def pieces : Units → List Piece
  | [] => []
  | [unit] => [Piece.ofUnit unit]
  | first :: second :: rest =>
    if IsHigh first ∧ IsLow second then .scalar (joined first second) :: pieces rest
    else Piece.ofUnit first :: pieces (second :: rest)

/-- The piece is a scalar value. -/
def Piece.IsScalar : Piece → Prop
  | .scalar _ => True
  | .lone _ => False

instance : DecidablePred Piece.IsScalar
  | .scalar _ => .isTrue trivial
  | .lone _ => .isFalse id

/-- No surrogate of the sequence is without its partner. -/
def WellFormed (units : Units) : Prop := ∀ piece ∈ pieces units, piece.IsScalar

instance (units : Units) : Decidable (WellFormed units) :=
  inferInstanceAs (Decidable (∀ piece ∈ pieces units, piece.IsScalar))

/-! ### From characters -/

/-- One unit up to U+FFFF, a surrogate pair above. -/
def unitsOfChar (char : Char) : Units :=
  if char.toNat < 0x10000 then [UInt16.ofNat char.toNat]
  else
    [UInt16.ofNat (0xD800 + (char.toNat - 0x10000) / 0x400),
      UInt16.ofNat (0xDC00 + (char.toNat - 0x10000) % 0x400)]

/-- The code units of a character string. -/
def unitsOf (text : String) : Units := text.toList.flatMap unitsOfChar

/-! ### To characters -/

/-- The text of a unit sequence in which every lone surrogate becomes U+FFFD. -/
def lossyChars (units : Units) : List Char :=
  (pieces units).map fun
    | .scalar char => char
    | .lone _ => '\uFFFD'

/-- `lossyChars` as a string. -/
def lossy (units : Units) : String := String.ofList (lossyChars units)

/-- The digit of a hexadecimal place, in lower case. -/
def hexDigit (value : Nat) : Char := Nat.digitChar (value % 16)

/-- Four hexadecimal digits, in lower case. -/
def fourHex (value : Nat) : List Char :=
  [hexDigit (value / 0x1000), hexDigit (value / 0x100), hexDigit (value / 0x10), hexDigit value]

/-- The text of a unit sequence in which every lone surrogate is spelled as an escape, so that a
message about a string still tells which units it holds. -/
def displayChars (units : Units) : List Char :=
  (pieces units).flatMap fun
    | .scalar char => [char]
    | .lone unit => '\\' :: 'u' :: fourHex unit.toNat

/-- `displayChars` as a string. -/
def displayed (units : Units) : String := String.ofList (displayChars units)

end EcmaCore
