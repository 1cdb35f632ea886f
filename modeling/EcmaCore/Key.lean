/-
This file holds property keys. A key is a sequence of code units; almost every key is
well formed and is kept as text, and only one with a lone surrogate keeps its raw
units. The second case carries the proof that no text has these units, so each unit
sequence has exactly one key and key equality is equality of the units.

A key is an array index when it is the shortest decimal text of a number up to
`2 ^ 32 - 2`. The bound leaves room for a length one above every index.
-/

import EcmaCore.Text.Digits
import EcmaCore.Text.Units

namespace EcmaCore

/-- The name of a property. -/
inductive Key
  | text (name : String)
  | raw (units : Units) (illFormed : ¬ WellFormed units)
deriving DecidableEq

/-- The largest array index. -/
def maxArrayIndex : Nat := Nat.pow 2 32 - 2

/-- The array index that a text spells: digits without a needless leading zero. -/
def indexOfText? (text : List Char) : Option Nat :=
  match text with
  | [] => none
  | '0' :: _ :: _ => none
  | digits => do
    let index := ofDigits (← digits.mapM (digitValue? 10))
    if index ≤ maxArrayIndex then some index else none

namespace Key

/-- The key of a sequence of code units. -/
def ofUnits (units : Units) : Key :=
  if wellFormed : WellFormed units then .text (lossy units) else .raw units wellFormed

/-- The code units of a key. -/
def units : Key → Units
  | .text name => unitsOf name
  | .raw units _ => units

/-- The text of a key that has no lone surrogate. -/
def text? : Key → Option String
  | .text name => some name
  | .raw .. => none

/-- The key under which an array keeps an element. -/
def ofIndex (index : Nat) : Key := .text (String.ofList (Nat.toDigits 10 index))

/-- The array index that the key is. -/
def arrayIndex? : Key → Option Nat
  | .text name => indexOfText? name.toList
  | .raw .. => none

/-- The key in a message, a lone surrogate as an escape. -/
def display : Key → String
  | .text name => name
  | .raw units _ => displayed units

/-- The key of an array's own length. -/
def length : Key := .text "length"

end Key

end EcmaCore
