/-
This file holds what a JSON text says: a tree of literals, numbers, strings, arrays
and members. The members of an object are kept as they are written, in order and
with repetitions; what a repetition means is for the reader of the tree to say.

A tree is written either in one line, without any blank, or over lines with an
indentation of two spaces for each level.
-/

import EcmaCore.Number.Layout
import EcmaCore.Text.Units

namespace EcmaCore.Json

/-- The content of a JSON text. -/
inductive Tree
  | null
  | boolean (flag : Bool)
  | number (value : Number)
  | string (units : Units)
  | array (elements : List Tree)
  | object (members : List (Units × Tree))

instance : Inhabited Tree := ⟨.null⟩

namespace Tree

/-- A string of characters. -/
def ofText (text : String) : Tree := .string (unitsOf text)

/-- A natural number. -/
def ofNat (value : Nat) : Tree := .number (.ofNat value)

end Tree

/-! ### Strings -/

/-- A unit between quotes. The quote and the backslash are escaped, and every control unit has its
short escape or four hexadecimal digits. -/
def escapedUnit (unit : CodeUnit) : Units :=
  if unit = 0x22 then unitsOf "\\\""
  else if unit = 0x5C then unitsOf "\\\\"
  else if unit = 0x08 then unitsOf "\\b"
  else if unit = 0x09 then unitsOf "\\t"
  else if unit = 0x0A then unitsOf "\\n"
  else if unit = 0x0C then unitsOf "\\f"
  else if unit = 0x0D then unitsOf "\\r"
  else if unit.toNat < 0x20 then
    unitsOf (String.ofList ('\\' :: 'u' :: fourHex unit.toNat))
  else [unit]

/-- A string between quotes. -/
def quotedUnits (units : Units) : Units := 0x22 :: units.flatMap escapedUnit ++ [0x22]

/-! ### One line -/

mutual

/-- The text of a tree without any blank. -/
def Tree.compact : Tree → Units
  | .null => unitsOf "null"
  | .boolean flag => unitsOf (if flag then "true" else "false")
  | .number value => unitsOf value.jsonText
  | .string units => quotedUnits units
  | .array [] => [0x5B, 0x5D]
  | .array (first :: rest) => 0x5B :: first.compact ++ compactElements rest
  | .object [] => [0x7B, 0x7D]
  | .object ((key, first) :: rest) =>
    0x7B :: quotedUnits key ++ 0x3A :: first.compact ++ compactMembers rest

/-- The elements after the first, each after a comma, and the closing bracket. -/
def compactElements : List Tree → Units
  | [] => [0x5D]
  | element :: rest => 0x2C :: element.compact ++ compactElements rest

/-- The members after the first, each after a comma, and the closing brace. -/
def compactMembers : List (Units × Tree) → Units
  | [] => [0x7D]
  | (key, member) :: rest =>
    0x2C :: quotedUnits key ++ 0x3A :: member.compact ++ compactMembers rest

end

/-! ### Over lines -/

/-- The start of a line at a level. -/
def newLine (level : Nat) : Units := 0x0A :: List.replicate (2 * level) 0x20

mutual

/-- The text of a tree over lines. The level is that of the line on which the tree starts. -/
def Tree.indented (level : Nat) : Tree → Units
  | .array [] => [0x5B, 0x5D]
  | .array (first :: rest) =>
    0x5B :: newLine (level + 1) ++ first.indented (level + 1) ++ indentedElements level rest
  | .object [] => [0x7B, 0x7D]
  | .object ((key, first) :: rest) =>
    0x7B :: newLine (level + 1) ++ quotedUnits key ++ [0x3A, 0x20] ++
      first.indented (level + 1) ++ indentedMembers level rest
  | leaf => leaf.compact

/-- The elements after the first, each on its own line, and the closing bracket. -/
def indentedElements (level : Nat) : List Tree → Units
  | [] => newLine level ++ [0x5D]
  | element :: rest =>
    0x2C :: newLine (level + 1) ++ element.indented (level + 1) ++ indentedElements level rest

/-- The members after the first, each on its own line, and the closing brace. -/
def indentedMembers (level : Nat) : List (Units × Tree) → Units
  | [] => newLine level ++ [0x7D]
  | (key, member) :: rest =>
    0x2C :: newLine (level + 1) ++ quotedUnits key ++ [0x3A, 0x20] ++
      member.indented (level + 1) ++ indentedMembers level rest

end

end EcmaCore.Json
