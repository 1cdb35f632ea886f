/-
This file holds the two sets of blank characters. The blanks around a number in a
string are the characters with the Unicode property White_Space and the byte order
mark; those around a token of JSON are four code units.
-/

import EcmaCore.Text.Ranges
import EcmaCore.Text.Units

namespace EcmaCore

/-- The code point ranges of the characters with the property White_Space, and U+FEFF. -/
def blankRanges : List (Nat × Nat) :=
  [(0x9, 0xD), (0x20, 0x20), (0x85, 0x85), (0xA0, 0xA0), (0x1680, 0x1680), (0x2000, 0x200A),
    (0x2028, 0x2029), (0x202F, 0x202F), (0x205F, 0x205F), (0x3000, 0x3000), (0xFEFF, 0xFEFF)]

/-- The character may stand around a number in a string. -/
def isBlank (char : Char) : Bool := inRanges blankRanges char

/-- The text without the blanks at its two ends. -/
def trimBlanks (text : List Char) : List Char :=
  ((text.dropWhile isBlank).reverse.dropWhile isBlank).reverse

/-- The unit may stand between two tokens of JSON: tab, line feed, carriage return or space. -/
def isJsonBlank (unit : CodeUnit) : Bool :=
  unit == 0x09 || unit == 0x0A || unit == 0x0D || unit == 0x20

/-- The text from its first unit that is no JSON blank. -/
def skipBlanks (text : Units) : Units := text.dropWhile isJsonBlank

end EcmaCore
