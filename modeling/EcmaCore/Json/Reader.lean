/-
This file reads JSON texts. A reader takes the text that is left and returns what it
read with what is left after it, or stops: the reason, and the text from the unit at
fault on. Where a stop is in the whole text follows from how much is left, so no
reader counts positions.

The grammar is strict. Blanks stand only between tokens, a number has no needless
zero and no bare point, a string has no raw control unit and only the known escapes,
and no comma is left over. Arrays and objects nest at most 512 deep; the bracket that
would open one more is refused before anything inside it is looked at.
-/

import EcmaCore.Json.Fault
import EcmaCore.Json.Tree
import EcmaCore.Text.Blank

namespace EcmaCore.Json

/-- The limit on the nesting of arrays and objects. -/
def maxDepth : Nat := 512

/-- What a reader can object to. -/
inductive Objection
  | unexpected
  | unterminated
  | control
  | escape (unit : CodeUnit)
  | unicodeEscape
  | leadingZero
  | tooDeep
deriving DecidableEq, Repr

/-- An objection and the text that is left from the unit at fault on. -/
structure Stop where
  objection : Objection
  rest : Units
deriving DecidableEq, Repr

/-- A reader takes the text that is left to what it reads and what is left then. -/
abbrev Reader (α : Type) := Units → Except Stop (α × Units)

/-- Objects to the next unit, or to the end of the text. -/
def unexpected {α : Type} (text : Units) : Except Stop α := .error ⟨.unexpected, text⟩

/-! ### Literals -/

/-- Reads the units of a word, which stands for a tree. -/
def literal (tree : Tree) : Units → Reader Tree
  | [], text => .ok (tree, text)
  | _ :: _, [] => unexpected []
  | expected :: word, unit :: text =>
    if unit = expected then literal tree word text else unexpected (unit :: text)

/-! ### Strings -/

/-- The unit that a letter after a backslash stands for. -/
def shortEscape? (unit : CodeUnit) : Option CodeUnit :=
  if unit = 0x22 ∨ unit = 0x5C ∨ unit = 0x2F then some unit
  else if unit = 0x62 then some 0x08
  else if unit = 0x66 then some 0x0C
  else if unit = 0x6E then some 0x0A
  else if unit = 0x72 then some 0x0D
  else if unit = 0x74 then some 0x09
  else none

/-- The value of the next hexadecimal digits, after the value of those before. -/
def hexDigits : Nat → Nat → Units → Except Stop CodeUnit
  | 0, value, _ => .ok (UInt16.ofNat value)
  | _ + 1, _, [] => .error ⟨.unicodeEscape, []⟩
  | count + 1, value, unit :: text =>
    match digitOfCode? 16 unit.toNat with
    | some digit => hexDigits count (value * 16 + digit) text
    | none => .error ⟨.unicodeEscape, unit :: text⟩

/-- Reads the rest of a string after its opening quote. Lone surrogates are as good as any other
unit. -/
def stringBody : Reader Units
  | [] => .error ⟨.unterminated, []⟩
  | unit :: text =>
    if unit = 0x22 then .ok ([], text)
    else if unit = 0x5C then
      match text with
      | [] => unexpected []
      | letter :: after =>
        if letter = 0x75 then
          match hexDigits 4 0 after, after with
          | .ok decoded, _ :: _ :: _ :: _ :: others =>
            (stringBody others).map fun (units, left) => (decoded :: units, left)
          | .ok _, short => .error ⟨.unicodeEscape, short⟩
          | .error stop, _ => .error stop
        else
          match shortEscape? letter with
          | some decoded => (stringBody after).map fun (units, left) => (decoded :: units, left)
          | none => .error ⟨.escape letter, unit :: text⟩
    else if unit.toNat < 0x20 then .error ⟨.control, unit :: text⟩
    else (stringBody text).map fun (units, left) => (unit :: units, left)

/-! ### Numbers -/

/-- The values of the digits that a text starts with, and the rest. -/
def spanUnitDigits : Units → List Nat × Units
  | [] => ([], [])
  | unit :: text =>
    match digitOfCode? 10 unit.toNat with
    | some digit => let (digits, left) := spanUnitDigits text; (digit :: digits, left)
    | none => ([], unit :: text)

/-- Reads one digit or more. -/
def someDigits (text : Units) : Except Stop (List Nat × Units) :=
  match spanUnitDigits text with
  | ([], left) => unexpected left
  | (digits, left) => .ok (digits, left)

/-- Reads the integer part of a number, in which a leading zero stands alone. -/
def wholePart (text : Units) : Except Stop (List Nat × Units) :=
  match spanUnitDigits text with
  | ([], left) => unexpected left
  | ([0], left) => .ok ([0], left)
  | (0 :: _ :: _, _) => .error ⟨.leadingZero, text⟩
  | (digits, left) => .ok (digits, left)

/-- Reads a fraction, if there is one. -/
def fractionPart : Reader (List Nat)
  | 0x2E :: text => someDigits text
  | text => .ok ([], text)

/-- The sign that a text starts with, whether it is a minus, and the rest. -/
def exponentSign : Units → Bool × Units
  | 0x2D :: text => (true, text)
  | 0x2B :: text => (false, text)
  | text => (false, text)

/-- Reads an exponent, if there is one. -/
def exponentPart : Reader (Bool × List Nat)
  | [] => .ok ((false, []), [])
  | letter :: text =>
    if letter = 0x45 ∨ letter = 0x65 then do
      let (negative, digits) := exponentSign text
      let (exponent, left) ← someDigits digits
      return ((negative, exponent), left)
    else .ok ((false, []), letter :: text)

/-- Reads a number after its sign. -/
def unsignedNumber (negative : Bool) (text : Units) : Except Stop (Numeral × Units) := do
  let (whole, afterWhole) ← wholePart text
  let (fraction, afterFraction) ← fractionPart afterWhole
  let ((exponentNegative, exponent), left) ← exponentPart afterFraction
  return (⟨negative, whole, fraction, exponentNegative, exponent⟩, left)

/-- Reads a number. -/
def number : Reader Numeral
  | 0x2D :: text => unsignedNumber true text
  | text => unsignedNumber false text

/-! ### Arrays and objects -/

/-- Reads elements up to the closing bracket, at most as many as `bound`. -/
def elements (element : Reader Tree) : Nat → Reader (List Tree)
  | 0, text => unexpected text
  | bound + 1, text => do
    let (tree, after) ← element (skipBlanks text)
    match skipBlanks after with
    | 0x2C :: more => do
      let (trees, left) ← elements element bound more
      return (tree :: trees, left)
    | 0x5D :: left => .ok ([tree], left)
    | other => unexpected other

/-- Reads an array after its opening bracket. Each element takes at least one unit, so the length of
the text bounds their number. -/
def array (element : Reader Tree) (text : Units) : Except Stop (Tree × Units) :=
  match skipBlanks text with
  | 0x5D :: left => .ok (.array [], left)
  | inner => do
    let (trees, left) ← elements element (inner.length + 1) inner
    return (.array trees, left)

/-- Reads the key of a member and the colon, up to the start of its value. -/
def memberKey (text : Units) : Except Stop (Units × Units) :=
  match skipBlanks text with
  | 0x22 :: body => do
    let (key, after) ← stringBody body
    match skipBlanks after with
    | 0x3A :: left => .ok (key, skipBlanks left)
    | other => unexpected other
  | other => unexpected other

/-- Reads members up to the closing brace, at most as many as `bound`. -/
def members (element : Reader Tree) : Nat → Reader (List (Units × Tree))
  | 0, text => unexpected text
  | bound + 1, text => do
    let (key, start) ← memberKey text
    let (tree, after) ← element start
    match skipBlanks after with
    | 0x2C :: more => do
      let (rest, left) ← members element bound more
      return ((key, tree) :: rest, left)
    | 0x7D :: left => .ok ([(key, tree)], left)
    | other => unexpected other

/-- Reads an object after its opening brace. -/
def object (element : Reader Tree) (text : Units) : Except Stop (Tree × Units) :=
  match skipBlanks text with
  | 0x7D :: left => .ok (.object [], left)
  | inner => do
    let (read, left) ← members element (inner.length + 1) inner
    return (.object read, left)

/-! ### Texts -/

/-- Reads a value that starts with the first unit, in which arrays and objects may nest `room`
deep. -/
def value (room : Nat) (text : Units) : Except Stop (Tree × Units) :=
  match text with
  | [] => unexpected []
  | unit :: rest =>
    if unit = 0x7B then
      match room with
      | 0 => .error ⟨.tooDeep, text⟩
      | inside + 1 => object (value inside) rest
    else if unit = 0x5B then
      match room with
      | 0 => .error ⟨.tooDeep, text⟩
      | inside + 1 => array (value inside) rest
    else if unit = 0x22 then (stringBody rest).map fun (units, left) => (.string units, left)
    else if unit = 0x2D ∨ (digitOfCode? 10 unit.toNat).isSome then
      (number text).map fun (numeral, left) => (.number numeral.toNumber, left)
    else if unit = 0x74 then literal (.boolean true) (unitsOf "true") text
    else if unit = 0x66 then literal (.boolean false) (unitsOf "false") text
    else if unit = 0x6E then literal .null (unitsOf "null") text
    else unexpected text

/-- Reads a whole text: one value with blanks around it. -/
def document (text : Units) : Except Stop Tree := do
  let (tree, after) ← value maxDepth (skipBlanks text)
  match skipBlanks after with
  | [] => .ok tree
  | other => unexpected other

/-- The fault that a stop is in a text of so many units. -/
def Stop.fault (length : Nat) (stop : Stop) : Fault :=
  let position := length - stop.rest.length
  match stop.objection, stop.rest with
  | .unexpected, [] => .unexpectedEnd
  | .unexpected, unit :: _ => .unexpectedToken unit position
  | .unterminated, _ => .unterminatedString
  | .control, _ => .controlCharacter position
  | .escape unit, _ => .badEscape unit position
  | .unicodeEscape, _ => .badUnicodeEscape position
  | .leadingZero, _ => .leadingZero position
  | .tooDeep, _ => .tooDeep

/-- What a text says, or why it is refused. -/
def parse (text : Units) : Except Fault Tree := (document text).mapError (Stop.fault text.length)

end EcmaCore.Json
