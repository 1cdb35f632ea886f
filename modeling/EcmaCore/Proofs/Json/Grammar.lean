/-
This file holds the grammar of JSON texts, apart from any reader. Each relation is
between what is spelled, a text that starts with its spelling, and the rest of the
text after it, so a whole text spells a tree when nothing is left.

One tree has many spellings: blanks may stand around every token, a unit of a string
may stand for itself or be escaped, and a number may be written in any numeral that it
is the nearest to. A text has at most one tree all the same, and the nesting of the text
is the depth of its tree.

The last relation is about texts that go too deep. It does not ask for a whole text:
what stands before the bracket that opens one level too many must be in order, and
what stands after it may be anything.
-/

import EcmaCore.Json.Reader
import EcmaCore.Proofs.Number.Decimals

namespace EcmaCore.Json

/-! ### Depth -/

mutual

/-- How deep arrays and objects nest in a tree. -/
def Tree.depth : Tree → Nat
  | .array elements => elementsDepth elements + 1
  | .object members => membersDepth members + 1
  | _ => 0

/-- The depth of the deepest element. -/
def elementsDepth : List Tree → Nat
  | [] => 0
  | tree :: rest => max tree.depth (elementsDepth rest)

/-- The depth of the deepest member. -/
def membersDepth : List (Units × Tree) → Nat
  | [] => 0
  | (_, tree) :: rest => max tree.depth (membersDepth rest)

end

namespace Grammar

/-! ### Blanks -/

/-- Tab, line feed, carriage return and space. -/
def IsBlank (unit : CodeUnit) : Prop :=
  unit = 0x09 ∨ unit = 0x0A ∨ unit = 0x0D ∨ unit = 0x20

/-- Any number of blanks. -/
inductive Blanks : Units → Units → Prop
  | none (text : Units) : Blanks text text
  | more {unit : CodeUnit} {text rest : Units} (blank : IsBlank unit) (others : Blanks text rest) :
      Blanks (unit :: text) rest

/-! ### Numbers -/

/-- Any number of decimal digits, each by its value. -/
inductive Digits : List Nat → Units → Units → Prop
  | none (text : Units) : Digits [] text text
  | more {digit : Nat} {digits : List Nat} {text rest : Units} (small : digit < 10)
      (others : Digits digits text rest) :
      Digits (digit :: digits) (UInt16.ofNat (0x30 + digit) :: text) rest

/-- The integer part: a zero alone, or digits of which the first is no zero. -/
inductive Whole : List Nat → Units → Units → Prop
  | zero (rest : Units) : Whole [0] (0x30 :: rest) rest
  | digits {first : Nat} {others : List Nat} {text rest : Units} (nonzero : first ≠ 0)
      (spelled : Digits (first :: others) text rest) : Whole (first :: others) text rest

/-- A point with at least one digit after it, or nothing. -/
inductive Fraction : List Nat → Units → Units → Prop
  | absent (text : Units) : Fraction [] text text
  | present {digit : Nat} {others : List Nat} {text rest : Units}
      (spelled : Digits (digit :: others) text rest) :
      Fraction (digit :: others) (0x2E :: text) rest

/-- The sign of an exponent, if it has one. -/
inductive ExponentSign : Bool → Units → Units → Prop
  | absent (text : Units) : ExponentSign false text text
  | plus (text : Units) : ExponentSign false (0x2B :: text) text
  | minus (text : Units) : ExponentSign true (0x2D :: text) text

/-- The letter `e` in either case, a sign and at least one digit, or nothing. -/
inductive Exponent : Bool → List Nat → Units → Units → Prop
  | absent (text : Units) : Exponent false [] text text
  | present {letter : CodeUnit} {negative : Bool} {digit : Nat} {others : List Nat}
      {text unsigned rest : Units} (named : letter = 0x45 ∨ letter = 0x65)
      (signed : ExponentSign negative text unsigned)
      (spelled : Digits (digit :: others) unsigned rest) :
      Exponent negative (digit :: others) (letter :: text) rest

/-- A number without its sign. -/
inductive Unsigned (negative : Bool) : Numeral → Units → Units → Prop
  | parts {whole fraction exponent : List Nat} {exponentNegative : Bool}
      {text afterWhole afterFraction rest : Units} (first : Whole whole text afterWhole)
      (second : Fraction fraction afterWhole afterFraction)
      (third : Exponent exponentNegative exponent afterFraction rest) :
      Unsigned negative ⟨negative, whole, fraction, exponentNegative, exponent⟩ text rest

/-- A number. -/
inductive Number : Numeral → Units → Units → Prop
  | positive {numeral : Numeral} {text rest : Units} (spelled : Unsigned false numeral text rest) :
      Number numeral text rest
  | negative {numeral : Numeral} {text rest : Units} (spelled : Unsigned true numeral text rest) :
      Number numeral (0x2D :: text) rest

/-! ### Strings -/

/-- A hexadecimal digit, in either case. -/
inductive HexDigit : Nat → CodeUnit → Prop
  | decimal {value : Nat} (small : value < 10) : HexDigit value (UInt16.ofNat (0x30 + value))
  | lower {value : Nat} (small : value < 6) : HexDigit (10 + value) (UInt16.ofNat (0x61 + value))
  | upper {value : Nat} (small : value < 6) : HexDigit (10 + value) (UInt16.ofNat (0x41 + value))

/-- A unit and the letter that stands for it after a backslash. -/
inductive Escape : CodeUnit → CodeUnit → Prop
  | quote : Escape 0x22 0x22
  | backslash : Escape 0x5C 0x5C
  | slash : Escape 0x2F 0x2F
  | backspace : Escape 0x08 0x62
  | formFeed : Escape 0x0C 0x66
  | lineFeed : Escape 0x0A 0x6E
  | carriageReturn : Escape 0x0D 0x72
  | tab : Escape 0x09 0x74

/-- The rest of a string after its opening quote. Every unit from the space on may stand for
itself, lone surrogates included, except the quote and the backslash. -/
inductive StringBody : Units → Units → Units → Prop
  | close (rest : Units) : StringBody [] (0x22 :: rest) rest
  | raw {unit : CodeUnit} {units text rest : Units} (printable : 0x20 ≤ unit.toNat)
      (noQuote : unit ≠ 0x22) (noBackslash : unit ≠ 0x5C) (others : StringBody units text rest) :
      StringBody (unit :: units) (unit :: text) rest
  | escape {unit letter : CodeUnit} {units text rest : Units} (known : Escape unit letter)
      (others : StringBody units text rest) :
      StringBody (unit :: units) (0x5C :: letter :: text) rest
  | unicode {a b c d : Nat} {first second third fourth : CodeUnit} {units text rest : Units}
      (high : HexDigit a first) (upper : HexDigit b second) (lower : HexDigit c third)
      (low : HexDigit d fourth) (others : StringBody units text rest) :
      StringBody (UInt16.ofNat (a * 0x1000 + b * 0x100 + c * 0x10 + d) :: units)
        (0x5C :: 0x75 :: first :: second :: third :: fourth :: text) rest

/-! ### Values -/

/-- Elements with commas between them, and the closing bracket. -/
inductive Elements (Item : Tree → Units → Units → Prop) : List Tree → Units → Units → Prop
  | last {tree : Tree} {text start after rest : Units} (before : Blanks text start)
      (item : Item tree start after) (closed : Blanks after (0x5D :: rest)) :
      Elements Item [tree] text rest
  | more {tree : Tree} {trees : List Tree} {text start after next rest : Units}
      (before : Blanks text start) (item : Item tree start after)
      (comma : Blanks after (0x2C :: next)) (others : Elements Item trees next rest) :
      Elements Item (tree :: trees) text rest

/-- A member's key and the colon, up to the start of its value. -/
inductive MemberKey : Units → Units → Units → Prop
  | parts {key text body after colon start : Units} (before : Blanks text (0x22 :: body))
      (spelled : StringBody key body after) (between : Blanks after (0x3A :: colon))
      (last : Blanks colon start) : MemberKey key text start

/-- Members with commas between them, and the closing brace. -/
inductive Members (Item : Tree → Units → Units → Prop) :
    List (Units × Tree) → Units → Units → Prop
  | last {key : Units} {tree : Tree} {text start after rest : Units}
      (name : MemberKey key text start) (item : Item tree start after)
      (closed : Blanks after (0x7D :: rest)) : Members Item [(key, tree)] text rest
  | more {key : Units} {tree : Tree} {members : List (Units × Tree)}
      {text start after next rest : Units} (name : MemberKey key text start)
      (item : Item tree start after) (comma : Blanks after (0x2C :: next))
      (others : Members Item members next rest) : Members Item ((key, tree) :: members) text rest

/-- A value that starts with the first unit. Of a number the tree has the nearest that there is. -/
inductive Value : Tree → Units → Units → Prop
  | null (rest : Units) : Value .null (unitsOf "null" ++ rest) rest
  | trueWord (rest : Units) : Value (.boolean true) (unitsOf "true" ++ rest) rest
  | falseWord (rest : Units) : Value (.boolean false) (unitsOf "false" ++ rest) rest
  | number {numeral : Numeral} {number : EcmaCore.Number} {text rest : Units}
      (spelled : Number numeral text rest) (denotes : numeral.Denotes number) :
      Value (.number number) text rest
  | string {units text rest : Units} (spelled : StringBody units text rest) :
      Value (.string units) (0x22 :: text) rest
  | emptyArray {text rest : Units} (closed : Blanks text (0x5D :: rest)) :
      Value (.array []) (0x5B :: text) rest
  | array {elements : List Tree} {text rest : Units} (spelled : Elements Value elements text rest) :
      Value (.array elements) (0x5B :: text) rest
  | emptyObject {text rest : Units} (closed : Blanks text (0x7D :: rest)) :
      Value (.object []) (0x7B :: text) rest
  | object {members : List (Units × Tree)} {text rest : Units}
      (spelled : Members Value members text rest) : Value (.object members) (0x7B :: text) rest

/-- A whole text: one value with blanks around it. -/
inductive Document : Tree → Units → Prop
  | parts {tree : Tree} {text start after : Units} (before : Blanks text start)
      (spelled : Value tree start after) (closed : Blanks after []) : Document tree text

/-! ### Texts that go too deep -/

/-- An array after its opening bracket, up to the start of one of its elements. The elements before
that one nest at most `room` deep. -/
inductive ArrayStart (room : Nat) : Units → Units → Prop
  | first {text start : Units} (before : Blanks text start) : ArrayStart room text start
  | next {tree : Tree} {text start after more last : Units} (before : Blanks text start)
      (item : Value tree start after) (shallow : tree.depth ≤ room)
      (comma : Blanks after (0x2C :: more)) (others : ArrayStart room more last) :
      ArrayStart room text last

/-- An object after its opening brace, up to the start of the value of one of its members. The
members before that one nest at most `room` deep. -/
inductive ObjectStart (room : Nat) : Units → Units → Prop
  | first {key text start : Units} (name : MemberKey key text start) : ObjectStart room text start
  | next {key : Units} {tree : Tree} {text start after more last : Units}
      (name : MemberKey key text start) (item : Value tree start after)
      (shallow : tree.depth ≤ room) (comma : Blanks after (0x2C :: more))
      (others : ObjectStart room more last) : ObjectStart room text last

/-- A value that may nest `room` deep comes to a bracket or brace that opens one level more, and
the grammar is kept up to there. -/
inductive Overflows : Nat → Units → Prop
  | bracket (text : Units) : Overflows 0 (0x5B :: text)
  | brace (text : Units) : Overflows 0 (0x7B :: text)
  | array {room : Nat} {text start : Units} (opened : ArrayStart room text start)
      (deeper : Overflows room start) : Overflows (room + 1) (0x5B :: text)
  | object {room : Nat} {text start : Units} (opened : ObjectStart room text start)
      (deeper : Overflows room start) : Overflows (room + 1) (0x7B :: text)

/-- A whole text goes deeper than 512 levels before it breaks any other rule. -/
inductive TooDeep : Units → Prop
  | parts {text start : Units} (before : Blanks text start) (deeper : Overflows 512 start) :
      TooDeep text

end Grammar

end EcmaCore.Json
