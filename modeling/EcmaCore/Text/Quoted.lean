/-
This file writes a string in double quotes for a reader of diagnostics. A character
that would not be seen, or that would change how the line reads, is written as an
escape.
-/

import EcmaCore.Text.Printable

namespace EcmaCore

/-- The characters that stand for one character between double quotes. -/
def quotedChar (char : Char) : List Char :=
  if char = '\x00' then ['\\', '0']
  else if char = '\t' then ['\\', 't']
  else if char = '\r' then ['\\', 'r']
  else if char = '\n' then ['\\', 'n']
  else if char = '"' ∨ char = '\\' then ['\\', char]
  else if isPrintable char then [char]
  else ['\\', 'u', '\x7b'] ++ Nat.toDigits 16 char.toNat ++ ['\x7d']

/-- The text between double quotes with its escapes. -/
def quoted (text : String) : String :=
  String.ofList ('"' :: text.toList.flatMap quotedChar ++ ['"'])

end EcmaCore
