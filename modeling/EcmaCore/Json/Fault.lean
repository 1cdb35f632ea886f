/-
This file holds the reasons for which a JSON text is refused. A fault of spelling
names the offending unit and its position; a text that breaks off has neither; and
nesting beyond the limit is a fault of size, not of spelling.
-/

import EcmaCore.Text.Units

namespace EcmaCore.Json

/-- Why a JSON text, or a structure to be written as one, is refused. -/
inductive Fault
  | unexpectedEnd
  | unexpectedToken (unit : CodeUnit) (position : Nat)
  | unterminatedString
  | controlCharacter (position : Nat)
  | badEscape (unit : CodeUnit) (position : Nat)
  | badUnicodeEscape (position : Nat)
  | leadingZero (position : Nat)
  | tooDeep
deriving DecidableEq, Repr

/-- The wording of a fault. -/
def Fault.message : Fault → String
  | .unexpectedEnd => "Unexpected end of JSON input"
  | .unexpectedToken unit position =>
    "Unexpected token '" ++ displayed [unit] ++ "' in JSON at position " ++ toString position
  | .unterminatedString => "Unterminated string in JSON"
  | .controlCharacter position =>
    "Bad control character in string literal in JSON at position " ++ toString position
  | .badEscape unit position =>
    "Bad escaped character '\\" ++ displayed [unit] ++ "' in JSON at position " ++
      toString position
  | .badUnicodeEscape position => "Bad Unicode escape in JSON at position " ++ toString position
  | .leadingZero position =>
    "Leading zeros are not allowed in JSON numbers at position " ++ toString position
  | .tooDeep => "Maximum JSON nesting depth exceeded"

end EcmaCore.Json
