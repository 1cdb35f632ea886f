/-
This file holds membership in a character class that is given as a table of code
point ranges, first and last code point included.
-/

namespace EcmaCore

/-- Some range of the table holds the character. -/
def inRanges (ranges : List (Nat × Nat)) (char : Char) : Bool :=
  ranges.any fun (first, last) => first ≤ char.toNat && char.toNat ≤ last

end EcmaCore
