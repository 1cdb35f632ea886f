/-
This file holds the shortest decimal of a number: of all decimals that read back as
the number, those with the fewest digits, and of these the nearest to it. The search
goes through the decimal grids from the coarsest to finer ones and looks at the
value's two neighbours on each. If any point of a grid reads back, so does one of
the neighbours, since the decimals that read back form an interval around the value.
-/

import EcmaCore.Number.Decimal

namespace EcmaCore

/-- Which of two decimals at the same distance from a number is written. -/
inductive Tie
  | away
  | even
deriving DecidableEq, Repr

namespace Shortest

/-- The two grid neighbours of a magnitude: the multiple of `10 ^ exponent` at or below it, and how
the distances to that one and to the next compare. -/
def below (steps : Nat) (exponent : Int) : Nat × Ordering :=
  let (numerator, denominator) := match exponent with
    | .ofNat power => (steps, Number.one * Nat.pow 10 power)
    | .negSucc power => (steps * Nat.pow 10 (power + 1), Number.one)
  (numerator / denominator, compare (2 * (numerator % denominator)) denominator)

/-- The decimal reads back as the magnitude. -/
def readsBack (magnitude : Number) (coefficient : Nat) (exponent : Int) : Bool :=
  Decimal.toNumber ⟨false, coefficient, exponent⟩ == magnitude

/-- The neighbour on one grid that reads back, the nearer one if both do. -/
def onGrid? (tie : Tie) (magnitude : Number) (steps : Nat) (exponent : Int) : Option Decimal :=
  let (low, nearer) := below steps exponent
  let high := low + 1
  match readsBack magnitude low exponent, readsBack magnitude high exponent with
  | false, false => none
  | true, false => some ⟨false, low, exponent⟩
  | false, true => some ⟨false, high, exponent⟩
  | true, true =>
    let chosen := match nearer with
      | .lt => low
      | .gt => high
      | .eq => match tie with
        | .away => high
        | .even => if low % 2 = 0 then low else high
    some ⟨false, chosen, exponent⟩

/-- The first hit on the grids from `10 ^ exponent` down. The exact expansion of the magnitude ends
the search at last. -/
def search (tie : Tie) (magnitude : Number) (steps : Nat) : Nat → Int → Decimal
  | 0, _ => ⟨false, steps * Nat.pow 5 1074, -1074⟩
  | grids + 1, exponent =>
    match onGrid? tie magnitude steps exponent with
    | some decimal => decimal
    | none => search tie magnitude steps grids (exponent - 1)

/-- An exponent whose power of ten is above every magnitude of the given grid steps: a power of two
is at most the same power of `10 ^ (1 / 3)`, and below one at most that of `10 ^ (3 / 10)`. -/
def ceilingExponent (steps : Nat) : Int :=
  let binary : Int := (steps.log2 : Int) - 1073
  max (binary / 3) (3 * binary / 10) + 1

end Shortest

/-- The shortest decimal of a finite number, with the number's sign. Zero has the coefficient zero;
the grids run down to the finest that any number needs. -/
def Number.shortest? (tie : Tie) : Number → Option Decimal
  | .finite negative mantissa scale canonical =>
    let steps := mantissa * Nat.pow 2 scale
    if steps = 0 then some ⟨negative, 0, 0⟩
    else
      let magnitude := Number.finite false mantissa scale canonical
      let decimal := Shortest.search tie magnitude steps 1400 (Shortest.ceilingExponent steps)
      some { decimal with negative := negative }
  | _ => none

end EcmaCore
