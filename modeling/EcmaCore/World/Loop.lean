/-
This file holds the two loops of runs: over the first natural numbers and over a list.
Both collect what each step yields, in order, and stop at the first error.
-/

import EcmaCore.World.Basic

namespace EcmaCore.Run

variable {α β : Type}

/-- Runs a step at each of `remaining` indices from `index` on, after the results collected so far,
the last of them first. -/
def collectFrom (step : Nat → Run β) (collected : List β) (index : Nat) : Nat → Run (List β)
  | 0 => pure collected.reverse
  | remaining + 1 => do
    let result ← step index
    collectFrom step (result :: collected) (index + 1) remaining

/-- Runs a step at each index below a count. -/
def collect (count : Nat) (step : Nat → Run β) : Run (List β) := collectFrom step [] 0 count

/-- Runs a step on each member of a list, after the results collected so far. -/
def traverseFrom (step : α → Run β) (collected : List β) : List α → Run (List β)
  | [] => pure collected.reverse
  | member :: rest => do
    let result ← step member
    traverseFrom step (result :: collected) rest

/-- Runs a step on each member of a list. -/
def traverse (members : List α) (step : α → Run β) : Run (List β) := traverseFrom step [] members

end EcmaCore.Run
