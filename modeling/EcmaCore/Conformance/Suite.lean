/-
This file holds suites of checks. Every check runs in a realm of its own, in a world
of its own, so nothing that a check does can be seen by another and the order of the
checks decides nothing but the order of the report.
-/

import EcmaCore.Conformance.Report
import EcmaCore.Engine.Call

namespace EcmaCore

/-- A named check: a run that judges the realm it is given. -/
structure Check where
  name : String
  run : Caller → RealmId → Run Verdict

namespace Check

/-- The text must be refused as misspelled. -/
def invalidJson (text : String) : Check :=
  ⟨"JSON.parse rejects " ++ text, fun call realm => checkInvalid call realm text⟩

/-- The text must be accepted. -/
def validJson (text : String) : Check :=
  ⟨"JSON.parse accepts " ++ text, fun call realm => checkValid call realm text⟩

/-- Mapping must not be disturbed by an accessor that the result inherits. -/
def mapping (name : String) (warns : Bool := false) : Check :=
  ⟨name, fun call realm => checkMap call realm warns⟩

/-- The complaint of a check that has not come to an end. -/
def unfinished : String := "calls are nested beyond the bound"

/-- Runs the check in a new realm, with so many levels of calls, and says what it found. -/
def conduct (check : Check) (depth : Nat) : Entry :=
  match (check.run (callWithin depth) 0).outcome (World.fresh 1) with
  | .done verdict _ => ⟨check.name, verdict.complaint?⟩
  | .threw error _ => ⟨check.name, (Verdict.broken error).complaint?⟩
  | .cutOff => ⟨check.name, some unfinished⟩

end Check

/-- The pattern is found somewhere in the text. -/
def occursIn (pattern : List Char) : List Char → Bool
  | [] => pattern.isEmpty
  | char :: rest => pattern.isPrefixOf (char :: rest) || occursIn pattern rest

/-- Checks in the order in which they are to be run. -/
structure Suite where
  checks : List Check := []

namespace Suite

/-- Texts that every conforming parser refuses. -/
def invalidTexts : List String := ["\"\\a\"", "1.", ".8", "2.3e+", "0.3E+", "08", "06", "0x3"]

/-- Texts close to those that every conforming parser accepts. -/
def validTexts : List String := ["0", "0.5", "-0", "1e5", "\"A\"", "[]", "\x7b\"a\":[1,2]\x7d"]

/-- All texts to refuse, all texts to accept, and the mapping check. -/
def builtin (warns : Bool := false) : Suite :=
  ⟨invalidTexts.map Check.invalidJson ++ validTexts.map Check.validJson ++
    [Check.mapping "Array.prototype.map ignores inherited index accessor" warns]⟩

/-- The suite with more checks at its end. -/
def append (suite : Suite) (checks : List Check) : Suite := ⟨suite.checks ++ checks⟩

/-- The checks whose name holds a pattern. -/
def filter (suite : Suite) (pattern : String) : Suite :=
  ⟨suite.checks.filter fun check => occursIn pattern.toList check.name.toList⟩

/-- The names of the checks. -/
def names (suite : Suite) : List String := suite.checks.map Check.name

/-- Runs every check, whatever the others find. -/
def run (suite : Suite) (depth : Nat) : Report := ⟨suite.checks.map (Check.conduct · depth)⟩

end Suite

end EcmaCore
