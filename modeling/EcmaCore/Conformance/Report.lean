/-
This file holds the report of a run of checks: one entry for each check, in order, and
its two written forms, lines of text and a JSON document.
-/

import EcmaCore.Json.Tree

namespace EcmaCore

/-- What a run found about one check; no complaint is a pass. -/
structure Entry where
  name : String
  complaint : Option String
deriving DecidableEq, Repr

/-- The check passed. -/
def Entry.passed (entry : Entry) : Bool := entry.complaint.isNone

/-- What a run found, an entry for each check. -/
structure Report where
  entries : List Entry := []
deriving DecidableEq, Repr

namespace Report

/-- The number of checks that passed. -/
def passed (report : Report) : Nat := report.entries.countP Entry.passed

/-- The number of checks that failed. -/
def failed (report : Report) : Nat := report.entries.length - report.passed

/-- No check failed. -/
def isSuccess (report : Report) : Bool := report.failed == 0

/-- The line of one entry. -/
def line (entry : Entry) : String :=
  match entry.complaint with
  | none => "PASS " ++ entry.name ++ "\n"
  | some complaint => "FAIL " ++ entry.name ++ ": " ++ complaint ++ "\n"

/-- The report as text: a line for each check, and the totals. -/
def text (report : Report) : String :=
  String.join (report.entries.map line) ++ toString report.passed ++ " passed, " ++
    toString report.failed ++ " failed"

/-- The member of a JSON object. -/
def member (name : String) (tree : Json.Tree) : Units × Json.Tree := (unitsOf name, tree)

/-- One entry as a JSON object. -/
def entryTree (entry : Entry) : Json.Tree :=
  match entry.complaint with
  | none => .object [member "name" (.ofText entry.name), member "status" (.ofText "pass")]
  | some complaint =>
    .object [member "name" (.ofText entry.name), member "status" (.ofText "fail"),
      member "message" (.ofText complaint)]

/-- The report as a JSON object: the totals, then the checks. -/
def tree (report : Report) : Json.Tree :=
  .object [member "passed" (.ofNat report.passed), member "failed" (.ofNat report.failed),
    member "checks" (.array (report.entries.map entryTree))]

/-- The report as a JSON document over lines. -/
def document (report : Report) : String := lossy (report.tree.indented 0)

end Report

end EcmaCore
