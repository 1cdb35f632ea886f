/-
This file holds what a conformance check finds: it passes, it fails with a message of
its own, or the engine raises an error that the check did not expect.
-/

import EcmaCore.Error

namespace EcmaCore

/-- The finding of one check. -/
inductive Verdict
  | passed
  | failed (message : String)
  | broken (error : Error)
deriving DecidableEq

/-- What a verdict other than a pass says. -/
def Verdict.complaint? : Verdict → Option String
  | .passed => none
  | .failed message => some message
  | .broken error => some ("unexpected engine error: " ++ error.report)

end EcmaCore
