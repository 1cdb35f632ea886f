/-
This file is the program: it hands the arguments to the command line, writes the
output and exits with the code.
-/

import EcmaCore.CommandLine

/-- Runs the command line. -/
def main (arguments : List String) : IO UInt32 := do
  let ending := EcmaCore.CommandLine.run arguments
  IO.print ending.output
  return UInt32.ofNat ending.code
