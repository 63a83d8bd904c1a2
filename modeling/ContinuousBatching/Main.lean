/-
**The program.**

Reads the files that the command line names, carries a simulated run out, and prints its report to
standard output: a line for each request, a line with the number of steps, and the totals as JSON.
Why a run failed goes to standard error.
-/

import ContinuousBatching.Simulation.Run

namespace ContinuousBatching.Simulation

/-- The files that a command line names. -/
def pathsOf (commandLine : List String) : List String :=
  match Arguments.ofList commandLine with
  | .ok arguments => arguments.config.toList ++ arguments.tokenizer.toList
  | .error _ => []

/-- Reads a file, if that is possible. -/
def load (path : String) : IO (String × Option ByteArray) := do
  try
    let bytes ← IO.FS.readBinFile path
    return (path, some bytes)
  catch _ => return (path, none)

/-- Prints why a run failed. -/
def printTrouble : Outcome → IO Unit
  | .success _ | .help => pure ()
  | .failure cause => IO.eprintln ("the run failed: " ++ cause.message)
  | .fault .outOfMemory => IO.eprintln "the run failed: memory cannot hold so much"
  | .fault _ => IO.eprintln "the run failed: a number is out of range"
  | .usage => IO.eprintln "the command line is wrong; --help shows the options"

end ContinuousBatching.Simulation

open ContinuousBatching in
/-- Carries the command line out. -/
def main (commandLine : List String) : IO UInt32 := do
  let files ← (Simulation.pathsOf commandLine).mapM Simulation.load
  let outcome := Simulation.execute commandLine fun path => (files.lookup path).join
  outcome.lines.forM IO.println
  Simulation.printTrouble outcome
  return UInt32.ofNat outcome.code
