import SimplexMethod.Flags

/-!
# The command line

Solves the catalogue and writes the log and the summary to their files.
-/

namespace SimplexMethod

namespace Demo

/-- Solve one program and measure the time it takes, in microseconds. -/
def solveTimed (s : Settings) (P : Program Float) : IO Outcome := do
  let start ← IO.monoNanosNow
  let outcome ← IO.lazyPure fun _ => solveOne s P
  let stop ← IO.monoNanosNow
  return outcome.timed (((stop - start) / 1000).toFloat / 1000000)

/-- Solve the programs asked for and write both files. -/
def runAll (s : Settings) : IO Unit := do
  let outcomes ← s.chosen.mapM (solveTimed s)
  IO.FS.writeFile s.logFile (Layout.unlines (s.logLines outcomes))
  IO.FS.writeFile s.summaryFile (summaryText outcomes)

end Demo

end SimplexMethod

/-- Run the demonstration with the settings the arguments ask for. -/
def main (arguments : List String) : IO UInt32 := do
  match SimplexMethod.Demo.Settings.ofArguments arguments with
  | .ok settings =>
    SimplexMethod.Demo.runAll settings
    return 0
  | .error argument =>
    IO.eprintln s!"cannot understand {argument}"
    return 1
