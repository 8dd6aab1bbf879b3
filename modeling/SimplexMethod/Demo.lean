import SimplexMethod.Catalogue
import SimplexMethod.Log
import SimplexMethod.Summary

/-!
# The demonstration

The catalogue, solved under given settings, with a log and a summary.

A program that is refused gets a summary line like any other. A log level that
does not exist is replaced by the usual one, after a warning.

## Main definitions

* `Demo.Settings`: What a user may set.
* `Demo.Settings.chosen`: The programs asked for.
* `Demo.solveOne`: One program, with its log and its summary line.
* `Demo.Settings.solveAll`: All of them.
* `Demo.Settings.logLines`, `Demo.summaryText`: What goes to the two files.
-/

namespace SimplexMethod

namespace Demo

/-- What a user of the demonstration may set. -/
structure Settings where
  /-- The name of the log level. -/
  levelName : String
  /-- The file the log goes to. -/
  logFile : String
  /-- The file the summary goes to. -/
  summaryFile : String
  /-- The programs to solve; all when empty. -/
  names : List String
  /-- The options of the runs. -/
  options : Options Float

/-- The settings of a user who sets nothing. -/
def Settings.standard : Settings where
  levelName := "info"
  logFile := "TableauSimplex_out.txt"
  summaryFile := "LPOptStatistics.txt"
  names := []
  options := Options.standard Arithmetic.binary64

/-- The log of one program and its summary line. -/
structure Outcome where
  /-- What is said. -/
  events : List (Event Float)
  /-- The line of the summary. -/
  entry : Summary.Entry Float

/-- The programs asked for, in the order of the catalogue. -/
def Settings.chosen (s : Settings) : List (Program Float) :=
  catalogue.filter fun P => s.names.isEmpty || s.names.contains P.name

/-- The level of the log. -/
def Settings.level (s : Settings) : Level := (Level.ofName? s.levelName).getD .info

/-- The warning about a level that does not exist. -/
def Settings.levelEvents (s : Settings) : List (Event Float) :=
  if (Level.ofName? s.levelName).isSome then [] else [.unknownLevel s.levelName]

/-- Solve one program. -/
def solveOne (s : Settings) (P : Program Float) : Outcome :=
  let K := Arithmetic.binary64
  let o := { s.options with name := P.name }
  let events := .processing P.name :: solveEvents K o P
  match solve K o P with
  | .ok report => ⟨events, report.entry⟩
  | .error cause => ⟨events ++ [.skipped P.name cause], cause.entry K P.name⟩

/-- The outcome with the time it took, in seconds. -/
def Outcome.timed (seconds : Float) (r : Outcome) : Outcome where
  events := r.events.map (Event.timed seconds)
  entry := { r.entry with elapsed := some seconds }

/-- Solve the programs asked for, without measuring time. -/
def Settings.solveAll (s : Settings) : List Outcome := s.chosen.map (solveOne s)

/-- The lines of the log. -/
def Settings.logLines (s : Settings) (outcomes : List Outcome) : List String :=
  SimplexMethod.logLines Arithmetic.binary64 NumberText.binary64 s.level
    (s.levelEvents ++ outcomes.flatMap Outcome.events)

/-- The summary. -/
def summaryText (outcomes : List Outcome) : String :=
  Summary.text NumberText.binary64 (outcomes.map Outcome.entry)

end Demo

end SimplexMethod
