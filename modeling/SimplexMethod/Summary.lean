import SimplexMethod.Layout
import SimplexMethod.Report

/-!
# Summary of runs

One line per run, in a table of fixed columns.

A time that was not measured fills its cell with asterisks.

## Main definitions

* `Summary.Entry`: What a line tells about a run.
* `Summary.text`: The table.
* `Report.entry`, `Rejection.entry`: The line of a run, and of a program that
  was refused.
-/

namespace SimplexMethod

open Layout

namespace Summary

/-- What a line of the summary tells about a run. -/
structure Entry (α : Type) where
  /-- The name of the run. -/
  name : String
  /-- The method and its rules. -/
  algorithm : String
  /-- The outcome, if it has a name. -/
  status : Option Status
  /-- The objective value. -/
  value : α
  /-- The number of pivots. -/
  iterations : Int
  /-- The time the run took in seconds, if it was measured. -/
  elapsed : Option α

/-- The titles of the columns and their widths. -/
def columns : List (String × Nat) :=
  [("LP NAME", 24), ("SIMPLEX ALGO TYPE", 70), ("LP OPT RESULT", 25), ("OPT VALUE", 20),
    ("ITER COUNT", 12), ("TIME [S]", 14)]

/-- The width of the table, each column with its bar. -/
def width : Nat := total (columns.map fun (_, width) => width + 1)

/-- A line of the table: one text per column. -/
def line (texts : List String) : String :=
  concat (List.zipWith (fun (_, width) text => centred width text ++ "|") columns texts)

/-- The line under each line of the table. -/
def rule : String := fill '-' width

/-- The text of the time cell. -/
def timeText {α : Type} (N : NumberText α) : Option α → String
  | some seconds => N.cell seconds
  | none => fill '*' 14

/-- The texts of an entry. -/
def Entry.texts {α : Type} (N : NumberText α) (e : Entry α) : List String :=
  [e.name, e.algorithm, Status.labelOf e.status, N.plain e.value, toString e.iterations,
    timeText N e.elapsed]

/-- The table: a line of titles and a line per entry, each underlined. -/
def text {α : Type} (N : NumberText α) (entries : List (Entry α)) : String :=
  unlines ("" :: line (columns.map Prod.fst) :: rule ::
    entries.flatMap fun e => [line (e.texts N), rule])

end Summary

variable {α : Type}

/-- The summary line of a run whose time has not been measured. -/
def Report.entry (r : Report α) : Summary.Entry α where
  name := r.name
  algorithm := r.algorithm
  status := some r.status
  value := r.value
  iterations := r.iterations
  elapsed := none

/-- The summary line of a program that was refused: the kind of refusal stands
    for the method. -/
def Rejection.entry (K : Arithmetic α) (name : String) (cause : Rejection α) :
    Summary.Entry α where
  name := name
  algorithm := cause.kind.label
  status := some cause.kind.status
  value := K.zero
  iterations := 0
  elapsed := none

end SimplexMethod
