import SimplexMethod.Layout
import SimplexMethod.Tableau

/-!
# Tables

Programs and tableaux as tables of fixed width cells.

A frame knows the columns of a table, with a label and a kind each, and the
labels of its rows. It lays out lines: a label cell as wide as the widest
column, one cell per column, and for constraint rows a sign and a right hand
side. A column is as wide as its label needs, in bytes, and never narrower than
a number. All lines of a table of numbers have one length, as long as the numbers
fit their cells. It is that of the rule that separates its parts unless a column
has a label longer than a number cell.

Values are looked up row by row and column by column. A layout asked for more
values than it was given has no result.

The listing is the algebraic form of a program: the objective as a sum of terms,
then one labelled inequality per row, terms with a zero coefficient left out.

## Main definitions

* `Heading`, `Frame`: Columns and rows of a table.
* `Frame.rule`: The line between the parts of a table.
* `Frame.headings?`, `Frame.objective?`, `Frame.matrix?`, `Frame.tableau?`,
  `Frame.solution?`, `Frame.dual`: The parts, as lines.
* `Frame.listing?`: The algebraic form.
* `Frame.programTable?`, `Frame.tableauTable?`: Whole tables.
* `Program.text`, `Program.listing`, `Tableau.text`: Whole texts.
-/

namespace SimplexMethod

open Layout

/-- The head of a column. -/
structure Heading where
  /-- The name of the variable. -/
  label : String
  /-- Whether it is a slack variable. -/
  slack : Bool

/-- The width of a number cell, and the least width of a column. -/
def numberWidth : Nat := 18

/-- The width of the cell for a sign. -/
def signWidth : Nat := 6

namespace Heading

/-- What is printed under the label. -/
def kind (h : Heading) : String := if h.slack then "SLACK" else ""

/-- The width of the column. -/
def width (h : Heading) : Nat := max h.label.utf8ByteSize numberWidth

end Heading

/-- The columns and rows of a table. -/
structure Frame where
  /-- The columns. -/
  columns : List Heading
  /-- The labels of the rows. -/
  rows : List String

namespace Frame

variable {α : Type}

/-- The width of the label cell: that of the widest column. -/
def labelWidth (f : Frame) : Nat :=
  (f.columns.map Heading.width).foldl max numberWidth

/-- The width of the whole table. -/
def width (f : Frame) : Nat :=
  signWidth + 2 * numberWidth + 3 + f.columns.length + total (f.columns.map Heading.width)

/-- The line between the parts of a table. -/
def rule (f : Frame) : String := fill '-' f.width

/-- A cell with a text in its middle. -/
def titleCell (width : Nat) (text : String) : String := centred width text ++ "|"

/-- A cell with a number at its right, after at least one blank. -/
def numberCell (N : NumberText α) (width : Nat) (value : α) : String :=
  flushRight width (" " ++ N.cell value) ++ "|"

/-- A line of titles, one per column. -/
def titles (f : Frame) (label : String) (texts : List String) : String :=
  titleCell f.labelWidth label ++
    concat (List.zipWith (fun h text => titleCell h.width text) f.columns texts)

/-- A line of numbers, one per column. -/
def numbers (f : Frame) (N : NumberText α) (label : String) (values : List α) : String :=
  titleCell f.labelWidth label ++
    concat (List.zipWith (fun h value => numberCell N h.width value) f.columns values)

/-- A line of numbers with a sign and a right hand side. -/
def relation (f : Frame) (N : NumberText α) (label : String) (values : List α)
    (sign : String) (last : α) : String :=
  f.numbers N label values ++ titleCell signWidth sign ++ numberCell N numberWidth last

/-- The first values of an array, one per column. -/
def valuesOf? (f : Frame) (values : Array α) : Option (List α) :=
  if f.columns.length ≤ values.size then some (values.toList.take f.columns.length) else none

/-- The label of the column a map sends a row to. -/
def basicLabel? (f : Frame) (basis : Array Int) (row : Nat) : Option String := do
  let column ← basis[row]?
  if column < 0 then none
  else
    let heading ← f.columns[column.toNat]?
    return heading.label

/-- Labels and kinds of the columns and, if marks are given, whether each column
    is basic. -/
def headings? (f : Frame) (marks : Option (Array Bool)) : Option (List String) := do
  let first := f.titles "" (f.columns.map Heading.label)
  let second := f.titles "" (f.columns.map Heading.kind)
  match marks with
  | none => return [first, second]
  | some marks =>
    let values ← f.valuesOf? marks
    return [first, second,
      f.titles "" (values.map fun basic => if basic then "BASIC" else "NONBASIC")]

/-- The objective coefficients. -/
def objective? (f : Frame) (N : NumberText α) (sense : Sense) (objective : Array α) :
    Option String := do
  let values ← f.valuesOf? objective
  return f.numbers N sense.label values

/-- The constraint rows. With a basis, rows are labelled by their basic columns
    and are equations; an empty basis stands for none. -/
def matrix? (f : Frame) (N : NumberText α) (basis : Array Int) (matrix : Array (Array α))
    (bounds : Array α) : Option (List String) :=
  f.rows.zipIdx.mapM fun (label, i) => do
    let label ← if basis.isEmpty then some label else f.basicLabel? basis i
    let values ← f.valuesOf? (← matrix[i]?)
    let last ← bounds[i]?
    return f.relation N label values (if basis.isEmpty then "<=" else "=") last

/-- A tableau row: its columns, and the cell after them. -/
def tableauRow? (f : Frame) (N : NumberText α) (label sign : String) (row : Array α) :
    Option String := do
  let values ← f.valuesOf? row
  let last ← row[f.columns.length]?
  return f.relation N label values sign last

/-- The rows of a tableau, the objective row last. -/
def tableau? (f : Frame) (N : NumberText α) (basis : Array Int) (rows : Array (Array α)) :
    Option (List String) := do
  let constraints ← f.rows.zipIdx.mapM fun (_, i) => do
    let label ← f.basicLabel? basis i
    f.tableauRow? N label "=" (← rows[i]?)
  let costs ← f.tableauRow? N "REDUCED COSTS" "OBJ" (← rows[f.rows.length]?)
  return constraints ++ [costs]

/-- The shadow prices. -/
def dual (N : NumberText α) (values : Array α) : List String :=
  ["DUAL", concat (values.toList.map fun value => numberCell N numberWidth value)]

/-- The values of the first columns, as many as there are values. -/
def solution? (f : Frame) (N : NumberText α) (values : Array α) : Option (List String) :=
  if values.size ≤ f.columns.length then
    some ["SOLUTION",
      f.titles "" ((f.columns.take values.size).map Heading.label),
      f.numbers N "" values.toList]
  else none

/-- Outcome and objective value. -/
def currentValue (N : NumberText α) (status : Option Status) (value : α) : List String :=
  [s!"LP RESULT - {Status.labelOf status}", s!"CURRENT VALUE {N.precise value}"]

/-- A sum of terms, each with its sign; terms with a zero coefficient are left
    out. -/
def terms (f : Frame) (K : Arithmetic α) (N : NumberText α) (values : List α) : String :=
  concat (List.zipWith
    (fun h value => if K.eq value K.zero then "" else s!" {N.term value} {h.label}")
    f.columns values)

/-- The algebraic form of a program. -/
def listing? (f : Frame) (K : Arithmetic α) (N : NumberText α) (sense : Sense)
    (objective : Array α) (matrix : Array (Array α)) (bounds : Array α) :
    Option (List String) := do
  let goal := match sense with
    | .maximize => "max: "
    | .minimize => "min: "
  let costs ← f.valuesOf? objective
  let constraints ← f.rows.zipIdx.mapM fun (label, i) => do
    let values ← f.valuesOf? (← matrix[i]?)
    let bound ← bounds[i]?
    return s!"{label}:{f.terms K N values} <= {N.term bound};"
  return (goal ++ f.terms K N costs ++ ";") :: constraints

/-- A program under its headings. -/
def programTable? (f : Frame) (N : NumberText α) (sense : Sense) (objective : Array α)
    (matrix : Array (Array α)) (bounds : Array α) : Option (List String) := do
  return ["", f.rule] ++ (← f.headings? none) ++ [f.rule] ++
    [← f.objective? N sense objective] ++ (← f.matrix? N #[] matrix bounds) ++ [f.rule]

/-- A tableau under its headings, with the shadow prices and the point. -/
def tableauTable? (f : Frame) (N : NumberText α) (basis : Basis) (rows : Array (Array α))
    (duals point : Array α) : Option (List String) := do
  return ["", f.rule] ++ (← f.headings? (some basis.marks)) ++ [f.rule] ++
    (← f.tableau? N basis.columns rows) ++ [f.rule] ++ dual N duals ++ [f.rule] ++
    (← f.solution? N point) ++ [f.rule]

end Frame

namespace Program

variable {α : Type}

/-- The frame of a program: its variables and rows. -/
def frame (P : Program α) : Frame where
  columns := (List.range P.variableCount).map fun j => ⟨variableLabel j, false⟩
  rows := (List.range P.rowCount).map rowLabel

/-- Name and size of a program. -/
def facts (P : Program α) : List String :=
  [s!"NAME: {P.name}", s!"OBJECTIVE SENSE: {P.sense.label}",
    s!"VARIABLE COUNT: {P.variableCount}", s!"ROW COUNT: {P.rowCount}"]

/-- The program as a table, under its name and size. -/
def text (N : NumberText α) (P : Program α) : String :=
  unlines (P.facts ++ (P.frame.programTable? N P.sense P.objective P.matrix P.bounds).getD [])

/-- The algebraic form of the program. -/
def listing (K : Arithmetic α) (N : NumberText α) (P : Program α) : String :=
  unlines ("" :: (P.frame.listing? K N P.sense P.objective P.matrix P.bounds).getD [])

end Program

namespace Tableau

variable {α : Type}

/-- The frame of a tableau: variables and slacks, and the rows. -/
def frame (T : Tableau α) : Frame where
  columns := (List.range T.columnCount).map fun j =>
    ⟨T.label j, decide (T.program.variableCount ≤ j)⟩
  rows := (List.range T.rowCount).map Program.rowLabel

/-- The tableau as a table, with the shadow prices and the point. -/
def text (K : Arithmetic α) (N : NumberText α) (T : Tableau α) : String :=
  unlines ((T.frame.tableauTable? N T.basis T.rows (T.duals K) T.point).getD [])

/-- Outcome and objective value of the tableau. -/
def valueText (N : NumberText α) (T : Tableau α) : String :=
  unlines ("" :: Frame.currentValue N (some T.status) T.value)

/-- The point of the tableau. -/
def pointText (N : NumberText α) (T : Tableau α) : String :=
  unlines ("" :: (T.frame.solution? N T.point).getD [])

end Tableau

end SimplexMethod
