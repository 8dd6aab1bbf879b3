import SimplexMethod.Log

/-!
# Worksheets

A tableau that is worked on one command at a time.

A worksheet holds a tableau, the options in force and a list of objective
values. Its commands make single pivots, choose columns and rows, run the
method, read results, ask for checks — and overwrite cells, marks and sizes at
will. A command that relies on the shape of the tableau is refused while the
shape is broken; those that repair or inspect it are not. An index that does not
exist is refused as well. A refused command changes nothing.

## Main definitions

* `Worksheet`: Tableau, options and objective values.
* `Command`: What can be asked.
* `Reply`, `Refusal`: What is answered.
* `Worksheet.perform`: Carrying out a command.
-/

namespace SimplexMethod

/-- A tableau being worked on. -/
structure Worksheet (α : Type) where
  /-- The tableau. -/
  tableau : Tableau α
  /-- The options in force. -/
  options : Options α
  /-- The objective values the checks compare. -/
  objectives : Array α

/-- What can be asked of a worksheet. Indices may be any integers. -/
inductive Command (α : Type) where
  /-- Pivot, without reading point and value. -/
  | pivot (row column : Int)
  /-- Read the point. -/
  | readPoint
  /-- Read the objective value. -/
  | readValue
  /-- Make one iteration, whose number the limit is compared with. -/
  | iterate (k : Int)
  /-- Run the method. -/
  | run
  /-- Choose the entering column. -/
  | entering
  /-- Choose the leaving row. -/
  | leaving (column : Int)
  /-- Break a tie by the row rule. -/
  | prefers (candidate current column : Int)
  /-- Compare scaled slack blocks. -/
  | lexSmaller (candidate current column : Int)
  /-- The iteration limit. -/
  | limit
  /-- Whether the limit allows an iteration. -/
  | checkLimit (k : Int)
  /-- The name of the method with its rules. -/
  | algorithm
  /-- Put other options in force. -/
  | setOptions (options : Options α)
  /-- Log the objective value if it is due. -/
  | logObjective (k : Int)
  /-- Read solution, slacks and shadow prices. -/
  | extract
  /-- The tableau as a table. -/
  | text
  /-- Outcome and objective value. -/
  | valueText
  /-- The point as a table. -/
  | pointText
  /-- Check the vertex. -/
  | checkVertex
  /-- Check the optimum. -/
  | checkOptimum
  /-- Check the vertex as a run would. -/
  | reviewVertex (k : Int)
  /-- Check the optimum as a run would. -/
  | reviewOptimum
  /-- Append an objective value. -/
  | recordObjective (value : α)
  /-- Overwrite a cell. -/
  | setCell (row column : Int) (value : α)
  /-- Overwrite a value of the point. -/
  | setPoint (column : Int) (value : α)
  /-- Overwrite the objective value. -/
  | setValue (value : α)
  /-- Overwrite an entry of the map. -/
  | setBasis (row column : Int)
  /-- Overwrite a mark. -/
  | setMark (column : Int) (marked : Bool)
  /-- Cut or add rows. -/
  | resizeRows (size : Int)
  /-- Cut or add cells of a row. -/
  | resizeRow (row size : Int)
  /-- Cut or add values of the point. -/
  | resizePoint (size : Int)

/-- Why a command is not carried out. -/
inductive Refusal where
  /-- An index or a size is out of range. -/
  | index
  /-- The shape of the tableau is broken. -/
  | shape
deriving DecidableEq

/-- What solution, slacks and shadow prices of a tableau are. -/
structure Extract (α : Type) where
  /-- The values of the variables. -/
  solution : Array α
  /-- The values of the slacks. -/
  slacks : Array α
  /-- The shadow prices of the rows. -/
  duals : Array α
  /-- The name of the program. -/
  name : String
  /-- The number of rows. -/
  rows : Nat
  /-- The number of variables. -/
  vars : Nat

/-- What a command answers. -/
inductive Reply (α : Type) where
  /-- Nothing. -/
  | silent
  /-- Yes or no. -/
  | truth (answer : Bool)
  /-- A number. -/
  | number (value : Int)
  /-- A text. -/
  | text (value : String)
  /-- The entering column, if there is one. -/
  | column (choice : Option Nat)
  /-- The leaving row, if there is one. -/
  | leaving (choice : Option (Leaving α))
  /-- The report of a run. -/
  | report (value : Report α)
  /-- A reading of the tableau. -/
  | extract (value : Extract α)
  /-- What a check found. -/
  | finding (violation : Option (Violation α))
  /-- The objective values. -/
  | objectives (values : Array α)

/-- The effect of a command. -/
structure Effect (α : Type) where
  /-- The worksheet afterwards. -/
  worksheet : Worksheet α
  /-- The answer. -/
  reply : Reply α
  /-- What is said in the log. -/
  events : List (Event α)

namespace Command

variable {α : Type}

/-- Whether a command works on a tableau of any shape. -/
def toleratesDamage : Command α → Bool
  | limit | checkLimit _ | algorithm | setOptions _ | valueText | checkVertex | checkOptimum
  | reviewVertex _ | reviewOptimum | recordObjective _ | setValue _ | setBasis _ _ | setMark _ _
  | resizeRows _ | resizeRow _ _ | resizePoint _ => true
  | _ => false

/-- Whether the tableau is worth looking at after a command. -/
def altersTableau : Command α → Bool
  | pivot _ _ | readPoint | readValue | iterate _ | run | checkLimit _ | reviewVertex _
  | reviewOptimum | setCell _ _ _ | setPoint _ _ | setValue _ | setBasis _ _ | setMark _ _
  | resizeRows _ | resizeRow _ _ | resizePoint _ => true
  | _ => false

end Command

/-- An array of another size: cut, or filled up with copies of a value. -/
def resize {β : Type} (values : Array β) (size : Nat) (filler : β) : Array β :=
  Array.ofFn fun i : Fin size => values.getD i filler

namespace Worksheet

variable {α : Type}

/-- An integer as an index below a bound. -/
def indexBelow (bound : Nat) (i : Int) : Except Refusal Nat :=
  if 0 ≤ i ∧ i < bound then .ok i.toNat else .error .index

/-- The sizes rows and columns can be given are below this bound. -/
def sizeBound : Nat := 100

/-- Open a worksheet on a program, at the origin. -/
def ofProgram (K : Arithmetic α) (o : Options α) (P : Program α) : Worksheet α where
  tableau := Tableau.ofProgram K P
  options := o
  objectives := #[]

/-- An answer that leaves the worksheet as it is. -/
def answer (w : Worksheet α) (reply : Reply α) (events : List (Event α)) : Effect α :=
  ⟨w, reply, events⟩

/-- Put another tableau on the worksheet. -/
def replace (w : Worksheet α) (T : Tableau α) (reply : Reply α) (events : List (Event α)) :
    Effect α :=
  ⟨{ w with tableau := T }, reply, events⟩

/-- Make one iteration. Point and value are not read again. The answer is whether
    the method stops. -/
def iterate (K : Arithmetic α) (w : Worksheet α) (k : Int) : Effect α :=
  let T := w.tableau
  let o := w.options
  let events := T.attemptEvents K o k
  match T.nextMove K o with
  | .optimal => w.replace (T.withStatus .optimal) (.truth true) events
  | .unbounded _ => w.replace (T.withStatus .unbounded) (.truth true) events
  | .pivot column leaving =>
    if T.limitReached o k then
      w.replace (T.withStatus .maxIterationsExceeded) (.truth true) events
    else w.replace (T.pivot K leaving.row column) (.truth false) events

/-- The tableau after a finding: a check that ends runs marks it. -/
def marking (o : Options α) (T : Tableau α) (finding : Option (Violation α)) : Tableau α :=
  if Tableau.endsRun o finding then T.withStatus .failedValidation else T

/-- Carry out a command on a worksheet whose shape permits it. -/
def execute (K : Arithmetic α) (N : NumberText α) (w : Worksheet α) :
    Command α → Except Refusal (Effect α)
  | .pivot row column => do
    let row ← indexBelow w.tableau.rowCount row
    let column ← indexBelow w.tableau.columnCount column
    return w.replace (w.tableau.pivot K row column) .silent [w.tableau.pivotEvent K row column]
  | .readPoint => return w.replace (w.tableau.readPoint K) .silent []
  | .readValue => return w.replace (w.tableau.readValue K) .silent []
  | .iterate k => return w.iterate K k
  | .run =>
    let t := w.tableau.run K w.options
    return w.replace t.last (.report (t.report K w.options)) (t.events K w.options)
  | .entering =>
    return w.answer (.column (w.tableau.entering K w.options))
      (w.tableau.choiceEvents K w.options)
  | .leaving column => do
    let column ← indexBelow w.tableau.columnCount column
    return w.answer (.leaving (w.tableau.leaving K w.options column)) []
  | .prefers candidate current column => do
    let candidate ← indexBelow w.tableau.rowCount candidate
    let current ← indexBelow w.tableau.rowCount current
    let column ← indexBelow w.tableau.columnCount column
    return w.answer (.truth (w.tableau.prefers K w.options candidate current column)) []
  | .lexSmaller candidate current column => do
    let candidate ← indexBelow w.tableau.rowCount candidate
    let current ← indexBelow w.tableau.rowCount current
    let column ← indexBelow w.tableau.columnCount column
    return w.answer
      (.truth (w.tableau.lexSmaller K w.options.tolerance candidate current column)) []
  | .limit =>
    return w.answer
      (.number (w.options.limit w.tableau.rowCount w.tableau.program.variableCount)) []
  | .checkLimit k =>
    if w.tableau.limitReached w.options k then
      return w.replace (w.tableau.withStatus .maxIterationsExceeded) (.truth false)
        [.limitReached w.options.algorithm k]
    else return w.answer (.truth true) []
  | .algorithm => return w.answer (.text w.options.algorithm) []
  | .setOptions o => return ⟨{ w with options := o }, .text o.algorithm, []⟩
  | .logObjective k => return w.answer .silent (w.tableau.objectiveEvents w.options k)
  | .extract =>
    let T := w.tableau
    return w.answer
      (.extract
        { solution := T.solution
          slacks := T.slacks
          duals := T.duals K
          name := T.program.name
          rows := T.rowCount
          vars := T.program.variableCount }) []
  | .text => return w.answer (.text (w.tableau.text K N)) []
  | .valueText => return w.answer (.text (w.tableau.valueText N)) []
  | .pointText => return w.answer (.text (w.tableau.pointText N)) []
  | .checkVertex => return w.answer (.finding (w.tableau.vertexViolation? K w.objectives)) []
  | .checkOptimum => return w.answer (.finding (w.tableau.optimumViolation? K w.objectives)) []
  | .reviewVertex k =>
    let finding := Tableau.findingIf w.options (w.tableau.vertexViolation? K w.objectives)
    return w.replace (marking w.options w.tableau finding)
      (.truth !(Tableau.endsRun w.options finding)) (finding.map (Event.vertexInvalid k)).toList
  | .reviewOptimum =>
    let finding := Tableau.findingIf w.options (w.tableau.optimumViolation? K w.objectives)
    return w.replace (marking w.options w.tableau finding) .silent
      (finding.map Event.optimumInvalid).toList
  | .recordObjective value =>
    let values := w.objectives.push value
    return ⟨{ w with objectives := values }, .objectives values, []⟩
  | .setCell row column value => do
    let row ← indexBelow (w.tableau.rowCount + 1) row
    let column ← indexBelow (w.tableau.columnCount + 1) column
    let rows := w.tableau.rows.modify row fun cells => cells.setIfInBounds column value
    return w.replace { w.tableau with rows := rows } .silent []
  | .setPoint column value => do
    let column ← indexBelow w.tableau.columnCount column
    let point := w.tableau.point.setIfInBounds column value
    return w.replace { w.tableau with point := point } .silent []
  | .setValue value => return w.replace { w.tableau with value := value } .silent []
  | .setBasis row column => do
    let row ← indexBelow w.tableau.rowCount row
    let columns := w.tableau.basis.columns.setIfInBounds row column
    return w.replace { w.tableau with basis := { w.tableau.basis with columns := columns } }
      .silent []
  | .setMark column marked => do
    let column ← indexBelow w.tableau.columnCount column
    let marks := w.tableau.basis.marks.setIfInBounds column marked
    return w.replace { w.tableau with basis := { w.tableau.basis with marks := marks } }
      .silent []
  | .resizeRows size => do
    let size ← indexBelow sizeBound size
    let filler := Array.replicate (w.tableau.columnCount + 1) K.zero
    return w.replace { w.tableau with rows := resize w.tableau.rows size filler } .silent []
  | .resizeRow row size => do
    let row ← indexBelow w.tableau.rows.size row
    let size ← indexBelow sizeBound size
    let rows := w.tableau.rows.modify row fun cells => resize cells size K.zero
    return w.replace { w.tableau with rows := rows } .silent []
  | .resizePoint size => do
    let size ← indexBelow sizeBound size
    return w.replace { w.tableau with point := resize w.tableau.point size K.zero } .silent []

/-- Carry out a command. -/
def perform (K : Arithmetic α) (N : NumberText α) (w : Worksheet α) (c : Command α) :
    Except Refusal (Effect α) :=
  if c.toleratesDamage ∨ w.tableau.Shaped then w.execute K N c else .error .shape

end Worksheet

end SimplexMethod
