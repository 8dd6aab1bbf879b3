import SimplexMethod.Tableau

/-!
# Validation

Checks that a tableau is what the method says it is.

Each check returns the first violation it meets, or none, and a chain of checks
reports the violation of the first one that fails. The order of the chain is
what makes it work on tableaux that have been damaged in any way: the shape is
settled before a cell is looked at, and the basic columns are known to be
columns before anything is read through them.

A vertex must have the shape of its program, a consistent basis whose columns
are unit vectors, right hand sides that are not negative and an objective no
worse than the one before. An optimum must moreover have no negative reduced
cost, satisfy the constraints of the program itself, and have the objective
value it reports. The sums over the program's own data are compensated, so that
they do not repeat the rounding of the pivots.

## Main definitions

* `Violation`: What a check found.
* `Basis.violation?`: Whether map and marks describe one basis.
* `Tableau.vertexViolation?`: The chain for a vertex.
* `Tableau.optimumViolation?`: The chain for an optimum.

## Theorems

* `Basis.rowViolation?_eq_none_iff`, `Basis.violation?_eq_none_iff`: What the check of a
  basis looks at.
-/

namespace SimplexMethod

/-- What a check found. Rows are counted from zero. -/
inductive Violation (α : Type) where
  /-- The tableau has the wrong number of rows. -/
  | rowCount (rows expected : Nat)
  /-- A row has the wrong number of cells. -/
  | rowLength (row columns expected : Nat)
  /-- The point has the wrong number of values. -/
  | pointSize (size expected : Nat)
  /-- The map sends a row outside the columns. -/
  | noColumn (column : Int) (row : Nat)
  /-- The map sends a row to a column that is not marked. -/
  | unmarked (column : Int)
  /-- The map sends two rows to one column. -/
  | repeated
  /-- The number of marks is not the number of rows. -/
  | markCount (marked rows : Nat)
  /-- A basic column is not a unit vector. -/
  | notUnit (label : String) (value expected : α) (row : Nat)
  /-- A basic variable is negative. -/
  | negativeBasic (label : String) (row : Nat) (value : α)
  /-- The objective got worse. -/
  | worsened (sense : Sense) (last before gap : α)
  /-- A reduced cost is negative. -/
  | negativeCost (label : String) (cost : α)
  /-- A variable is negative. -/
  | negativeVariable (label : String) (value : α)
  /-- A constraint of the program is not satisfied. -/
  | constraint (row : Nat) (excess : α)
  /-- The reported value is not the objective at the point. -/
  | objective (reported actual gap : α)

/-- The wording of a violation. -/
def Violation.message {α : Type} (N : NumberText α) : Violation α → String
  | rowCount rows expected => s!"Tableau has {rows} rows, expected {expected}"
  | rowLength row columns expected =>
    s!"Tableau row {row} has {columns} columns, expected {expected}"
  | pointSize size expected =>
    s!"Solution size {size} doesn't match number of variables {expected}"
  | noColumn column row => s!"Basic column idx {column} for row idx {row} is not valid"
  | unmarked column => s!"Basic column idx {column} has incorrect state in basis"
  | repeated => "Basis row->column mapping is not unique"
  | markCount marked rows => s!"{marked} columns marked basic for {rows} rows"
  | notUnit label value expected row =>
    s!"Basic column {label} has value {N.plain value} != {N.plain expected} in tableau row {row}"
  | negativeBasic label row value =>
    s!"Basic variable {label} of row {row} is negative, value {N.plain value}"
  | worsened sense last before gap =>
    s!"Obj monotonicity not satisfied ({sense.label}) - last obj value {N.plain last} " ++
      s!"before last obj value {N.plain before}, diff {N.plain gap}"
  | negativeCost label cost =>
    s!"Dual feasibility not satisfied for var {label}, reduced cost {N.plain cost}"
  | negativeVariable label value => s!"Var {label} is negative, value {N.plain value}"
  | constraint row excess =>
    s!"{row}-th initial_lp constraint not satisfied, diff {N.plain excess}"
  | objective reported actual gap =>
    s!"Reported objective value {N.plain reported} differs from c^T x {N.plain actual}, " ++
      s!"diff {N.plain gap}"

-- A chain of checks finds nothing when none of them does.
theorem orElse_eq_none {β : Type} {first second : Option β} :
    (first <|> second) = none ↔ first = none ∧ second = none := by
  cases first <;> simp

/-- The first row that the map sends outside the columns or to a column without
    a mark. -/
def Basis.rowViolation? {α : Type} (B : Basis) (columns row : Nat) : Option (Violation α) :=
  let column := B.columns.getD row 0
  if column < 0 ∨ (columns : Int) ≤ column then some (.noColumn column row)
  else if !B.marked column.toNat then some (.unmarked column)
  else none

/-- Whether map and marks describe one basis of `rows` among `columns` columns. -/
def Basis.violation? {α : Type} (B : Basis) (rows columns : Nat) : Option (Violation α) :=
  ((List.range rows).findSome? fun row => B.rowViolation? columns row) <|>
    if ¬ ((List.range rows).map fun row => B.columns.getD row 0).Nodup then some .repeated
    else if B.marks.count true ≠ rows then some (.markCount (B.marks.count true) rows)
    else none

namespace Basis

variable {α : Type} {B : Basis} {rows columns : Nat}

theorem rowViolation?_eq_none_iff {row : Nat} :
    B.rowViolation? (α := α) columns row = none ↔
      (0 ≤ B.columns.getD row 0 ∧ B.columns.getD row 0 < columns) ∧
        B.marked (B.column row) = true := by
  unfold rowViolation? column
  generalize B.columns.getD row 0 = column
  by_cases hrange : column < 0 ∨ (columns : Int) ≤ column
  · simp only [if_pos hrange, reduceCtorEq, false_iff]
    omega
  · have hcolumn : 0 ≤ column ∧ column < columns := by omega
    simp [hcolumn, hrange]

-- The map is gone through row by row, and the marks are only counted.
theorem violation?_eq_none_iff :
    B.violation? (α := α) rows columns = none ↔
      (∀ row < rows, B.rowViolation? (α := α) columns row = none) ∧
        ((List.range rows).map fun row => B.columns.getD row 0).Nodup ∧
          B.marks.count true = rows := by
  rw [violation?, orElse_eq_none, List.findSome?_eq_none_iff]
  simp only [List.mem_range]
  refine and_congr_right fun _ => ?_
  generalize (List.range rows).map (fun row => B.columns.getD row 0) = names
  by_cases hnodup : names.Nodup
  · by_cases hcount : B.marks.count true = rows
    · simp [hnodup, hcount]
    · simp [hnodup, hcount]
  · simp [hnodup]

end Basis

namespace Tableau

variable {α : Type} (K : Arithmetic α) (T : Tableau α)

/-- Whether cells and point have the shape of the program. -/
def shapeViolation? : Option (Violation α) :=
  let rows := T.rowCount + 1
  let columns := T.columnCount + 1
  if T.rows.size ≠ rows then some (.rowCount T.rows.size rows)
  else
    (T.rows.toList.zipIdx.findSome? fun (row, i) =>
      if row.size ≠ columns then some (.rowLength i row.size columns) else none) <|>
    if T.point.size ≠ T.columnCount then some (.pointSize T.point.size T.columnCount)
    else none

/-- Whether every basic column is a unit vector, the objective row included. -/
def unitViolation? : Option (Violation α) :=
  (List.range T.rowCount).findSome? fun basicRow =>
    let column := T.basicColumn basicRow
    (List.range (T.rowCount + 1)).findSome? fun row =>
      let expected := if row = basicRow then K.one else K.zero
      let value := T.cell K row column
      if K.near value expected K.checkTolerance then none
      else some (.notUnit (T.label column) value expected row)

/-- Whether no basic variable is negative. -/
def primalViolation? : Option (Violation α) :=
  (List.range T.rowCount).findSome? fun row =>
    let value := T.rightSide K row
    if K.lt value (K.neg K.checkTolerance) then
      some (.negativeBasic (T.label (T.basicColumn row)) row value)
    else none

/-- Whether the last two objective values are in order. -/
def progressViolation? (history : Array α) : Option (Violation α) :=
  match history.pop.back?, history.back? with
  | some before, some last =>
    let inOrder :=
      match T.program.sense with
      | .maximize => K.lt (K.sub before K.checkTolerance) last
      | .minimize => K.lt last (K.add before K.checkTolerance)
    if inOrder then none
    else some (.worsened T.program.sense last before (K.abs (K.sub last before)))
  | _, _ => none

/-- Whether no reduced cost is negative. -/
def dualViolation? : Option (Violation α) :=
  (List.range T.columnCount).findSome? fun j =>
    let cost := T.reducedCost K j
    if K.lt cost (K.neg K.checkTolerance) then some (.negativeCost (T.label j) cost) else none

/-- Whether no variable is negative. -/
def signViolation? : Option (Violation α) :=
  T.solution.toList.zipIdx.findSome? fun (value, j) =>
    if K.lt value (K.neg K.checkTolerance) then some (.negativeVariable (T.label j) value)
    else none

/-- Whether the solution satisfies the constraints of the program. -/
def constraintViolation? : Option (Violation α) :=
  T.program.matrix.toList.zipIdx.findSome? fun (row, i) =>
    let left := K.compensatedDot row T.solution
    let right := T.program.bounds.getD i K.zero
    if K.lt (K.add right K.checkTolerance) left then some (.constraint i (K.sub left right))
    else none

/-- Whether the reported value is the objective at the solution. -/
def objectiveViolation? : Option (Violation α) :=
  let actual := K.compensatedDot T.program.objective T.solution
  if K.near actual T.value K.checkTolerance then none
  else some (.objective T.value actual (K.abs (K.sub T.value actual)))

/-- The first thing wrong with a vertex, given the objective values so far. -/
def vertexViolation? (history : Array α) : Option (Violation α) :=
  T.shapeViolation? <|> T.basis.violation? T.rowCount T.columnCount <|> T.unitViolation? K <|>
    T.primalViolation? K <|> T.progressViolation? K history

/-- The first thing wrong with an optimum, given the objective values so far. -/
def optimumViolation? (history : Array α) : Option (Violation α) :=
  T.vertexViolation? K history <|> T.dualViolation? K <|> T.signViolation? K <|>
    T.constraintViolation? K <|> T.objectiveViolation? K

end Tableau

end SimplexMethod
