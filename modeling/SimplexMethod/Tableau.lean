import SimplexMethod.Program

/-!
# Tableaux

The dense tableau of a program in slack form.

A program with `m` rows and `n` variables has a tableau of `m + 1` rows and
`n + m + 1` columns. The first `m` rows start as `[A | I | b]`. The last one
holds the reduced costs of all `n + m` columns, in the sense of minimization,
and in its last cell the objective value up to sign. Beside the cells stand the
basis, twice: as the map from rows to their basic columns and as one mark per
column. The point and the value are read off the cells and kept until they are
read again, so they can lag behind a pivot.

A tableau is plain data, and nothing in the type keeps its shape: a worksheet
may cut rows off or point the map anywhere, and noticing that is what validation
is for. `Shaped` states the shape that `ofProgram` has and that pivots keep.
Reading outside the shape gives zero.

A pivot is written as a map over the rows. The pivot row is divided by its
entry, and a multiple of it is added to every other row whose entry in the
entering column is not zero; the entering column is then set to the unit vector
it has become up to rounding.

## Main definitions

* `Basis`: The row-to-column map and the marks.
* `Tableau`: Cells, basis, and the point and value last read.
* `Tableau.Shaped`: The shape of a sound tableau.
* `Tableau.ofProgram`: The tableau at the origin.
* `Tableau.pivot`: Exchanging the basic column of a row.
* `Tableau.readPoint`, `Tableau.readValue`: The current vertex and its value.
* `Tableau.solution`, `Tableau.slacks`, `Tableau.duals`: What a run reports.

## Theorems

* `Basis.getD_columns_exchange`, `Basis.marked_exchange`: What an exchange does to
  map and marks.
* `Tableau.size_normalizeRow`, `Tableau.size_clearRow`: Row operations keep the
  length of a row.
* `Tableau.size_vertex`: A vertex has one value per column.
* `Tableau.Shaped.pivot`, `Tableau.Shaped.ofProgram` and their like: Nothing the
  method does breaks the shape.
-/

namespace SimplexMethod

/-- Which columns are basic, as a map and as marks. -/
structure Basis where
  /-- The basic column of each row. Any integer can be stored, so that a wrong
      one can be found. -/
  columns : Array Int
  /-- Whether each column is marked as basic. -/
  marks : Array Bool
deriving DecidableEq

namespace Basis

/-- The basis of all slacks: the slack of row `i` is basic in row `i`. -/
def slack (vars rows : Nat) : Basis where
  columns := Array.ofFn fun i : Fin rows => (vars + i : Nat)
  marks := Array.ofFn fun j : Fin (vars + rows) => decide (vars ≤ j)

/-- The basic column of a row. -/
def column (B : Basis) (row : Nat) : Nat := (B.columns.getD row 0).toNat

/-- Whether a column is marked as basic. -/
def marked (B : Basis) (column : Nat) : Bool := B.marks.getD column false

/-- Let `entering` replace the basic column of `row`. -/
def exchange (B : Basis) (row entering : Nat) : Basis where
  columns := B.columns.setIfInBounds row entering
  marks := (B.marks.setIfInBounds (B.column row) false).setIfInBounds entering true

section Slack

variable {vars rows : Nat}

theorem getD_columns_slack {i : Nat} (hi : i < rows) :
    (slack vars rows).columns.getD i 0 = (vars + i : Nat) := by
  rw [slack, Array.getD_eq_getD_getElem?, Array.getElem?_ofFn, dif_pos hi, Option.getD_some]

theorem marked_slack (j : Nat) :
    (slack vars rows).marked j = true ↔ vars ≤ j ∧ j < vars + rows := by
  rw [marked, slack, Array.getD_eq_getD_getElem?, Array.getElem?_ofFn]
  by_cases hj : j < vars + rows
  · rw [dif_pos hj, Option.getD_some, decide_eq_true_eq]
    exact (and_iff_left hj).symm
  · rw [dif_neg hj, Option.getD_none]
    simp only [Bool.false_eq_true, false_iff]
    omega

end Slack

section Exchange

variable {B : Basis} {row entering : Nat}

theorem getD_columns_exchange (hrow : row < B.columns.size) (i : Nat) :
    (B.exchange row entering).columns.getD i 0 =
      if i = row then (entering : Int) else B.columns.getD i 0 := by
  rw [exchange, Array.getD_eq_getD_getElem?, Array.getElem?_setIfInBounds]
  by_cases hself : i = row
  · rw [if_pos hself.symm, if_pos (hself ▸ hrow), if_pos hself, Option.getD_some]
  · rw [if_neg (Ne.symm hself), if_neg hself, ← Array.getD_eq_getD_getElem?]

-- The mark of the leaving column is removed before that of the entering one is
-- set, so a column that leaves and enters keeps its mark.
theorem marked_exchange (hentering : entering < B.marks.size) (j : Nat) :
    (B.exchange row entering).marked j = true ↔
      j = entering ∨ j ≠ B.column row ∧ B.marked j = true := by
  rw [marked, exchange, Array.getD_eq_getD_getElem?, Array.getElem?_setIfInBounds,
    Array.size_setIfInBounds, Array.getElem?_setIfInBounds]
  by_cases henters : j = entering
  · rw [if_pos henters.symm, if_pos (henters ▸ hentering)]
    simp only [henters, Option.getD_some, true_or]
  · rw [if_neg (Ne.symm henters)]
    by_cases hleaves : j = B.column row
    · rw [if_pos hleaves.symm]
      constructor
      · intro hmark
        split at hmark <;> exact absurd hmark Bool.false_ne_true
      · rintro (hin | ⟨hstays, _⟩)
        · exact absurd hin henters
        · exact absurd hleaves hstays
    · rw [if_neg (Ne.symm hleaves), ← Array.getD_eq_getD_getElem?, ← marked]
      simp only [henters, hleaves, ne_eq, not_false_eq_true, true_and, false_or]

end Exchange

end Basis

/-- A simplex tableau of a program, with the vertex last read from it. -/
structure Tableau (α : Type) where
  /-- The program it was made from. -/
  program : Program α
  /-- The constraint rows and, last, the objective row. -/
  rows : Array (Array α)
  /-- The basis. -/
  basis : Basis
  /-- The values of variables and slacks when they were last read. -/
  point : Array α
  /-- The objective value when it was last read. -/
  value : α
  /-- What has been found out about the program. -/
  status : Status

namespace Tableau

variable {α : Type}

/-- The number of constraint rows. -/
def rowCount (T : Tableau α) : Nat := T.program.rowCount

/-- The number of columns without the right hand sides. -/
def columnCount (T : Tableau α) : Nat := T.program.columnCount

/-- The shape of a sound tableau: rows and columns, the point, the map with its
    values, and the marks all fit the program. -/
structure Shaped (T : Tableau α) : Prop where
  /-- There is one row per constraint and one for the objective. -/
  rows_size : T.rows.size = T.rowCount + 1
  /-- Each row has one cell per column and one for the right hand side. -/
  row_size : ∀ row ∈ T.rows.toList, row.size = T.columnCount + 1
  /-- The point has one value per column. -/
  point_size : T.point.size = T.columnCount
  /-- Each row has a basic column. -/
  columns_size : T.basis.columns.size = T.rowCount
  /-- The basic columns are columns. -/
  columns_range : ∀ j ∈ T.basis.columns.toList, 0 ≤ j ∧ j < T.columnCount
  /-- There is one mark per column. -/
  marks_size : T.basis.marks.size = T.columnCount

instance (T : Tableau α) : Decidable T.Shaped :=
  decidable_of_iff
    ((T.rows.size = T.rowCount + 1 ∧ ∀ row ∈ T.rows.toList, row.size = T.columnCount + 1) ∧
      T.point.size = T.columnCount ∧
      (T.basis.columns.size = T.rowCount ∧
        ∀ j ∈ T.basis.columns.toList, 0 ≤ j ∧ j < T.columnCount) ∧
      T.basis.marks.size = T.columnCount)
    ⟨fun ⟨⟨h₁, h₂⟩, h₃, ⟨h₄, h₅⟩, h₆⟩ => ⟨h₁, h₂, h₃, h₄, h₅, h₆⟩,
      fun ⟨h₁, h₂, h₃, h₄, h₅, h₆⟩ => ⟨⟨h₁, h₂⟩, h₃, ⟨h₄, h₅⟩, h₆⟩⟩

section Cells

variable (K : Arithmetic α) (T : Tableau α)

/-- The cell in row `i` and column `j`. -/
def cell (i j : Nat) : α := (T.rows.getD i #[]).getD j K.zero

/-- The right hand side of a row. -/
def rightSide (i : Nat) : α := T.cell K i T.columnCount

/-- The reduced cost of a column. -/
def reducedCost (j : Nat) : α := T.cell K T.rowCount j

/-- The basic column of a row. -/
def basicColumn (i : Nat) : Nat := T.basis.column i

/-- The name of a column. -/
def label (j : Nat) : String := T.program.columnLabel j

end Cells

section Pivot

variable (K : Arithmetic α)

/-- A row divided by its pivot entry, which becomes one. -/
def normalizeRow (column : Nat) (row : Array α) : Array α :=
  let pivot := row.getD column K.zero
  (row.map fun x => K.div x pivot).setIfInBounds column K.one

/-- A row less the multiple of the normalized pivot row that clears its entry in
    the entering column. A row whose entry is zero is left as it is. -/
def clearRow (pivotRow : Array α) (column : Nat) (row : Array α) : Array α :=
  let factor := row.getD column K.zero
  if K.eq factor K.zero then row
  else
    (row.mapIdx fun j x => K.add x (K.mul (K.neg factor) (pivotRow.getD j K.zero))).setIfInBounds
      column K.zero

/-- Let `column` replace the basic column of `row`. The point and the value are
    not read again. -/
def pivot (T : Tableau α) (row column : Nat) : Tableau α :=
  let pivotRow := normalizeRow K column (T.rows.getD row #[])
  { T with
    rows := T.rows.mapIdx fun i cells =>
      if i = row then pivotRow else clearRow K pivotRow column cells
    basis := T.basis.exchange row column }

@[simp]
theorem size_normalizeRow (column : Nat) (row : Array α) :
    (normalizeRow K column row).size = row.size := by
  rw [normalizeRow, Array.size_setIfInBounds, Array.size_map]

@[simp]
theorem size_clearRow (pivotRow : Array α) (column : Nat) (row : Array α) :
    (clearRow K pivotRow column row).size = row.size := by
  rw [clearRow]
  split
  · rfl
  · rw [Array.size_setIfInBounds, Array.size_mapIdx]

@[simp]
theorem program_pivot (T : Tableau α) (row column : Nat) :
    (T.pivot K row column).program = T.program := rfl

@[simp]
theorem rowCount_pivot (T : Tableau α) (row column : Nat) :
    (T.pivot K row column).rowCount = T.rowCount := rfl

@[simp]
theorem columnCount_pivot (T : Tableau α) (row column : Nat) :
    (T.pivot K row column).columnCount = T.columnCount := rfl

/-- Every row of a shaped tableau, looked up by number, has a cell per column and
    one for the right hand side. -/
theorem Shaped.size_row {T : Tableau α} (h : T.Shaped) {i : Nat} (hi : i ≤ T.rowCount) :
    (T.rows.getD i #[]).size = T.columnCount + 1 := by
  have hlt : i < T.rows.size := by rw [h.rows_size]; omega
  rw [Array.getD_eq_getD_getElem?, Array.getElem?_eq_getElem hlt, Option.getD_some]
  exact h.row_size _ (Array.getElem_mem_toList hlt)

theorem basicColumn_lt {T : Tableau α} (h : T.Shaped) {i : Nat} (hi : i < T.rowCount) :
    T.basicColumn i < T.columnCount := by
  have hlt : i < T.basis.columns.size := by rw [h.columns_size]; exact hi
  have hrange := h.columns_range _ (Array.getElem_mem_toList hlt)
  rw [basicColumn, Basis.column, Array.getD_eq_getD_getElem?, Array.getElem?_eq_getElem hlt,
    Option.getD_some]
  omega

theorem Shaped.pivot {T : Tableau α} (h : T.Shaped) {row column : Nat}
    (hrow : row < T.rowCount) (hcolumn : column < T.columnCount) :
    (T.pivot K row column).Shaped where
  rows_size := by
    rw [rowCount_pivot, Tableau.pivot, Array.size_mapIdx, h.rows_size]
  row_size := by
    intro cells hcells
    rw [columnCount_pivot]
    rw [Tableau.pivot, Array.mem_toList_iff, Array.mem_mapIdx] at hcells
    rcases hcells with ⟨i, hi, rfl⟩
    split
    · rw [size_normalizeRow]
      exact h.size_row (Nat.le_of_lt hrow)
    · rw [size_clearRow]
      exact h.row_size _ (Array.getElem_mem_toList hi)
  point_size := h.point_size
  columns_size := by
    rw [rowCount_pivot, Tableau.pivot, Basis.exchange, Array.size_setIfInBounds, h.columns_size]
  columns_range := by
    intro j hj
    rw [columnCount_pivot]
    rw [Tableau.pivot, Basis.exchange, Array.mem_toList_iff, Array.mem_iff_getElem] at hj
    rcases hj with ⟨i, hi, rfl⟩
    have hlt : i < T.basis.columns.size := by
      change i < (T.basis.columns.setIfInBounds row column).size at hi
      rwa [Array.size_setIfInBounds] at hi
    rw [Array.getElem_setIfInBounds hlt]
    split
    · exact ⟨Int.natCast_nonneg column, Int.ofNat_lt.mpr hcolumn⟩
    · exact h.columns_range _ (Array.getElem_mem_toList hlt)
  marks_size := by
    rw [columnCount_pivot, Tableau.pivot, Basis.exchange, Array.size_setIfInBounds,
      Array.size_setIfInBounds, h.marks_size]

end Pivot

section Reading

variable (K : Arithmetic α)

/-- The vertex of the basis: a basic column has the right hand side of its row,
    the others are zero. -/
def vertex (T : Tableau α) : Array α :=
  (List.range T.rowCount).foldl
    (fun x i => x.setIfInBounds (T.basicColumn i) (T.rightSide K i))
    (Array.replicate T.columnCount K.zero)

@[simp]
theorem size_vertex (T : Tableau α) : (T.vertex K).size = T.columnCount := by
  have hfold : ∀ (rows : List Nat) (x : Array α),
      (rows.foldl (fun x i => x.setIfInBounds (T.basicColumn i) (T.rightSide K i)) x).size =
        x.size := by
    intro rows
    induction rows with
    | nil => intro x; rfl
    | cons i rest ih => intro x; rw [List.foldl_cons, ih, Array.size_setIfInBounds]
  rw [vertex, hfold, Array.size_replicate]

/-- The objective value in the last cell, whose sign depends on the sense. -/
def lastValue (T : Tableau α) : α :=
  match T.program.sense with
  | .maximize => T.reducedCost K T.columnCount
  | .minimize => K.neg (T.reducedCost K T.columnCount)

/-- Read the point again. -/
def readPoint (T : Tableau α) : Tableau α := { T with point := T.vertex K }

/-- Read the objective value again. -/
def readValue (T : Tableau α) : Tableau α := { T with value := T.lastValue K }

/-- Record what has been found out. -/
def withStatus (T : Tableau α) (status : Status) : Tableau α := { T with status := status }

theorem Shaped.readPoint {T : Tableau α} (h : T.Shaped) : (T.readPoint K).Shaped :=
  { h with point_size := T.size_vertex K }

theorem Shaped.readValue {T : Tableau α} (h : T.Shaped) : (T.readValue K).Shaped :=
  { h with }

theorem Shaped.withStatus {T : Tableau α} (h : T.Shaped) (status : Status) :
    (T.withStatus status).Shaped :=
  { h with }

/-- The values of the variables. -/
def solution (T : Tableau α) : Array α := T.point.extract 0 T.program.variableCount

/-- The values of the slacks. -/
def slacks (T : Tableau α) : Array α := T.point.extract T.program.variableCount T.point.size

/-- The shadow prices of the rows: the reduced costs of the slacks, with the
    sign of the sense. -/
def duals (T : Tableau α) : Array α :=
  Array.ofFn fun i : Fin T.rowCount =>
    let cost := T.reducedCost K (T.program.variableCount + i)
    match T.program.sense with
    | .maximize => cost
    | .minimize => K.neg cost

theorem Shaped.size_solution {T : Tableau α} (h : T.Shaped) :
    T.solution.size = T.program.variableCount := by
  rw [solution, Array.size_extract, h.point_size, columnCount, Program.columnCount]
  omega

theorem Shaped.size_slacks {T : Tableau α} (h : T.Shaped) : T.slacks.size = T.rowCount := by
  rw [slacks, Array.size_extract, h.point_size, columnCount, Program.columnCount, rowCount]
  omega

@[simp]
theorem size_duals (T : Tableau α) : (T.duals K).size = T.rowCount := Array.size_ofFn

end Reading

section Origin

variable (K : Arithmetic α) (P : Program α)

/-- The tableau row of a constraint: its coefficients, the unit vector of its
    slack, and its right hand side. -/
def constraintRow (i : Nat) : Array α :=
  Array.ofFn fun j : Fin (P.columnCount + 1) =>
    if j < P.variableCount then (P.matrix.getD i #[]).getD j K.zero
    else if j = P.variableCount + i then K.one
    else if j = P.columnCount then P.bounds.getD i K.zero
    else K.zero

/-- The objective row: the costs of the minimization form, with zeros under the
    slacks and in the last cell. -/
def objectiveRow : Array α :=
  Array.ofFn fun j : Fin (P.columnCount + 1) =>
    if j < P.variableCount then
      let cost := P.objective.getD j K.zero
      match P.sense with
      | .maximize => K.neg cost
      | .minimize => cost
    else K.zero

/-- The tableau at the origin, where all slacks are basic. -/
def ofProgram : Tableau α :=
  let start : Tableau α :=
    { program := P
      rows := (Array.ofFn fun i : Fin P.rowCount => constraintRow K P i).push (objectiveRow K P)
      basis := Basis.slack P.variableCount P.rowCount
      point := #[]
      value := K.zero
      status := .unknown }
  (start.readPoint K).readValue K

/-- The tableau at the origin has the shape of its program, whatever the data. -/
theorem Shaped.ofProgram : (Tableau.ofProgram K P).Shaped where
  rows_size := by
    show ((Array.ofFn fun i : Fin P.rowCount => constraintRow K P i).push _).size = _
    rw [Array.size_push, Array.size_ofFn]
    rfl
  row_size := by
    intro row hrow
    have hmem : row ∈ (Array.ofFn fun i : Fin P.rowCount => constraintRow K P i).push
        (objectiveRow K P) := Array.mem_toList_iff.mp hrow
    rcases Array.mem_push.mp hmem with hrow | rfl
    · rcases Array.mem_ofFn.mp hrow with ⟨i, rfl⟩
      exact Array.size_ofFn
    · exact Array.size_ofFn
  point_size := size_vertex K _
  columns_size := Array.size_ofFn
  columns_range := by
    intro j hj
    rcases Array.mem_ofFn.mp (Array.mem_toList_iff.mp hj) with ⟨i, rfl⟩
    exact ⟨Int.natCast_nonneg _, Int.ofNat_lt.mpr (Nat.add_lt_add_left i.isLt _)⟩
  marks_size := Array.size_ofFn

end Origin

end Tableau

end SimplexMethod
