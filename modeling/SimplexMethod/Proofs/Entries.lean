import SimplexMethod.Proofs.Course
import SimplexMethod.Proofs.Polytope

/-!
# Entries in exact arithmetic

What the cells of a tableau are, when no operation rounds.

The pivot of the method writes a one and zeros into the entering column, leaves
rows alone that need no change, and divides the pivot row by its own entry. In
exact arithmetic all of this is a single row operation: every row loses a
multiple of the old pivot row. The multiple is the `factor` of the row, and for
the pivot row itself it is what turns subtraction into division. Everything that
is proved about pivots below starts from this one formula, `entry_pivot`.

The entries of the tableau at the origin are those of the program, in four
blocks: coefficients, the unit matrix of the slacks, bounds, and the signed
objective with zeros behind it.

## Main definitions

* `Tableau.entry`: The cell of a rational tableau.
* `Tableau.constant`: The right hand side of a row.
* `Tableau.factor`: The multiple of the pivot row that a row loses.

## Theorems

* `Tableau.getD_normalizeRow`, `Tableau.getD_clearRow`: The two row operations.
* `Tableau.entry_pivot`: A pivot subtracts multiples of the pivot row.
* `Tableau.constant_advance_self`, `Tableau.constant_advance_other`: What it does to
  the right hand sides.
* `Tableau.basicColumn_pivot`: A pivot changes one basic column.
* `Tableau.entry_ofProgram_variable` and its like: The blocks at the origin.
-/

namespace SimplexMethod

-- Arrays of one size that read the same are the same.
theorem eq_of_getD_eq {α : Type} {a b : Array α} (default : α) (hsize : a.size = b.size)
    (hgetD : ∀ i < b.size, a.getD i default = b.getD i default) : a = b := by
  refine Array.ext hsize fun i hi hi' => ?_
  have hvalue := hgetD i hi'
  simp only [Array.getD_eq_getD_getElem?, Array.getElem?_eq_getElem hi,
    Array.getElem?_eq_getElem hi', Option.getD_some] at hvalue
  exact hvalue

namespace Tableau

/-- The cell in row `i` and column `j`. -/
def entry (T : Tableau Rat) (i j : Nat) : Rat := (T.rows.getD i #[]).getD j 0

/-- The right hand side of a row. -/
def constant (T : Tableau Rat) (i : Nat) : Rat := T.entry i T.columnCount

section Readings

variable (ε : Rat) (T : Tableau Rat)

@[simp]
theorem cell_exact (i j : Nat) : T.cell (.exact ε) i j = T.entry i j := rfl

@[simp]
theorem rightSide_exact (i : Nat) : T.rightSide (.exact ε) i = T.constant i := rfl

@[simp]
theorem reducedCost_exact (j : Nat) : T.reducedCost (.exact ε) j = T.entry T.rowCount j := rfl

@[simp]
theorem entry_advance (row column i j : Nat) :
    (T.advance (.exact ε) row column).entry i j = (T.pivot (.exact ε) row column).entry i j := rfl

@[simp]
theorem constant_advance (row column i : Nat) :
    (T.advance (.exact ε) row column).constant i = (T.pivot (.exact ε) row column).constant i :=
  rfl

@[simp]
theorem basicColumn_advance (row column i : Nat) :
    (T.advance (.exact ε) row column).basicColumn i =
      (T.pivot (.exact ε) row column).basicColumn i := rfl

@[simp]
theorem rowCount_advance (row column : Nat) :
    (T.advance (.exact ε) row column).rowCount = T.rowCount := rfl

@[simp]
theorem columnCount_advance (row column : Nat) :
    (T.advance (.exact ε) row column).columnCount = T.columnCount := rfl

@[simp]
theorem program_advance (row column : Nat) :
    (T.advance (.exact ε) row column).program = T.program := rfl

end Readings

section Pivot

variable {ε : Rat} {T : Tableau Rat} {row column : Nat}

-- A row divided by an entry that is not zero, the written one included.
theorem getD_normalizeRow {cells : Array Rat} (hpivot : cells.getD column 0 ≠ 0) (j : Nat) :
    (normalizeRow (.exact ε) column cells).getD j 0 = cells.getD j 0 / cells.getD column 0 := by
  simp only [normalizeRow, Array.getD_eq_getD_getElem?, Arithmetic.exact_zero,
    Arithmetic.exact_one, Arithmetic.exact_div] at hpivot ⊢
  rw [Array.getElem?_setIfInBounds, Array.getElem?_map]
  -- The written cell is a number divided by itself, and outside the row is zero.
  grind

-- A row less a multiple of a row with a one in the entering column. The row that
-- is left alone and the zero that is written are cases of the same formula.
theorem getD_clearRow {pivotRow cells : Array Rat} (hsize : pivotRow.size = cells.size)
    (hone : pivotRow.getD column 0 = 1) (j : Nat) :
    (clearRow (.exact ε) pivotRow column cells).getD j 0 =
      cells.getD j 0 - cells.getD column 0 * pivotRow.getD j 0 := by
  unfold clearRow
  simp only [Array.getD_eq_getD_getElem?, Arithmetic.exact_zero, Arithmetic.exact_eq,
    Arithmetic.exact_add, Arithmetic.exact_mul, Arithmetic.exact_neg,
    decide_eq_true_eq] at hone ⊢
  split
  · -- The factor is zero, and with it what would be subtracted.
    grind
  · -- The written zero is the entry less itself, as the pivot row has a one there.
    rw [Array.getElem?_setIfInBounds, Array.getElem?_mapIdx]
    grind

/-- The multiple of the pivot row that row `i` loses in a pivot. -/
def factor (T : Tableau Rat) (row column i : Nat) : Rat :=
  if i = row then 1 - 1 / T.entry row column else T.entry i column / T.entry row column

theorem factor_self : T.factor row column row = 1 - 1 / T.entry row column := if_pos rfl

theorem factor_other {i : Nat} (hi : i ≠ row) :
    T.factor row column i = T.entry i column / T.entry row column := if_neg hi

-- Outside the rows of a tableau every entry is zero.
theorem entry_of_rowCount_lt (h : T.Shaped) {i : Nat} (hi : T.rowCount < i) (j : Nat) :
    T.entry i j = 0 := by
  have hnone : T.rows[i]? = none := Array.getElem?_eq_none (by rw [h.rows_size]; omega)
  have hrow : T.rows.getD i #[] = #[] := by
    rw [Array.getD_eq_getD_getElem?, hnone, Option.getD_none]
  rw [entry, hrow]
  rfl

theorem row_le_of_entry_ne_zero (h : T.Shaped) {i j : Nat} (hentry : T.entry i j ≠ 0) :
    i ≤ T.rowCount := by
  by_contra hc
  exact hentry (entry_of_rowCount_lt h (Nat.lt_of_not_le hc) j)

-- A row of the tableau after a pivot, before its cells are looked at.
theorem getD_rows_pivot {i : Nat} (hi : i < T.rows.size) :
    (T.pivot (.exact ε) row column).rows.getD i #[] =
      if i = row then normalizeRow (.exact ε) column (T.rows.getD row #[])
      else clearRow (.exact ε) (normalizeRow (.exact ε) column (T.rows.getD row #[])) column
        (T.rows.getD i #[]) := by
  rw [pivot, Array.getD_eq_getD_getElem?, Array.getElem?_mapIdx,
    Array.getD_eq_getD_getElem? (i := i), Array.getElem?_eq_getElem hi]
  rfl

/-- A pivot at an entry that is not zero subtracts from every row a multiple of
    the pivot row, and does nothing else to the cells. -/
theorem entry_pivot (h : T.Shaped) (hpivot : T.entry row column ≠ 0) (i j : Nat) :
    (T.pivot (.exact ε) row column).entry i j =
      T.entry i j - T.factor row column i * T.entry row j := by
  have hrow : row ≤ T.rowCount := row_le_of_entry_ne_zero h hpivot
  by_cases hi : i ≤ T.rowCount
  · have hlt : i < T.rows.size := by rw [h.rows_size]; omega
    have hnormal : ∀ j, (normalizeRow (.exact ε) column (T.rows.getD row #[])).getD j 0 =
        T.entry row j / T.entry row column := getD_normalizeRow hpivot
    rw [entry, getD_rows_pivot hlt]
    by_cases hself : i = row
    · -- Dividing the pivot row is taking from it all but its quotient.
      rw [if_pos hself, hnormal, hself, factor_self]
      ring
    · have hone := hnormal column
      rw [div_self hpivot] at hone
      have hsize : (normalizeRow (.exact ε) column (T.rows.getD row #[])).size =
          (T.rows.getD i #[]).size := by
        rw [size_normalizeRow, h.size_row hrow, h.size_row hi]
      rw [if_neg hself, getD_clearRow hsize hone, hnormal, factor_other hself]
      show T.entry i j - T.entry i column * (T.entry row j / T.entry row column) = _
      ring
  · -- Below the last row both sides read nothing but zeros.
    have hlt : T.rowCount < i := Nat.lt_of_not_le hi
    have hself : i ≠ row := by omega
    have hnone : (T.pivot (.exact ε) row column).rows[i]? = none := by
      rw [pivot, Array.getElem?_mapIdx, Array.getElem?_eq_none (by rw [h.rows_size]; omega)]
      rfl
    rw [factor_other hself, entry_of_rowCount_lt h hlt, entry_of_rowCount_lt h hlt, zero_div,
      zero_mul, sub_zero, entry, Array.getD_eq_getD_getElem? (i := i), hnone]
    rfl

theorem constant_pivot (h : T.Shaped) (hpivot : T.entry row column ≠ 0) (i : Nat) :
    (T.pivot (.exact ε) row column).constant i =
      T.constant i - T.factor row column i * T.constant row :=
  entry_pivot h hpivot i T.columnCount

-- The step of a pivot is the ratio of its row. The row keeps it as its right hand side,
-- and every other row pays for it with its entry.
theorem constant_advance_self (h : T.Shaped) (hpivot : T.entry row column ≠ 0) :
    (T.advance (.exact ε) row column).constant row =
      T.constant row / T.entry row column := by
  rw [constant_advance, constant_pivot h hpivot, factor_self]
  ring

theorem constant_advance_other (h : T.Shaped) (hpivot : T.entry row column ≠ 0) {i : Nat}
    (hi : i ≠ row) :
    (T.advance (.exact ε) row column).constant i =
      T.constant i - T.entry i column * (T.constant row / T.entry row column) := by
  rw [constant_advance, constant_pivot h hpivot, factor_other hi]
  ring

/-- A pivot lets the entering column replace the basic column of its row. -/
theorem basicColumn_pivot (h : T.Shaped) (hrow : row < T.rowCount) (i : Nat) :
    (T.pivot (.exact ε) row column).basicColumn i =
      if i = row then column else T.basicColumn i := by
  have hsize : row < T.basis.columns.size := by rw [h.columns_size]; exact hrow
  rw [basicColumn, Basis.column, pivot, Basis.getD_columns_exchange hsize]
  by_cases hself : i = row
  · rw [if_pos hself, if_pos hself, Int.toNat_natCast]
  · rw [if_neg hself, if_neg hself]
    rfl

end Pivot

section Origin

variable {ε : Rat} {P : Program Rat}

-- The cells of a constraint row at the origin, block by block.
theorem entry_ofProgram_constraint {i j : Nat} (hi : i < P.rowCount) (hj : j ≤ P.columnCount) :
    (ofProgram (.exact ε) P).entry i j =
      if j < P.variableCount then P.coefficient i j
      else if j = P.variableCount + i then 1
      else if j = P.columnCount then P.bound i
      else 0 := by
  have hrow : (ofProgram (.exact ε) P).rows.getD i #[] = constraintRow (.exact ε) P i := by
    show ((Array.ofFn fun i : Fin P.rowCount => constraintRow (.exact ε) P i).push _).getD i #[] = _
    rw [Array.getD_eq_getD_getElem?, Array.getElem?_push_lt (by rwa [Array.size_ofFn]),
      Array.getElem_ofFn, Option.getD_some]
  rw [entry, hrow, constraintRow, Array.getD_eq_getD_getElem?, Array.getElem?_ofFn,
    dif_pos (Nat.lt_succ_of_le hj)]
  rfl

theorem entry_ofProgram_variable {i j : Nat} (hi : i < P.rowCount) (hj : j < P.variableCount) :
    (ofProgram (.exact ε) P).entry i j = P.coefficient i j := by
  rw [entry_ofProgram_constraint hi (by rw [Program.columnCount]; omega), if_pos hj]

theorem entry_ofProgram_slack {i k : Nat} (hi : i < P.rowCount) (hk : k < P.rowCount) :
    (ofProgram (.exact ε) P).entry i (P.variableCount + k) = if i = k then 1 else 0 := by
  have hcolumn : P.variableCount + k < P.columnCount := Nat.add_lt_add_left hk _
  rw [entry_ofProgram_constraint hi (Nat.le_of_lt hcolumn), if_neg (by omega),
    if_neg (Nat.ne_of_lt hcolumn)]
  exact if_congr (by omega) rfl rfl

theorem constant_ofProgram {i : Nat} (hi : i < P.rowCount) :
    (ofProgram (.exact ε) P).constant i = P.bound i := by
  show (ofProgram (.exact ε) P).entry i P.columnCount = _
  rw [entry_ofProgram_constraint hi (Nat.le_refl _), if_neg (by rw [Program.columnCount]; omega),
    if_neg (by rw [Program.columnCount]; omega), if_pos rfl]

/-- The objective row at the origin: the signed costs, and zeros behind them. -/
theorem entry_ofProgram_objective {j : Nat} (hj : j ≤ P.columnCount) :
    (ofProgram (.exact ε) P).entry P.rowCount j =
      if j < P.variableCount then P.sense.sign * P.cost j else 0 := by
  have hrow : (ofProgram (.exact ε) P).rows.getD P.rowCount #[] = objectiveRow (.exact ε) P := by
    show ((Array.ofFn fun i : Fin P.rowCount => constraintRow (.exact ε) P i).push _).getD _ #[] = _
    rw [Array.getD_eq_getD_getElem?, Array.getElem?_push, if_pos Array.size_ofFn.symm,
      Option.getD_some]
  rw [entry, hrow, objectiveRow, Array.getD_eq_getD_getElem?, Array.getElem?_ofFn,
    dif_pos (Nat.lt_succ_of_le hj), Option.getD_some]
  split
  · cases P.sense with
    | maximize => exact (neg_one_mul (P.cost j)).symm
    | minimize => exact (one_mul (P.cost j)).symm
  · rfl

theorem constant_ofProgram_objective : (ofProgram (.exact ε) P).constant P.rowCount = 0 := by
  show (ofProgram (.exact ε) P).entry P.rowCount P.columnCount = 0
  rw [entry_ofProgram_objective (Nat.le_refl _), if_neg (by rw [Program.columnCount]; omega)]

theorem basicColumn_ofProgram {i : Nat} (hi : i < P.rowCount) :
    (ofProgram (.exact ε) P).basicColumn i = P.variableCount + i := by
  show ((Basis.slack P.variableCount P.rowCount).columns.getD i 0).toNat = _
  rw [Basis.getD_columns_slack hi, Int.toNat_natCast]

end Origin

end Tableau

end SimplexMethod
