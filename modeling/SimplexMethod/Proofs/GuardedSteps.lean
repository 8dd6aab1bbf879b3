import SimplexMethod.Selection
import SimplexMethod.Proofs.GuardedAccess

/-!
# Guarded steps of the method

Choosing a pivot, making it and reading a vertex, with every access guarded.

The steps of the method read a tableau as if it had zeros all around, and would compute
something on a tableau of any shape. Below they are written once more, over the same
indices but with guarded access. On a tableau that has its shape the two agree, so the
method never looks outside. Only the shape is used. The numbers and what comparisons
answer about them are not, though they decide which rows and columns are chosen: whatever
is chosen is a row or a column.

## Main definitions

* `Guarded.cell`, `Guarded.basicColumn`: Reading cells and basis.
* `Guarded.entering`, `Guarded.leaving`: The choice of a pivot.
* `Guarded.pivot`: A pivot.
* `Guarded.readVertex`: The point and the value of the basis.
* `Guarded.solution`, `Guarded.slacks`, `Guarded.duals`: What a run reports.

## Theorems

* `Guarded.cell_eq_some`, `Guarded.basicColumn_eq_some`: The shape covers what is read.
* `Guarded.entering_eq_some`, `Guarded.leaving_eq_some`, `Guarded.pivot_eq_some`,
  `Guarded.readVertex_eq_some`, `Guarded.duals_eq_some` and their like: On a shaped tableau
  every step is in range.
-/

namespace SimplexMethod

namespace Guarded

section Readings

variable {α : Type} (K : Arithmetic α) {T : Tableau α}

/-- The cell in row `i` and column `j`. -/
def cell (T : Tableau α) (i j : Nat) : Guarded α := do (← T.rows[i]?)[j]?

/-- The right hand side of a row. -/
def rightSide (T : Tableau α) (i : Nat) : Guarded α := cell T i T.columnCount

/-- The reduced cost of a column. -/
def reducedCost (T : Tableau α) (j : Nat) : Guarded α := cell T T.rowCount j

/-- The basic column of a row. -/
def basicColumn (T : Tableau α) (i : Nat) : Guarded Nat := do index (← T.basis.columns[i]?)

theorem cell_eq_some (h : T.Shaped) {i j : Nat} (hi : i ≤ T.rowCount) (hj : j ≤ T.columnCount) :
    cell T i j = some (T.cell K i j) := by
  have hrow : i < T.rows.size := by rw [h.rows_size]; omega
  have hcolumn : j < (T.rows.getD i #[]).size := by rw [h.size_row hi]; omega
  rw [cell, read_eq_some hrow #[], some_bind, read_eq_some hcolumn K.zero, Tableau.cell]

theorem rightSide_eq_some (h : T.Shaped) {i : Nat} (hi : i ≤ T.rowCount) :
    rightSide T i = some (T.rightSide K i) := cell_eq_some K h hi (Nat.le_refl _)

theorem reducedCost_eq_some (h : T.Shaped) {j : Nat} (hj : j ≤ T.columnCount) :
    reducedCost T j = some (T.reducedCost K j) := cell_eq_some K h (Nat.le_refl _) hj

theorem basicColumn_eq_some (h : T.Shaped) {i : Nat} (hi : i < T.rowCount) :
    basicColumn T i = some (T.basicColumn i) := by
  have hlt : i < T.basis.columns.size := by rw [h.columns_size]; exact hi
  have hrange := h.columns_range _ (Array.getElem_mem_toList hlt)
  have hnonneg : 0 ≤ T.basis.columns.getD i 0 := by
    rw [Array.getD_eq_getD_getElem?, Array.getElem?_eq_getElem hlt, Option.getD_some]
    exact hrange.1
  rw [basicColumn, read_eq_some hlt 0, some_bind, index_eq_some hnonneg, Tableau.basicColumn,
    Basis.column]

-- A tableau of one row and two columns has neither a third row nor a second basic column.
example :
    let T := Tableau.ofProgram (.exact 0) ⟨"", .maximize, #[1], #[#[1]], #[1]⟩
    cell T 1 2 = some 0 ∧ cell T 2 0 = none ∧ basicColumn T 0 = some 1 ∧
      basicColumn T 1 = none := by
  decide +kernel

end Readings

section Choice

variable {α : Type} (K : Arithmetic α) {o : Options α} {T : Tableau α}

/-- The first column whose reduced cost is below the threshold. -/
def firstEligible (tolerance : α) (T : Tableau α) : Guarded (Option Nat) :=
  (List.range T.columnCount).findM? fun j => do
    return K.lt (← reducedCost T j) (K.neg tolerance)

/-- Keep the better of the best column so far and column `j`. -/
def betterColumn (tolerance : α) (T : Tableau α) (best : Option Nat) (j : Nat) :
    Guarded (Option Nat) := do
  let cost ← reducedCost T j
  if K.le (K.neg tolerance) cost then return best
  else
    match best with
    | none => return some j
    | some b => return if K.lt cost (← reducedCost T b) then some j else best

/-- The column whose reduced cost is most negative, the first of equals. -/
def mostNegative (tolerance : α) (T : Tableau α) : Guarded (Option Nat) :=
  (List.range T.columnCount).foldlM (betterColumn K tolerance T) none

/-- The column that enters the basis, if any may. -/
def entering (o : Options α) (T : Tableau α) : Guarded (Option Nat) :=
  match o.columnRule with
  | .firstEligible => firstEligible K o.tolerance T
  | .mostNegative => mostNegative K o.tolerance T

/-- The slack block of a row divided by its entry in a column. -/
def scaledSlacks (T : Tableau α) (row column : Nat) : Guarded (List α) :=
  (List.range T.rowCount).mapM fun k => do
    return K.div (← cell T row (T.program.variableCount + k)) (← cell T row column)

/-- Whether the scaled slack block of `candidate` comes before that of `current`. -/
def lexSmaller (tolerance : α) (T : Tableau α) (candidate current column : Nat) :
    Guarded Bool := do
  return Tableau.lexLess K tolerance
    ((← scaledSlacks K T candidate column).zip (← scaledSlacks K T current column))

/-- Whether a tie between two rows goes to `candidate`. -/
def prefers (o : Options α) (T : Tableau α) (candidate current column : Nat) : Guarded Bool :=
  match o.rowRule with
  | .lowestRow => return false
  | .lowestBasicColumn => do
    return decide ((← basicColumn T candidate) < (← basicColumn T current))
  | .lexicographic => lexSmaller K o.tolerance T candidate current column

/-- Keep the better of the best row so far and row `i`. -/
def betterRow (o : Options α) (T : Tableau α) (column : Nat) (best : Option (Leaving α))
    (i : Nat) : Guarded (Option (Leaving α)) := do
  let entry ← cell T i column
  if K.le entry o.tolerance then return best
  else
    let ratio := K.div (← rightSide T i) entry
    match best with
    | none => return some ⟨i, ratio⟩
    | some b =>
      if K.near ratio b.ratio K.zero then
        return if ← prefers K o T i b.row column then some ⟨i, ratio⟩ else best
      else return if K.lt ratio b.ratio then some ⟨i, ratio⟩ else best

/-- The row that leaves the basis when `column` enters, if any bounds it. -/
def leaving (o : Options α) (T : Tableau α) (column : Nat) : Guarded (Option (Leaving α)) :=
  (List.range T.rowCount).foldlM (betterRow K o T column) none

theorem firstEligible_eq_some (h : T.Shaped) (tolerance : α) :
    firstEligible K tolerance T = some (T.firstEligible K tolerance) :=
  find_eq_some fun j hj => by
    rw [reducedCost_eq_some K h (Nat.le_of_lt (List.mem_range.mp hj)), some_bind, Option.pure_def]

theorem betterColumn_eq_some (h : T.Shaped) (tolerance : α) {best : Option Nat}
    (hbest : ∀ b ∈ best, b < T.columnCount) {j : Nat} (hj : j < T.columnCount) :
    betterColumn K tolerance T best j = some (T.betterColumn K tolerance best j) := by
  unfold betterColumn Tableau.betterColumn
  rw [reducedCost_eq_some K h (Nat.le_of_lt hj), some_bind]
  dsimp only
  split
  · rfl
  · cases best with
    | none => rfl
    | some b =>
        dsimp only
        rw [reducedCost_eq_some K h (Nat.le_of_lt (hbest b rfl)), some_bind]
        rfl

theorem mostNegative_eq_some (h : T.Shaped) (tolerance : α) :
    mostNegative K tolerance T = some (T.mostNegative K tolerance) :=
  foldlM_eq_some (fun best => ∀ b ∈ best, b < T.columnCount)
    (fun _ hbest _ hj => betterColumn_eq_some K h tolerance hbest (List.mem_range.mp hj))
    (fun _ hbest _ hj => Tableau.betterColumn_lt K hbest (List.mem_range.mp hj))
    (fun _ hb => nomatch hb)

theorem entering_eq_some (h : T.Shaped) : entering K o T = some (T.entering K o) := by
  unfold entering Tableau.entering
  cases o.columnRule with
  | firstEligible => exact firstEligible_eq_some K h o.tolerance
  | mostNegative => exact mostNegative_eq_some K h o.tolerance

theorem scaledSlacks_eq_some (h : T.Shaped) {row column : Nat} (hrow : row < T.rowCount)
    (hcolumn : column < T.columnCount) :
    scaledSlacks K T row column = some (T.scaledSlacks K row column) :=
  mapM_eq_some fun k hk => by
    have hslack : T.program.variableCount + k ≤ T.columnCount :=
      Nat.add_le_add_left (Nat.le_of_lt (List.mem_range.mp hk)) _
    rw [cell_eq_some K h (Nat.le_of_lt hrow) hslack, some_bind,
      cell_eq_some K h (Nat.le_of_lt hrow) (Nat.le_of_lt hcolumn), some_bind, Option.pure_def]

theorem prefers_eq_some (h : T.Shaped) {candidate current column : Nat}
    (hcandidate : candidate < T.rowCount) (hcurrent : current < T.rowCount)
    (hcolumn : column < T.columnCount) :
    prefers K o T candidate current column = some (T.prefers K o candidate current column) := by
  unfold prefers Tableau.prefers
  cases o.rowRule with
  | lowestRow => rfl
  | lowestBasicColumn =>
      dsimp only
      rw [basicColumn_eq_some h hcandidate, some_bind, basicColumn_eq_some h hcurrent, some_bind,
        Option.pure_def]
  | lexicographic =>
      dsimp only
      rw [lexSmaller, scaledSlacks_eq_some K h hcandidate hcolumn, some_bind,
        scaledSlacks_eq_some K h hcurrent hcolumn, some_bind, Option.pure_def, Tableau.lexSmaller]

theorem betterRow_eq_some (h : T.Shaped) {column : Nat} (hcolumn : column < T.columnCount)
    {best : Option (Leaving α)} (hbest : ∀ b ∈ best, b.row < T.rowCount) {i : Nat}
    (hi : i < T.rowCount) :
    betterRow K o T column best i = some (T.betterRow K o column best i) := by
  unfold betterRow Tableau.betterRow
  rw [cell_eq_some K h (Nat.le_of_lt hi) (Nat.le_of_lt hcolumn), some_bind]
  dsimp only
  split
  · rfl
  · rw [rightSide_eq_some K h (Nat.le_of_lt hi), some_bind]
    cases best with
    | none => rfl
    | some b =>
        dsimp only
        rw [prefers_eq_some K h hi (hbest b rfl) hcolumn, some_bind]
        -- Which row is better depends on the tie, and only then on the rule.
        cases K.near (K.div (T.rightSide K i) (T.cell K i column)) b.ratio K.zero <;>
          simp [Option.pure_def]

theorem leaving_eq_some (h : T.Shaped) {column : Nat} (hcolumn : column < T.columnCount) :
    leaving K o T column = some (T.leaving K o column) :=
  foldlM_eq_some (fun best => ∀ b ∈ best, b.row < T.rowCount)
    (fun _ hbest _ hi => betterRow_eq_some K h hcolumn hbest (List.mem_range.mp hi))
    (fun _ hbest _ hi => Tableau.betterRow_lt K hbest (List.mem_range.mp hi))
    (fun _ hb => nomatch hb)

end Choice

section Pivot

variable {α : Type} (K : Arithmetic α) {T : Tableau α} {row column : Nat}

/-- A row divided by its pivot entry, which becomes one. -/
def normalizeRow (column : Nat) (row : Array α) : Guarded (Array α) := do
  let pivot ← row[column]?
  write (row.map fun x => K.div x pivot) column K.one

/-- A row less the multiple of the pivot row that clears its entry in the entering
    column. -/
def clearRow (pivotRow : Array α) (column : Nat) (row : Array α) : Guarded (Array α) := do
  let factor ← row[column]?
  if K.eq factor K.zero then return row
  else
    let cells ← (List.range row.size).mapM fun j => do
      return K.add (← row[j]?) (K.mul (K.neg factor) (← pivotRow[j]?))
    write cells.toArray column K.zero

/-- Let `entering` replace the basic column of `row`. -/
def exchange (B : Basis) (row entering : Nat) : Guarded Basis := do
  let leaving ← index (← B.columns[row]?)
  let marks ← write (← write B.marks leaving false) entering true
  return { columns := ← write B.columns row entering, marks := marks }

/-- Let `column` replace the basic column of `row`. -/
def pivot (T : Tableau α) (row column : Nat) : Guarded (Tableau α) := do
  let pivotRow ← normalizeRow K column (← T.rows[row]?)
  let rows ← (List.range T.rows.size).mapM fun i => do
    let cells ← T.rows[i]?
    if i = row then return pivotRow else clearRow K pivotRow column cells
  return { T with rows := rows.toArray, basis := ← exchange T.basis row column }

theorem normalizeRow_eq_some {cells : Array α} (hcolumn : column < cells.size) :
    normalizeRow K column cells = some (Tableau.normalizeRow K column cells) := by
  rw [normalizeRow, read_eq_some hcolumn K.zero, some_bind,
    write_eq_some (by rwa [Array.size_map]), Tableau.normalizeRow]

theorem clearRow_eq_some {pivotRow cells : Array α} (hsize : pivotRow.size = cells.size)
    (hcolumn : column < cells.size) :
    clearRow K pivotRow column cells = some (Tableau.clearRow K pivotRow column cells) := by
  unfold clearRow Tableau.clearRow
  rw [read_eq_some hcolumn K.zero, some_bind]
  generalize cells.getD column K.zero = factor
  by_cases hzero : K.eq factor K.zero = true
  · rw [if_pos hzero, if_pos hzero, Option.pure_def]
  · have hread : ∀ j ∈ List.range cells.size,
        (do return K.add (← cells[j]?) (K.mul (K.neg factor) (← pivotRow[j]?)) : Guarded α) =
          some (K.add (cells.getD j K.zero) (K.mul (K.neg factor) (pivotRow.getD j K.zero))) := by
      intro j hj
      have hlt := List.mem_range.mp hj
      rw [read_eq_some hlt K.zero, some_bind, read_eq_some (hsize ▸ hlt) K.zero, some_bind,
        Option.pure_def]
    rw [if_neg hzero, if_neg hzero, mapM_eq_some hread, some_bind,
      range_map_toArray cells K.zero fun j x =>
        K.add x (K.mul (K.neg factor) (pivotRow.getD j K.zero)),
      write_eq_some (by rwa [Array.size_mapIdx])]

theorem exchange_eq_some (h : T.Shaped) (hrow : row < T.rowCount)
    (hcolumn : column < T.columnCount) :
    exchange T.basis row column = some (T.basis.exchange row column) := by
  have hlt : row < T.basis.columns.size := by rw [h.columns_size]; exact hrow
  have hleaves : T.basis.column row < T.basis.marks.size := by
    rw [h.marks_size]
    exact Tableau.basicColumn_lt h hrow
  have henters : column < (T.basis.marks.setIfInBounds (T.basis.column row) false).size := by
    rw [Array.size_setIfInBounds, h.marks_size]
    exact hcolumn
  have hcolumn : (do index (← T.basis.columns[row]?)) = some (T.basis.column row) :=
    basicColumn_eq_some h hrow
  unfold exchange
  rw [← bind_assoc, hcolumn, some_bind, write_eq_some hleaves, some_bind, write_eq_some henters,
    some_bind, write_eq_some hlt, some_bind, Option.pure_def, Basis.exchange]

theorem pivot_eq_some (h : T.Shaped) (hrow : row < T.rowCount) (hcolumn : column < T.columnCount) :
    pivot K T row column = some (T.pivot K row column) := by
  have hlt : row < T.rows.size := by rw [h.rows_size]; omega
  have hcells : column < (T.rows.getD row #[]).size := by
    rw [h.size_row (Nat.le_of_lt hrow)]
    omega
  have hpivotRow : (Tableau.normalizeRow K column (T.rows.getD row #[])).size =
      T.columnCount + 1 := by
    rw [Tableau.size_normalizeRow, h.size_row (Nat.le_of_lt hrow)]
  unfold pivot Tableau.pivot
  rw [read_eq_some hlt #[], some_bind, normalizeRow_eq_some K hcells, some_bind]
  generalize Tableau.normalizeRow K column (T.rows.getD row #[]) = pivotRow at hpivotRow ⊢
  have hpass : ∀ i ∈ List.range T.rows.size,
      (do
        let cells ← T.rows[i]?
        if i = row then return pivotRow else clearRow K pivotRow column cells :
          Guarded (Array α)) =
        some (if i = row then pivotRow
          else Tableau.clearRow K pivotRow column (T.rows.getD i #[])) := by
    intro i hi
    have hi := List.mem_range.mp hi
    have hsize : (T.rows.getD i #[]).size = T.columnCount + 1 :=
      h.size_row (by rw [h.rows_size] at hi; omega)
    rw [read_eq_some hi #[], some_bind]
    by_cases hself : i = row
    · rw [if_pos hself, if_pos hself, Option.pure_def]
    · rw [if_neg hself, if_neg hself, clearRow_eq_some K (by omega) (by omega)]
  rw [mapM_eq_some hpass, some_bind, exchange_eq_some h hrow hcolumn, some_bind, Option.pure_def,
    range_map_toArray T.rows #[] fun i cells =>
      if i = row then pivotRow else Tableau.clearRow K pivotRow column cells]

end Pivot

section Vertex

variable {α : Type} (K : Arithmetic α) {T : Tableau α}

/-- The vertex of the basis. -/
def vertex (T : Tableau α) : Guarded (Array α) :=
  (List.range T.rowCount).foldlM
    (fun x i => do write x (← basicColumn T i) (← rightSide T i))
    (Array.replicate T.columnCount K.zero)

/-- The objective value in the last cell, whose sign depends on the sense. -/
def lastValue (T : Tableau α) : Guarded α := do
  let last ← reducedCost T T.columnCount
  return match T.program.sense with
    | .maximize => last
    | .minimize => K.neg last

/-- Read point and value again. -/
def readVertex (T : Tableau α) : Guarded (Tableau α) := do
  return { T with point := ← vertex K T, value := ← lastValue K T }

/-- The values of the variables. -/
def solution (T : Tableau α) : Guarded (Array α) := slice T.point 0 T.program.variableCount

/-- The values of the slacks. -/
def slacks (T : Tableau α) : Guarded (Array α) :=
  slice T.point T.program.variableCount T.point.size

/-- The shadow prices of the rows. -/
def duals (T : Tableau α) : Guarded (Array α) :=
  fill (Array.replicate T.rowCount K.zero) 0 T.rowCount fun i => do
    let cost ← reducedCost T (T.program.variableCount + i)
    return match T.program.sense with
      | .maximize => cost
      | .minimize => K.neg cost

theorem vertex_eq_some (h : T.Shaped) : vertex K T = some (T.vertex K) := by
  refine foldlM_eq_some (fun x : Array α => x.size = T.columnCount) ?_ ?_ Array.size_replicate
  · intro x hx i hi
    have hi := List.mem_range.mp hi
    rw [basicColumn_eq_some h hi, some_bind, rightSide_eq_some K h (Nat.le_of_lt hi), some_bind,
      write_eq_some (by rw [hx]; exact Tableau.basicColumn_lt h hi)]
  · intro x hx i _
    rw [Array.size_setIfInBounds, hx]

theorem lastValue_eq_some (h : T.Shaped) : lastValue K T = some (T.lastValue K) := by
  rw [lastValue, reducedCost_eq_some K h (Nat.le_refl _), some_bind, Option.pure_def]
  rfl

-- What is read does not depend on what was read before, so the shape is asked for only
-- afterwards.
theorem readVertex_eq_some (h : ((T.readPoint K).readValue K).Shaped) :
    readVertex K T = some ((T.readPoint K).readValue K) := by
  have hvertex : vertex K T = some (T.vertex K) :=
    vertex_eq_some (T := (T.readPoint K).readValue K) K h
  have hvalue : lastValue K T = some (T.lastValue K) :=
    lastValue_eq_some (T := (T.readPoint K).readValue K) K h
  rw [readVertex, hvertex, some_bind, hvalue, some_bind, Option.pure_def]
  rfl

theorem solution_eq_some (h : T.Shaped) : solution T = some T.solution :=
  slice_eq_some (Nat.zero_le _) (by rw [h.point_size]; exact Nat.le_add_right _ _)

theorem slacks_eq_some (h : T.Shaped) : slacks T = some T.slacks :=
  slice_eq_some (by rw [h.point_size]; exact Nat.le_add_right _ _) (Nat.le_refl _)

theorem duals_eq_some (h : T.Shaped) : duals K T = some (T.duals K) := by
  rw [duals, fill_eq_some (by simp) (g := fun i =>
    let cost := T.reducedCost K (T.program.variableCount + i)
    match T.program.sense with
    | .maximize => cost
    | .minimize => K.neg cost)]
  · refine congrArg some (Array.ext (by simp) fun i hi hi' => ?_)
    have hdual : (T.duals K)[i] = _ := Array.getElem_ofFn hi'
    rw [Array.size_mapIdx, Array.size_replicate] at hi
    rw [Array.getElem_mapIdx, if_pos (by omega), Nat.sub_zero]
    exact hdual.symm
  · intro i hi
    rw [reducedCost_eq_some K h (Nat.add_le_add_left (Nat.le_of_lt hi) _), some_bind,
      Option.pure_def]

end Vertex

end Guarded

end SimplexMethod
