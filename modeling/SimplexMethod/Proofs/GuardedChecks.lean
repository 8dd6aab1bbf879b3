import SimplexMethod.Validation
import SimplexMethod.Proofs.GuardedOrigin

/-!
# Guarded checks

The checks of a tableau, with every access guarded.

Checks are made on tableaux that may be damaged, so they cannot rely on a shape that
nobody has looked at. Most of them read the tableau without asking whether what they read
is there. They are in range all the same, because of the order in which they are made: a
check is made only if those before it found nothing, and when shape and basis have been
checked the tableau is shaped. Two sizes nobody checks, the numbers of basic columns and
of marks, and these are all that has to be assumed. The checks against the program's own
data need the program to be shaped as well.

## Main definitions

* `Guarded.shapeViolation?`, `Guarded.basisViolation?`: The checks that come first.
* `Guarded.compensatedDot`: A scalar product over the indices of its first factor.
* `Guarded.vertexViolation?`, `Guarded.optimumViolation?`: The chains.

## Theorems

* `Tableau.shaped_of_checks`: A tableau whose shape and basis pass is shaped.
* `Guarded.shapeViolation?_eq_some`, `Guarded.basisViolation?_eq_some`: The first checks are
  in range on tableaux that may be damaged.
* `Guarded.vertexViolation?_eq_some`, `Guarded.optimumViolation?_eq_some`: So are the chains.
-/

namespace SimplexMethod

namespace Tableau

variable {α : Type} {T : Tableau α}

theorem rows_of_shapeViolation? (h : T.shapeViolation? = none) :
    T.rows.size = T.rowCount + 1 ∧ (∀ row ∈ T.rows.toList, row.size = T.columnCount + 1) ∧
      T.point.size = T.columnCount := by
  unfold shapeViolation? at h
  by_cases hrows : T.rows.size ≠ T.rowCount + 1
  · simp [hrows] at h
  · simp only [hrows, if_false, orElse_eq_none, List.findSome?_eq_none_iff] at h
    refine ⟨Decidable.not_not.mp hrows, fun row hrow => ?_, ?_⟩
    · rcases List.mem_iff_getElem.mp hrow with ⟨i, hi, rfl⟩
      have hpass := h.1 (T.rows.toList[i], i) (by simp [List.mk_mem_zipIdx_iff_getElem?])
      simpa using hpass
    · simpa using h.2

theorem columns_of_violation? {B : Basis} {rows columns row : Nat}
    (h : B.violation? (α := α) rows columns = none) (hrow : row < rows) :
    0 ≤ B.columns.getD row 0 ∧ B.columns.getD row 0 < columns :=
  (Basis.rowViolation?_eq_none_iff.mp ((Basis.violation?_eq_none_iff.mp h).1 row hrow)).1

/-- A tableau whose shape and basis pass is shaped, if map and marks have their sizes. -/
theorem shaped_of_checks (hcolumns : T.basis.columns.size = T.rowCount)
    (hmarks : T.basis.marks.size = T.columnCount) (hshape : T.shapeViolation? = none)
    (hbasis : T.basis.violation? (α := α) T.rowCount T.columnCount = none) : T.Shaped where
  rows_size := (rows_of_shapeViolation? hshape).1
  row_size := (rows_of_shapeViolation? hshape).2.1
  point_size := (rows_of_shapeViolation? hshape).2.2
  columns_size := hcolumns
  columns_range := by
    intro j hj
    rcases List.mem_iff_getElem.mp hj with ⟨i, hi, rfl⟩
    have hlt : i < T.basis.columns.size := by simpa using hi
    have hrange := columns_of_violation? hbasis (by rw [← hcolumns]; exact hlt)
    rwa [Array.getD_eq_getD_getElem?, Array.getElem?_eq_getElem hlt, Option.getD_some] at hrange
  marks_size := hmarks

end Tableau

namespace Guarded

section First

variable {α : Type}

/-- Whether cells and point have the shape of the program. -/
def shapeViolation? (T : Tableau α) : Guarded (Option (Violation α)) :=
  if T.rows.size ≠ T.rowCount + 1 then
    return some (.rowCount T.rows.size (T.rowCount + 1))
  else
    orElse
      ((List.range (T.rowCount + 1)).findSomeM? fun i => do
        let row ← T.rows[i]?
        return if row.size ≠ T.columnCount + 1 then
          some (.rowLength i row.size (T.columnCount + 1)) else none)
      (return if T.point.size ≠ T.columnCount then
        some (.pointSize T.point.size T.columnCount) else none)

/-- Whether the map sends a row to a column with a mark. -/
def rowViolation? (B : Basis) (columns row : Nat) : Guarded (Option (Violation α)) := do
  let column ← B.columns[row]?
  if column < 0 ∨ (columns : Int) ≤ column then return some (.noColumn column row)
  else
    let marked ← B.marks[column.toNat]?
    return if !marked then some (.unmarked column) else none

/-- Whether map and marks describe one basis of `rows` among `columns` columns. -/
def basisViolation? (B : Basis) (rows columns : Nat) : Guarded (Option (Violation α)) :=
  orElse ((List.range rows).findSomeM? fun row => rowViolation? B columns row) do
    let names ← (List.range rows).mapM fun row => B.columns[row]?
    return if ¬ names.Nodup then some .repeated
      else if B.marks.count true ≠ rows then some (.markCount (B.marks.count true) rows)
      else none

theorem shapeViolation?_eq_some (T : Tableau α) : shapeViolation? T = some T.shapeViolation? := by
  unfold shapeViolation? Tableau.shapeViolation?
  by_cases hrows : T.rows.size ≠ T.rowCount + 1
  · simp only [hrows, ne_eq, not_false_eq_true, if_true, Option.pure_def]
  · have hsize : T.rows.size = T.rowCount + 1 := Decidable.not_not.mp hrows
    rw [if_neg hrows, if_neg hrows, findSome?_zipIdx T.rows #[], hsize]
    refine orElse_eq_some (findSome_eq_some fun i hi => ?_) fun _ => rfl
    rw [read_eq_some (by rw [hsize]; exact List.mem_range.mp hi) #[], some_bind, Option.pure_def]

theorem rowViolation?_eq_some {B : Basis} {columns row : Nat} (hrow : row < B.columns.size)
    (hmarks : B.marks.size = columns) :
    rowViolation? (α := α) B columns row = some (B.rowViolation? columns row) := by
  unfold rowViolation? Basis.rowViolation?
  rw [read_eq_some hrow 0, some_bind]
  generalize B.columns.getD row 0 = column
  by_cases hrange : column < 0 ∨ (columns : Int) ≤ column
  · rw [if_pos hrange, if_pos hrange, Option.pure_def]
  · -- A column in range has a mark to be looked at.
    rw [if_neg hrange, if_neg hrange, read_eq_some (by rw [hmarks]; omega) false, some_bind,
      Option.pure_def, Basis.marked]

theorem basisViolation?_eq_some {B : Basis} {rows columns : Nat} (hcolumns : B.columns.size = rows)
    (hmarks : B.marks.size = columns) :
    basisViolation? (α := α) B rows columns = some (B.violation? rows columns) := by
  have hlt : ∀ row ∈ List.range rows, row < B.columns.size := fun row hrow => by
    rw [hcolumns]
    exact List.mem_range.mp hrow
  refine orElse_eq_some
    (findSome_eq_some fun row hrow => rowViolation?_eq_some (hlt row hrow) hmarks) fun _ => ?_
  rw [mapM_eq_some fun row hrow => read_eq_some (hlt row hrow) 0, some_bind, Option.pure_def]

end First

section Shaped

variable {α : Type} (K : Arithmetic α) {T : Tableau α}

/-- Whether every basic column is a unit vector, the objective row included. -/
def unitViolation? (T : Tableau α) : Guarded (Option (Violation α)) :=
  (List.range T.rowCount).findSomeM? fun basicRow => do
    let column ← basicColumn T basicRow
    (List.range T.rows.size).findSomeM? fun row => do
      let expected := if row = basicRow then K.one else K.zero
      let value ← cell T row column
      if K.near value expected K.checkTolerance then return none
      else return some (.notUnit (← label T column) value expected row)

/-- Whether no basic variable is negative. -/
def primalViolation? (T : Tableau α) : Guarded (Option (Violation α)) :=
  (List.range T.rowCount).findSomeM? fun row => do
    let value ← rightSide T row
    if K.lt value (K.neg K.checkTolerance) then
      return some (.negativeBasic (← label T (← basicColumn T row)) row value)
    else return none

/-- Whether the last two objective values are in order. -/
def progressViolation? (T : Tableau α) (history : Array α) : Guarded (Option (Violation α)) :=
  if history.size ≤ 1 then return none
  else do
    let last ← history[history.size - 1]?
    let before ← history[history.size - 2]?
    let inOrder :=
      match T.program.sense with
      | .maximize => K.lt (K.sub before K.checkTolerance) last
      | .minimize => K.lt last (K.add before K.checkTolerance)
    return if inOrder then none
      else some (.worsened T.program.sense last before (K.abs (K.sub last before)))

/-- Whether no reduced cost is negative. -/
def dualViolation? (T : Tableau α) : Guarded (Option (Violation α)) :=
  (List.range T.columnCount).findSomeM? fun j => do
    let cost ← reducedCost T j
    if K.lt cost (K.neg K.checkTolerance) then return some (.negativeCost (← label T j) cost)
    else return none

/-- Whether no variable is negative. The names are those of the program. -/
def signViolation? (T : Tableau α) : Guarded (Option (Violation α)) := do
  let point ← solution T
  (List.range point.size).findSomeM? fun j => do
    let value ← point[j]?
    if K.lt value (K.neg K.checkTolerance) then
      let heading ← (← frame T.program).columns[j]?
      return some (.negativeVariable heading.label value)
    else return none

/-- The scalar product as a compensated sum. -/
def compensatedDot (a b : Array α) : Guarded α := do
  let sum ← (List.range a.size).foldlM
    (fun sum i => do return Compensated.add K sum (K.mul (← a[i]?) (← b[i]?)))
    (Compensated.empty K)
  return sum.read K

/-- Whether the solution satisfies the constraints of the program. -/
def constraintViolation? (T : Tableau α) : Guarded (Option (Violation α)) := do
  let point ← solution T
  (List.range T.program.matrix.size).findSomeM? fun i => do
    let left ← compensatedDot K (← T.program.matrix[i]?) point
    let right ← T.program.bounds[i]?
    return if K.lt (K.add right K.checkTolerance) left then
      some (.constraint i (K.sub left right)) else none

/-- Whether the reported value is the objective at the solution. -/
def objectiveViolation? (T : Tableau α) : Guarded (Option (Violation α)) := do
  let actual ← compensatedDot K T.program.objective (← solution T)
  return if K.near actual T.value K.checkTolerance then none
    else some (.objective T.value actual (K.abs (K.sub T.value actual)))

theorem unitViolation?_eq_some (h : T.Shaped) :
    unitViolation? K T = some (T.unitViolation? K) := by
  refine findSome_eq_some fun basicRow hbasic => ?_
  have hbasic := List.mem_range.mp hbasic
  have hcolumn := Tableau.basicColumn_lt h hbasic
  rw [basicColumn_eq_some h hbasic, some_bind, h.rows_size]
  refine findSome_eq_some fun row hrow => ?_
  have hrow := List.mem_range.mp hrow
  rw [cell_eq_some K h (by omega) (Nat.le_of_lt hcolumn), some_bind, label_eq_some T hcolumn,
    some_bind]
  exact (apply_ite some _ _ _).symm

theorem primalViolation?_eq_some (h : T.Shaped) :
    primalViolation? K T = some (T.primalViolation? K) := by
  refine findSome_eq_some fun row hrow => ?_
  have hrow := List.mem_range.mp hrow
  rw [rightSide_eq_some K h (Nat.le_of_lt hrow), some_bind, basicColumn_eq_some h hrow, some_bind,
    label_eq_some T (Tableau.basicColumn_lt h hrow), some_bind]
  exact (apply_ite some _ _ _).symm

theorem progressViolation?_eq_some (T : Tableau α) (history : Array α) :
    progressViolation? K T history = some (T.progressViolation? K history) := by
  unfold progressViolation? Tableau.progressViolation?
  rw [Array.back?_pop, Array.back?_eq_getElem?]
  by_cases hshort : history.size ≤ 1
  · rw [if_pos hshort, if_pos hshort, Option.pure_def]
  · rw [if_neg hshort, if_neg hshort, Array.getElem?_eq_getElem (by omega), some_bind,
      Array.getElem?_eq_getElem (by omega)]
    rfl

theorem dualViolation?_eq_some (h : T.Shaped) :
    dualViolation? K T = some (T.dualViolation? K) := by
  refine findSome_eq_some fun j hj => ?_
  have hj := List.mem_range.mp hj
  rw [reducedCost_eq_some K h (Nat.le_of_lt hj), some_bind, label_eq_some T hj, some_bind]
  exact (apply_ite some _ _ _).symm

theorem signViolation?_eq_some (h : T.Shaped) :
    signViolation? K T = some (T.signViolation? K) := by
  unfold signViolation? Tableau.signViolation?
  rw [solution_eq_some h, some_bind, findSome?_zipIdx T.solution K.zero]
  refine findSome_eq_some fun j hj => ?_
  have hj := List.mem_range.mp hj
  have hvariable : j < T.program.variableCount := by rwa [h.size_solution] at hj
  -- The program knows its variables under the names the tableau has for them.
  have hheading : T.program.frame.columns[j]? = some ⟨T.label j, false⟩ := by
    simp [Program.frame, Tableau.label, Program.columnLabel, hvariable]
  rw [read_eq_some hj K.zero, some_bind, frame_eq_some, some_bind, hheading, some_bind]
  exact (apply_ite some _ _ _).symm

theorem compensatedDot_eq_some {a b : Array α} (hsize : a.size ≤ b.size) :
    compensatedDot K a b = some (K.compensatedDot a b) := by
  have hproducts : K.products a b =
      (List.range a.size).map fun i => K.mul (a.getD i K.zero) (b.getD i K.zero) := by
    refine List.ext_getElem (by simp [Arithmetic.products, hsize]) fun i _ hi => ?_
    have hlt : i < a.size := by simpa using hi
    simp [Arithmetic.products, hlt, Nat.lt_of_lt_of_le hlt hsize]
  have hsum : (List.range a.size).foldlM
      (fun sum i => do return Compensated.add K sum (K.mul (← a[i]?) (← b[i]?)))
      (Compensated.empty K) = some (Compensated.ofList K (K.products a b)) := by
    rw [Compensated.ofList, hproducts, List.foldl_map]
    refine foldlM_eq_some (fun _ => True) (fun sum _ i hi => ?_) (fun _ _ _ _ => trivial) trivial
    have hi := List.mem_range.mp hi
    rw [read_eq_some hi K.zero, some_bind, read_eq_some (Nat.lt_of_lt_of_le hi hsize) K.zero,
      some_bind, Option.pure_def]
  rw [compensatedDot, hsum, some_bind, Option.pure_def, Arithmetic.compensatedDot]

theorem constraintViolation?_eq_some (hP : T.program.Shaped) (h : T.Shaped) :
    constraintViolation? K T = some (T.constraintViolation? K) := by
  unfold constraintViolation? Tableau.constraintViolation?
  rw [solution_eq_some h, some_bind, findSome?_zipIdx T.program.matrix #[]]
  refine findSome_eq_some fun i hi => ?_
  have hi := List.mem_range.mp hi
  have hrow : i < T.program.rowCount := by rwa [hP.matrix_size] at hi
  have hsize : (T.program.matrix.getD i #[]).size ≤ T.solution.size :=
    Nat.le_of_eq (by rw [hP.row_size i hrow, h.size_solution])
  rw [read_eq_some hi #[], some_bind, compensatedDot_eq_some K hsize, some_bind,
    read_eq_some hrow K.zero, some_bind, Option.pure_def]

theorem objectiveViolation?_eq_some (h : T.Shaped) :
    objectiveViolation? K T = some (T.objectiveViolation? K) := by
  have hsize : T.program.objective.size ≤ T.solution.size :=
    Nat.le_of_eq h.size_solution.symm
  rw [objectiveViolation?, solution_eq_some h, some_bind, compensatedDot_eq_some K hsize, some_bind,
    Option.pure_def, Tableau.objectiveViolation?]

end Shaped

section Chains

variable {α : Type} (K : Arithmetic α) {T : Tableau α}

/-- The first thing wrong with a vertex, given the objective values so far. -/
def vertexViolation? (T : Tableau α) (history : Array α) : Guarded (Option (Violation α)) :=
  orElse (shapeViolation? T) <|
  orElse (basisViolation? T.basis T.rowCount T.columnCount) <|
  orElse (unitViolation? K T) <|
  orElse (primalViolation? K T) (progressViolation? K T history)

/-- The first thing wrong with an optimum, given the objective values so far. -/
def optimumViolation? (T : Tableau α) (history : Array α) : Guarded (Option (Violation α)) :=
  orElse (vertexViolation? K T history) <|
  orElse (dualViolation? K T) <|
  orElse (signViolation? K T) <|
  orElse (constraintViolation? K T) (objectiveViolation? K T)

/-- The check of a vertex uses no index out of range, on a tableau that may be damaged. -/
theorem vertexViolation?_eq_some (hcolumns : T.basis.columns.size = T.rowCount)
    (hmarks : T.basis.marks.size = T.columnCount) (history : Array α) :
    vertexViolation? K T history = some (T.vertexViolation? K history) := by
  refine orElse_eq_some (shapeViolation?_eq_some T) fun hshape => ?_
  refine orElse_eq_some (basisViolation?_eq_some hcolumns hmarks) fun hbasis => ?_
  have h := Tableau.shaped_of_checks hcolumns hmarks hshape hbasis
  refine orElse_eq_some (unitViolation?_eq_some K h) fun _ => ?_
  exact orElse_eq_some (primalViolation?_eq_some K h) fun _ =>
    progressViolation?_eq_some K T history

/-- Nor does the check of an optimum. -/
theorem optimumViolation?_eq_some (hP : T.program.Shaped)
    (hcolumns : T.basis.columns.size = T.rowCount) (hmarks : T.basis.marks.size = T.columnCount)
    (history : Array α) :
    optimumViolation? K T history = some (T.optimumViolation? K history) := by
  refine orElse_eq_some (vertexViolation?_eq_some K hcolumns hmarks history) fun hvertex => ?_
  unfold Tableau.vertexViolation? at hvertex
  simp only [orElse_eq_none] at hvertex
  have h := Tableau.shaped_of_checks hcolumns hmarks hvertex.1 hvertex.2.1
  refine orElse_eq_some (dualViolation?_eq_some K h) fun _ => ?_
  refine orElse_eq_some (signViolation?_eq_some K h) fun _ => ?_
  exact orElse_eq_some (constraintViolation?_eq_some K hP h) fun _ =>
    objectiveViolation?_eq_some K h

end Chains

end Guarded

end SimplexMethod
