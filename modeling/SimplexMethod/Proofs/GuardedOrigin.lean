import SimplexMethod.Frame
import SimplexMethod.Proofs.GuardedSteps

/-!
# Guarded construction

Accepting a program and making its first tableau, with every access guarded.

The gate looks at data of any shape: it compares the number of rows before it looks at
one, and looks at the rows before it compares their lengths. What it lets through is
*shaped*, and that is all that the construction needs. Rows, basis and the names of
columns and rows are written into blank arrays of the right size. The names of the slacks
are added to the names of the variables after the table has been enlarged.

## Main definitions

* `Guarded.rejection?`: The gate.
* `Guarded.frame`, `Guarded.slackFrame`, `Guarded.label`: The names.
* `Guarded.ofProgram`: The tableau at the origin.

## Theorems

* `Guarded.rejection?_eq_some`: The gate is in range for any data.
* `Guarded.frame_eq_some`, `Guarded.slackFrame_eq_some`, `Guarded.label_eq_some`: So are the
  names.
* `Guarded.ofProgram_eq_some`: So is the tableau of a shaped program.
-/

namespace SimplexMethod

namespace Guarded

section Origin

variable {α : Type} (K : Arithmetic α) {P : Program α}

/-- The first row whose length is not `length`, with its own length. -/
def oddRow? (matrix : Array (Array α)) (length : Nat) : Guarded (Option (Nat × Nat)) :=
  (List.range matrix.size).findSomeM? fun i => do
    let row ← matrix[i]?
    return if row.size != length then some (i, row.size) else none

/-- The first negative right hand side, with its row. -/
def negativeBound? (bounds : Array α) : Guarded (Option (Nat × α)) :=
  (List.range bounds.size).findSomeM? fun i => do
    let bound ← bounds[i]?
    return if K.lt bound K.zero then some (i, bound) else none

/-- The reason to refuse a program, if there is one. -/
def rejection? (P : Program α) : Guarded (Option (Rejection α)) := do
  if P.matrix.size ≠ P.bounds.size then
    return some (.rowCount P.matrix.size P.bounds.size)
  else
    match ← oddRow? P.matrix P.objective.size with
    | some (row, columns) => return some (.rowLength row columns P.objective.size)
    | none =>
      return (← negativeBound? K P.bounds).map fun (row, bound) => .negativeBound row bound

/-- A tableau row of zeros. -/
def blankRow (P : Program α) : Array α := Array.replicate (P.columnCount + 1) K.zero

/-- The tableau row of a constraint, written into a row of zeros. -/
def constraintRow (P : Program α) (i : Nat) : Guarded (Array α) := do
  let row ← fill (blankRow K P) 0 P.variableCount fun j => do (← P.matrix[i]?)[j]?
  let row ← write row (P.variableCount + i) K.one
  write row P.columnCount (← P.bounds[i]?)

/-- The objective row, written into a row of zeros. -/
def objectiveRow (P : Program α) : Guarded (Array α) :=
  fill (blankRow K P) 0 P.variableCount fun j => do
    let cost ← P.objective[j]?
    return match P.sense with
      | .maximize => K.neg cost
      | .minimize => cost

/-- The basis of all slacks. -/
def slackBasis (vars rows : Nat) : Guarded Basis := do
  let columns ← fill (Array.replicate rows 0) 0 rows fun i => return ((vars + i : Nat) : Int)
  let marks ← fill (Array.replicate (vars + rows) false) vars rows fun _ => return true
  return ⟨columns, marks⟩

/-- The tableau at the origin. -/
def ofProgram (P : Program α) : Guarded (Tableau α) := do
  let rows ← fill (Array.replicate (P.rowCount + 1) (blankRow K P)) 0 P.rowCount (constraintRow K P)
  let rows ← write rows P.rowCount (← objectiveRow K P)
  readVertex K
    { program := P
      rows := rows
      basis := ← slackBasis P.variableCount P.rowCount
      point := #[]
      value := K.zero
      status := .unknown }

theorem oddRow?_eq_some (matrix : Array (Array α)) (length : Nat) :
    oddRow? matrix length = some (Program.oddRow? matrix length) := by
  rw [Program.oddRow?, map_find?_zipIdx matrix #[]]
  refine findSome_eq_some fun i hi => ?_
  rw [read_eq_some (List.mem_range.mp hi) #[], some_bind, Option.pure_def]

theorem negativeBound?_eq_some (bounds : Array α) :
    negativeBound? K bounds = some (Program.negativeBound? K bounds) := by
  rw [Program.negativeBound?, map_find?_zipIdx bounds K.zero]
  refine findSome_eq_some fun i hi => ?_
  rw [read_eq_some (List.mem_range.mp hi) K.zero, some_bind, Option.pure_def]

/-- Whether a program is accepted is found out without an index out of range, whatever
    the shapes are. -/
theorem rejection?_eq_some (P : Program α) : rejection? K P = some (P.rejection? K) := by
  unfold rejection? Program.rejection?
  by_cases hsize : P.matrix.size ≠ P.bounds.size
  · rw [if_pos hsize, if_pos hsize, Option.pure_def]
  · rw [if_neg hsize, if_neg hsize, oddRow?_eq_some, some_bind]
    cases Program.oddRow? P.matrix P.objective.size with
    | some odd => rfl
    | none =>
        dsimp only
        rw [negativeBound?_eq_some, some_bind, Option.pure_def]

theorem constraintRow_eq_some (hP : P.Shaped) {i : Nat} (hi : i < P.rowCount) :
    constraintRow K P i = some (Tableau.constraintRow K P i) := by
  have hcolumns : P.columnCount = P.variableCount + P.rowCount := rfl
  have hrow : i < P.matrix.size := by rw [hP.matrix_size]; exact hi
  unfold constraintRow blankRow
  rw [fill_eq_some (by rw [Array.size_replicate]; omega)
    (g := fun j => (P.matrix.getD i #[]).getD j K.zero)]
  · rw [some_bind, write_eq_some (by rw [Array.size_mapIdx, Array.size_replicate]; omega),
      some_bind, read_eq_some hi K.zero, some_bind, write_eq_some (by
        rw [Array.size_setIfInBounds, Array.size_mapIdx, Array.size_replicate]; omega)]
    refine congrArg some (Array.ext (by simp [Tableau.constraintRow]) fun j hj _ => ?_)
    simp only [Array.size_setIfInBounds, Array.size_mapIdx, Array.size_replicate] at hj
    rw [Array.getElem_setIfInBounds (by simpa using hj),
      Array.getElem_setIfInBounds (by simpa using hj), Array.getElem_mapIdx,
      Array.getElem_replicate]
    simp only [Tableau.constraintRow, Array.getElem_ofFn]
    -- The blocks are disjoint, so it does not matter which is written last.
    by_cases hlast : P.columnCount = j
    · rw [if_pos hlast, if_neg (by omega), if_neg (by omega), if_pos hlast.symm]
    · by_cases hunit : P.variableCount + i = j
      · rw [if_neg hlast, if_pos hunit, if_neg (by omega), if_pos hunit.symm]
      · rw [if_neg hlast, if_neg hunit, if_neg (Ne.symm hunit), if_neg (Ne.symm hlast)]
        simp only [Nat.zero_le, true_and, Nat.zero_add, Nat.sub_zero]
  · intro j hj
    rw [read_eq_some hrow #[], some_bind, read_eq_some _ K.zero]
    rw [hP.row_size i hi]
    exact hj

theorem objectiveRow_eq_some (P : Program α) :
    objectiveRow K P = some (Tableau.objectiveRow K P) := by
  have hcolumns : P.columnCount = P.variableCount + P.rowCount := rfl
  unfold objectiveRow blankRow
  rw [fill_eq_some (by rw [Array.size_replicate]; omega) (g := fun j =>
    let cost := P.objective.getD j K.zero
    match P.sense with
    | .maximize => K.neg cost
    | .minimize => cost)]
  · refine congrArg some (Array.ext (by simp [Tableau.objectiveRow]) fun j _ hj => ?_)
    have hcost : (Tableau.objectiveRow K P)[j] = _ := Array.getElem_ofFn hj
    rw [Array.getElem_mapIdx, Nat.sub_zero, Array.getElem_replicate]
    by_cases hvariable : j < P.variableCount
    · rw [if_pos (by omega)]
      exact (hcost.trans (if_pos hvariable)).symm
    · rw [if_neg (by omega)]
      exact (hcost.trans (if_neg hvariable)).symm
  · intro j hj
    rw [read_eq_some hj K.zero, some_bind, Option.pure_def]

theorem slackBasis_eq_some (vars rows : Nat) :
    slackBasis vars rows = some (Basis.slack vars rows) := by
  unfold slackBasis
  simp only [Option.pure_def]
  rw [fill_eq_some (by simp) (g := fun i => ((vars + i : Nat) : Int)) fun _ _ => rfl, some_bind,
    fill_eq_some (by simp) (g := fun _ => true) fun _ _ => rfl, some_bind]
  refine congrArg some (congr (congrArg Basis.mk ?_) ?_)
  · refine Array.ext (by simp) fun i hi _ => ?_
    have hlt : i < rows := by simpa using hi
    simp [hlt]
  · refine Array.ext (by simp) fun j hj _ => ?_
    have hlt : j < vars + rows := by simpa using hj
    by_cases hslack : vars ≤ j <;> simp [hslack, hlt]

-- The rows of the tableau at the origin, written one after another.
theorem rows_ofProgram (P : Program α) :
    ((Array.replicate (P.rowCount + 1) (blankRow K P)).mapIdx fun i row =>
        if 0 ≤ i ∧ i < 0 + P.rowCount then Tableau.constraintRow K P (i - 0)
        else row).setIfInBounds P.rowCount (Tableau.objectiveRow K P) =
      (Array.ofFn fun i : Fin P.rowCount => Tableau.constraintRow K P i).push
        (Tableau.objectiveRow K P) := by
  refine Array.ext (by simp) fun i hi _ => ?_
  have hlt : i < P.rowCount + 1 := by simpa using hi
  rw [Array.getElem_setIfInBounds (by simpa using hlt), Array.getElem_mapIdx, Array.getElem_push]
  by_cases hlast : P.rowCount = i
  · rw [if_pos hlast, dif_neg (by rw [Array.size_ofFn]; omega)]
  · rw [if_neg hlast, if_pos (by omega), dif_pos (by rw [Array.size_ofFn]; omega),
      Array.getElem_ofFn, Nat.sub_zero]

/-- The tableau at the origin is made without an index out of range. -/
theorem ofProgram_eq_some (hP : P.Shaped) : ofProgram K P = some (Tableau.ofProgram K P) := by
  unfold ofProgram
  rw [fill_eq_some (by simp) fun i hi => constraintRow_eq_some K hP hi, some_bind,
    objectiveRow_eq_some, some_bind, write_eq_some (by simp), some_bind, slackBasis_eq_some,
    some_bind, rows_ofProgram]
  exact readVertex_eq_some K (Tableau.Shaped.ofProgram K P)

end Origin

section Names

variable {α : Type} {T : Tableau α}

/-- The names of variables and rows. -/
def frame (P : Program α) : Guarded Frame := do
  let columns ← fill (Array.replicate P.variableCount ⟨"", false⟩) 0 P.variableCount
    fun j => return Heading.mk (Program.variableLabel j) false
  let rows ← fill (Array.replicate P.rowCount "") 0 P.rowCount
    fun i => return Program.rowLabel i
  return ⟨columns.toList, rows.toList⟩

/-- The names of variables, slacks and rows: those of the slacks come after those of the
    variables. -/
def slackFrame (P : Program α) : Guarded Frame := do
  let f ← frame P
  let blank := f.columns.toArray ++ Array.replicate P.rowCount ⟨"", false⟩
  let columns ← fill blank P.variableCount P.rowCount
    fun i => return Heading.mk (Program.slackLabel i) true
  return { f with columns := columns.toList }

/-- The name of a column. -/
def label (T : Tableau α) (j : Nat) : Guarded String := do
  let heading ← (← slackFrame T.program).columns[j]?
  return heading.label

-- A blank array, written from end to end.
theorem fill_all {β : Type} (blank : β) (count : Nat) (g : Nat → β) :
    fill (Array.replicate count blank) 0 count (fun i => some (g i)) =
      some ((List.range count).map g).toArray := by
  rw [fill_eq_some (by simp) fun _ _ => rfl]
  refine congrArg some (Array.ext (by simp) fun i hi _ => ?_)
  have hlt : i < count := by simpa using hi
  simp [hlt]

theorem frame_eq_some (P : Program α) : frame P = some P.frame := by
  unfold frame
  simp only [Option.pure_def]
  rw [fill_all, some_bind, fill_all, some_bind, Program.frame]

theorem slackFrame_eq_some (T : Tableau α) : slackFrame T.program = some T.frame := by
  unfold slackFrame
  simp only [Option.pure_def]
  rw [frame_eq_some, some_bind, fill_eq_some (by simp [Program.frame])
    (g := fun i => Heading.mk (Program.slackLabel i) true) fun _ _ => rfl, some_bind,
    Option.some.injEq, Tableau.frame, Frame.mk.injEq]
  refine ⟨List.ext_getElem (by simp [Program.frame, Tableau.columnCount, Program.columnCount]) ?_,
    rfl⟩
  intro j _ hj
  have hlt : j < T.program.variableCount + T.program.rowCount := by
    rwa [List.length_map, List.length_range] at hj
  by_cases hslack : T.program.variableCount ≤ j
  · have hvariable : ¬ j < T.program.variableCount := Nat.not_lt.mpr hslack
    simp [hslack, hlt, Tableau.label, Program.columnLabel, hvariable]
  · have hvariable : j < T.program.variableCount := Nat.not_le.mp hslack
    simp [hslack, Tableau.label, Program.columnLabel, Program.frame, hvariable,
      List.getElem_append_left]

theorem length_columns (T : Tableau α) : T.frame.columns.length = T.columnCount := by
  rw [Tableau.frame, List.length_map, List.length_range]

theorem heading_eq_some (T : Tableau α) {j : Nat} (hj : j < T.columnCount) :
    T.frame.columns[j]? = some ⟨T.label j, decide (T.program.variableCount ≤ j)⟩ := by
  simp [Tableau.frame, hj]

theorem label_eq_some (T : Tableau α) {j : Nat} (hj : j < T.columnCount) :
    label T j = some (T.label j) := by
  rw [label, slackFrame_eq_some, some_bind, heading_eq_some T hj, some_bind, Option.pure_def]

end Names

end Guarded

end SimplexMethod
