import SimplexMethod.Arithmetic
import SimplexMethod.NumberText
import SimplexMethod.Status

/-!
# Linear programs

Maximize or minimize `c · x` subject to `A x ≤ b` and `x ≥ 0`.

The method starts at the origin, with every slack variable in the basis, so a
program is accepted only if its shapes agree and no right hand side is negative.
A refusal carries its cause; the wording is a separate function. Disagreeing
shapes are reported before any right hand side is looked at.

Variables are called `X1`, `X2`, …, rows `R1`, `R2`, … and the slack variable
of row `i` is `Si`. The columns of a tableau are the variables followed by the
slacks, so a column number decides its own label.

## Main definitions

* `Sense`: Whether the objective is maximized or minimized.
* `Program`: Objective, constraint matrix and right hand sides.
* `Rejection`: Why data do not make a program.
* `Program.accept`: The gate.
* `Program.Shaped`: The shapes of a program agree.
* `Program.columnLabel`: The name of a tableau column.

## Theorems

* `Program.accept_eq_ok`: What is accepted is the data themselves.
* `Program.accept_eq_error`: What is refused is refused for its rejection.
* `Program.Shaped.of_rejection?`: What is not refused is shaped.
-/

namespace SimplexMethod

/-- Whether the objective is maximized or minimized. -/
inductive Sense where
  /-- The largest objective value is wanted. -/
  | maximize
  /-- The smallest objective value is wanted. -/
  | minimize
deriving DecidableEq

namespace Sense

/-- The printed name. -/
def label : Sense → String
  | maximize => "MAXIMIZE"
  | minimize => "MINIMIZE"

/-- The sense with a given number. -/
def ofCode? : Int → Option Sense
  | 0 => some maximize
  | 1 => some minimize
  | _ => none

end Sense

/-- A linear program `max/min objective · x`, `matrix x ≤ bounds`, `x ≥ 0`. -/
structure Program (α : Type) where
  /-- The name it goes by in logs and tables. -/
  name : String
  /-- Whether the objective is maximized or minimized. -/
  sense : Sense
  /-- The objective coefficients, one per variable. -/
  objective : Array α
  /-- The constraint rows. -/
  matrix : Array (Array α)
  /-- The right hand sides, one per row. -/
  bounds : Array α

/-- Why data do not make a program. Rows are counted from zero. -/
inductive Rejection (α : Type) where
  /-- Matrix and right hand sides have different numbers of rows. -/
  | rowCount (rows bounds : Nat)
  /-- A row does not have one entry per objective coefficient. -/
  | rowLength (row columns coefficients : Nat)
  /-- A right hand side is negative, so the origin is not feasible. -/
  | negativeBound (row : Nat) (bound : α)

namespace Rejection

/-- The two kinds of refusal. -/
inductive Kind where
  /-- The shapes disagree. -/
  | dimension
  /-- The origin is not feasible. -/
  | infeasibleOrigin
deriving DecidableEq

/-- The printed name of a kind. -/
def Kind.label : Kind → String
  | dimension => "DIMENSION_ERROR"
  | infeasibleOrigin => "INFEASIBLE_ORIGIN"

/-- The kind with a given number. -/
def Kind.ofCode? : Int → Option Kind
  | 0 => some dimension
  | 1 => some infeasibleOrigin
  | _ => none

/-- The outcome a refused program is listed with. -/
def Kind.status : Kind → Status
  | dimension => .unknown
  | infeasibleOrigin => .infeasibleOrigin

/-- Which kind a refusal is of. -/
def kind {α : Type} : Rejection α → Kind
  | rowCount _ _ => .dimension
  | rowLength _ _ _ => .dimension
  | negativeBound _ _ => .infeasibleOrigin

/-- The wording of a refusal. -/
def message {α : Type} (N : NumberText α) : Rejection α → String
  | rowCount rows bounds =>
    s!"constraint matrix has {rows} rows, right hand side has {bounds} entries"
  | rowLength row columns coefficients =>
    s!"{row}-th constraint row has {columns} columns, objective has {coefficients} coefficients"
  | negativeBound row bound =>
    s!"{row}-th right hand side {N.plain bound} is negative, slack basis is not feasible"

end Rejection

namespace Program

variable {α : Type}

/-- The number of constraint rows. -/
def rowCount (P : Program α) : Nat := P.bounds.size

/-- The number of variables, slacks not counted. -/
def variableCount (P : Program α) : Nat := P.objective.size

/-- The number of variables and slacks together. -/
def columnCount (P : Program α) : Nat := P.variableCount + P.rowCount

/-- The first row whose length is not `length`, with its own length. -/
def oddRow? (matrix : Array (Array α)) (length : Nat) : Option (Nat × Nat) :=
  (matrix.toList.zipIdx.find? fun (row, _) => row.size != length).map
    fun (row, i) => (i, row.size)

/-- The first negative right hand side, with its row. -/
def negativeBound? (K : Arithmetic α) (bounds : Array α) : Option (Nat × α) :=
  (bounds.toList.zipIdx.find? fun (bound, _) => K.lt bound K.zero).map
    fun (bound, i) => (i, bound)

/-- The reason to refuse a program, if there is one. -/
def rejection? (K : Arithmetic α) (P : Program α) : Option (Rejection α) :=
  if P.matrix.size ≠ P.bounds.size then some (.rowCount P.matrix.size P.bounds.size)
  else
    match oddRow? P.matrix P.objective.size with
    | some (row, columns) => some (.rowLength row columns P.objective.size)
    | none => (negativeBound? K P.bounds).map fun (row, bound) => .negativeBound row bound

/-- Accept a program whose shapes agree and whose origin is feasible. -/
def accept (K : Arithmetic α) (P : Program α) : Except (Rejection α) (Program α) :=
  match P.rejection? K with
  | some cause => .error cause
  | none => .ok P

theorem accept_eq_ok {K : Arithmetic α} {P Q : Program α} :
    P.accept K = .ok Q ↔ P.rejection? K = none ∧ Q = P := by
  rw [accept]
  cases P.rejection? K with
  | none => simp only [Except.ok.injEq, true_and, eq_comm]
  | some cause => simp only [reduceCtorEq, false_and]

theorem accept_eq_error {K : Arithmetic α} {P : Program α} {cause : Rejection α} :
    P.accept K = .error cause ↔ P.rejection? K = some cause := by
  rw [accept]
  cases P.rejection? K with
  | none => simp only [reduceCtorEq]
  | some found => simp only [Except.error.injEq, Option.some.injEq]

/-- The shapes of a program agree: one row per right hand side, with one entry per
    objective coefficient. -/
structure Shaped (P : Program α) : Prop where
  /-- There is one row per right hand side. -/
  matrix_size : P.matrix.size = P.rowCount
  /-- Each row has one entry per variable. -/
  row_size : ∀ i < P.rowCount, (P.matrix.getD i #[]).size = P.variableCount

theorem size_of_oddRow?_eq_none {matrix : Array (Array α)} {length i : Nat}
    (h : oddRow? matrix length = none) (hi : i < matrix.size) :
    (matrix.getD i #[]).size = length := by
  rw [oddRow?, Option.map_eq_none_iff, List.find?_eq_none] at h
  have hmem : (matrix[i], i) ∈ matrix.toList.zipIdx := by
    rw [List.mk_mem_zipIdx_iff_getElem?, Array.getElem?_toList, Array.getElem?_eq_getElem hi]
  rw [Array.getD_eq_getD_getElem?, Array.getElem?_eq_getElem hi, Option.getD_some]
  simpa using h _ hmem

/-- A program that is not refused is shaped. -/
theorem Shaped.of_rejection? {K : Arithmetic α} {P : Program α} (h : P.rejection? K = none) :
    P.Shaped := by
  unfold rejection? at h
  by_cases hsize : P.matrix.size ≠ P.bounds.size
  · rw [if_pos hsize] at h
    exact absurd h (Option.some_ne_none _)
  · rw [if_neg hsize] at h
    have hmatrix : P.matrix.size = P.rowCount := Decidable.not_not.mp hsize
    cases hodd : oddRow? P.matrix P.objective.size with
    | some odd =>
        rw [hodd] at h
        exact absurd h (Option.some_ne_none _)
    | none => exact ⟨hmatrix, fun i hi => size_of_oddRow?_eq_none hodd (by rwa [hmatrix])⟩

/-- The name of variable `j`. -/
def variableLabel (j : Nat) : String := s!"X{j + 1}"

/-- The name of row `i`. -/
def rowLabel (i : Nat) : String := s!"R{i + 1}"

/-- The name of the slack variable of row `i`. -/
def slackLabel (i : Nat) : String := s!"S{i + 1}"

/-- The name of a tableau column: the variables come first, then the slacks. -/
def columnLabel (P : Program α) (j : Nat) : String :=
  if j < P.variableCount then variableLabel j else slackLabel (j - P.variableCount)

end Program

end SimplexMethod
