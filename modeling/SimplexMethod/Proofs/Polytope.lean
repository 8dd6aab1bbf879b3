import Mathlib.Algebra.BigOperators.Intervals
import Mathlib.Algebra.Order.BigOperators.Ring.Finset
import Mathlib.Algebra.Order.Field.Rat
import Mathlib.Tactic.Linarith
import Mathlib.Tactic.Ring
import SimplexMethod.Program

/-!
# The polytope of a program

Points, feasibility and optimality, said of the data alone.

Nothing here mentions a tableau. A point is an array with one value per
variable; it is feasible if its values are not negative and every row is used at
most up to its bound. What a bound leaves over is the slack of its row, and a
point together with its slacks is the *slack form* of the point, with one value
per tableau column. The two forms carry the same information: a vector of
columns that is not negative and balances every row is the slack form of a
feasible point.

The sense of a program enters through a sign. Minimizing `sign * objective` is
what both senses come to, and it is what the objective row of a tableau holds.

## Main definitions

* `Sense.sign`: The factor that turns the objective into one to be minimized.
* `Program.usage`, `Program.slackAt`: What a point uses of a row, and leaves.
* `Program.objectiveAt`: The objective at a point.
* `Program.Feasible`: The points of the polytope.
* `Program.weight`: The sum of all values and slacks of a point.
* `Program.Optimum`: A feasible point that no other one beats.
* `Program.Unbounded`: The objective has no bound on the polytope.
* `Program.slackForm`, `Program.restrict`: From points to columns and back.
* `Program.Balances`: Variables and slack of every row add up to its bound.

## Theorems

* `Program.balances_slackForm`: A slack form balances every row.
* `Program.slackForm_nonneg`: That of a feasible point is not negative.
* `Program.feasible_restrict`: What balances and is not negative is feasible.
* `Program.bound_nonneg`: The bounds of an accepted program are not negative.
-/

namespace SimplexMethod

/-- The factor that turns the objective into one to be minimized. -/
def Sense.sign : Sense → Rat
  | maximize => -1
  | minimize => 1

theorem Sense.sign_mul_sign (sense : Sense) : sense.sign * sense.sign = 1 := by
  cases sense with
  | maximize => simp only [sign, mul_neg, mul_one, neg_neg]
  | minimize => simp only [sign, mul_one]

theorem Sense.sign_ne_zero (sense : Sense) : sense.sign ≠ 0 := by
  intro hzero
  have hone := sense.sign_mul_sign
  rw [hzero, mul_zero] at hone
  exact zero_ne_one hone

namespace Program

/-- The coefficient of variable `j` in row `i`. -/
def coefficient (P : Program Rat) (i j : Nat) : Rat := (P.matrix.getD i #[]).getD j 0

/-- The objective coefficient of variable `j`. -/
def cost (P : Program Rat) (j : Nat) : Rat := P.objective.getD j 0

/-- The right hand side of row `i`. -/
def bound (P : Program Rat) (i : Nat) : Rat := P.bounds.getD i 0

/-- What a point uses of row `i`. -/
def usage (P : Program Rat) (x : Array Rat) (i : Nat) : Rat :=
  ∑ j ∈ Finset.range P.variableCount, P.coefficient i j * x.getD j 0

/-- What a point leaves of row `i`. -/
def slackAt (P : Program Rat) (x : Array Rat) (i : Nat) : Rat := P.bound i - P.usage x i

/-- The objective at a point. -/
def objectiveAt (P : Program Rat) (x : Array Rat) : Rat :=
  ∑ j ∈ Finset.range P.variableCount, P.cost j * x.getD j 0

/-- The points of the polytope: one value per variable, none negative, and no row
    used beyond its bound. -/
structure Feasible (P : Program Rat) (x : Array Rat) : Prop where
  /-- There is one value per variable. -/
  size_eq : x.size = P.variableCount
  /-- No value is negative. -/
  nonneg : ∀ j < P.variableCount, 0 ≤ x.getD j 0
  /-- No row is used beyond its bound. -/
  usage_le : ∀ i < P.rowCount, P.usage x i ≤ P.bound i

/-- The sum of the values of a point and of its slacks. -/
def weight (P : Program Rat) (x : Array Rat) : Rat :=
  ∑ j ∈ Finset.range P.variableCount, x.getD j 0 +
    ∑ i ∈ Finset.range P.rowCount, P.slackAt x i

/-- A feasible point that no other one beats, in the sense of the program. -/
structure Optimum (P : Program Rat) (x : Array Rat) : Prop where
  /-- The point is feasible. -/
  feasible : P.Feasible x
  /-- No feasible point is better. -/
  best : ∀ y, P.Feasible y →
    match P.sense with
    | .maximize => P.objectiveAt y ≤ P.objectiveAt x
    | .minimize => P.objectiveAt x ≤ P.objectiveAt y

/-- Feasible points improve the objective beyond every bound. -/
def Unbounded (P : Program Rat) : Prop :=
  ∀ bound : Rat, ∃ x, P.Feasible x ∧
    match P.sense with
    | .maximize => bound < P.objectiveAt x
    | .minimize => P.objectiveAt x < bound

/-- A point with its slacks: one value per tableau column. -/
def slackForm (P : Program Rat) (x : Array Rat) (j : Nat) : Rat :=
  if j < P.variableCount then x.getD j 0 else P.slackAt x (j - P.variableCount)

/-- The values of the variables among those of all columns. -/
def restrict (P : Program Rat) (z : Nat → Rat) : Array Rat :=
  Array.ofFn fun j : Fin P.variableCount => z j

/-- Variables and slack of every row add up to its bound. -/
def Balances (P : Program Rat) (z : Nat → Rat) : Prop :=
  ∀ i < P.rowCount,
    ∑ j ∈ Finset.range P.variableCount, P.coefficient i j * z j + z (P.variableCount + i) =
      P.bound i

section SlackForm

variable (P : Program Rat) (x : Array Rat)

theorem slackForm_variable {j : Nat} (hj : j < P.variableCount) :
    P.slackForm x j = x.getD j 0 := if_pos hj

theorem slackForm_slack (i : Nat) :
    P.slackForm x (P.variableCount + i) = P.slackAt x i := by
  rw [slackForm, if_neg (by omega), Nat.add_sub_cancel_left]

-- A sum over the variables of a slack form is one over the point.
theorem sum_slackForm (f : Nat → Rat) :
    ∑ j ∈ Finset.range P.variableCount, f j * P.slackForm x j =
      ∑ j ∈ Finset.range P.variableCount, f j * x.getD j 0 := by
  refine Finset.sum_congr rfl fun j hj => ?_
  rw [slackForm_variable P x (Finset.mem_range.mp hj)]

theorem balances_slackForm : P.Balances (P.slackForm x) := by
  intro i _
  rw [sum_slackForm, slackForm_slack]
  simp only [slackAt, usage]
  ring

-- The columns of a slack form sum up to the weight of the point.
theorem sum_columns_slackForm :
    ∑ j ∈ Finset.range P.columnCount, P.slackForm x j = P.weight x := by
  rw [columnCount, Finset.sum_range_add, weight]
  congr 1
  · exact Finset.sum_congr rfl fun j hj => slackForm_variable P x (Finset.mem_range.mp hj)
  · exact Finset.sum_congr rfl fun i _ => slackForm_slack P x i

theorem slackForm_nonneg {x : Array Rat} (h : P.Feasible x) {j : Nat} (hj : j < P.columnCount) :
    0 ≤ P.slackForm x j := by
  by_cases hvariable : j < P.variableCount
  · rw [slackForm_variable P x hvariable]
    exact h.nonneg j hvariable
  · rw [slackForm, if_neg hvariable, slackAt]
    have hrow : j - P.variableCount < P.rowCount := by
      rw [columnCount] at hj
      omega
    exact sub_nonneg.mpr (h.usage_le _ hrow)

end SlackForm

section Restrict

variable (P : Program Rat) (z : Nat → Rat)

theorem getD_restrict {j : Nat} (hj : j < P.variableCount) : (P.restrict z).getD j 0 = z j := by
  rw [restrict, Array.getD_eq_getD_getElem?, Array.getElem?_ofFn, dif_pos hj, Option.getD_some]

-- A sum over the restriction is one over the variables among the columns.
theorem sum_restrict (f : Nat → Rat) :
    ∑ j ∈ Finset.range P.variableCount, f j * (P.restrict z).getD j 0 =
      ∑ j ∈ Finset.range P.variableCount, f j * z j := by
  refine Finset.sum_congr rfl fun j hj => ?_
  rw [getD_restrict P z (Finset.mem_range.mp hj)]

theorem objectiveAt_restrict :
    P.objectiveAt (P.restrict z) = ∑ j ∈ Finset.range P.variableCount, P.cost j * z j :=
  sum_restrict P z P.cost

theorem slackAt_restrict {z : Nat → Rat} (h : P.Balances z) {i : Nat} (hi : i < P.rowCount) :
    P.slackAt (P.restrict z) i = z (P.variableCount + i) := by
  rw [slackAt, usage, sum_restrict, ← h i hi, add_sub_cancel_left]

/-- What balances every row and is not negative is feasible. -/
theorem feasible_restrict {z : Nat → Rat} (h : P.Balances z)
    (hz : ∀ j < P.columnCount, 0 ≤ z j) : P.Feasible (P.restrict z) where
  size_eq := Array.size_ofFn
  nonneg := by
    intro j hj
    rw [getD_restrict P z hj]
    exact hz j (Nat.lt_of_lt_of_le hj (Nat.le_add_right _ _))
  usage_le := by
    intro i hi
    have hslack := slackAt_restrict P h hi
    have hnonneg := hz (P.variableCount + i) (Nat.add_lt_add_left hi _)
    rw [slackAt] at hslack
    linarith

end Restrict

/-- A program that nothing speaks against has no negative bound. -/
theorem bound_nonneg {ε : Rat} {P : Program Rat} (h : P.rejection? (.exact ε) = none) (i : Nat) :
    0 ≤ P.bound i := by
  unfold rejection? at h
  split at h
  · exact absurd h (by simp only [reduceCtorEq, not_false_eq_true])
  · split at h
    · exact absurd h (by simp only [reduceCtorEq, not_false_eq_true])
    · simp only [negativeBound?, Option.map_eq_none_iff, List.find?_eq_none,
        Arithmetic.exact_lt, Arithmetic.exact_zero, decide_eq_true_eq] at h
      by_cases hi : i < P.bounds.size
      · have hmem : (P.bounds[i], i) ∈ P.bounds.toList.zipIdx := by
          rw [List.mem_zipIdx_iff_getElem?, Array.getElem?_toList]
          exact Array.getElem?_eq_getElem hi
        rw [bound, Array.getD_eq_getD_getElem?, Array.getElem?_eq_getElem hi, Option.getD_some]
        exact not_lt.mp (h _ hmem)
      · rw [bound, Array.getD_eq_getD_getElem?, Array.getElem?_eq_none (by omega),
          Option.getD_none]

end Program

end SimplexMethod
