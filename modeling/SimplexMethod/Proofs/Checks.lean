import SimplexMethod.Proofs.Agreement
import SimplexMethod.Proofs.ConsistentBasis

/-!
# Checks in exact arithmetic

What each check of a tableau asks for, in the words of the theory.

A check is a search that returns the first violation it meets, and allows for rounding
in two ways: comparisons leave room for a tolerance, and sums over the program's data
are compensated. In exact arithmetic neither is needed. A compensated sum carries
nothing, so the scalar products are those of the program; and what holds exactly holds
with room to spare.

For the signs of right hand sides and reduced costs the check is described completely,
since something will be concluded from its passing as well. For the others it is enough
to know what makes them pass. The records of the basis are the only ones with an
argument of their own: the check counts marks where the theory knows which columns have
one, and the two agree because the map names every marked column once.

## Theorems

* `Arithmetic.compensatedDot_exact`: Compensated scalar products are exact.
* `Basis.Consistent.count_marks_eq`: A consistent basis has one mark per row.
* `Basis.Consistent.violation?_eq_none`: It passes its check.
* `Tableau.Shaped.shapeViolation?_eq_none`, `Tableau.Canonical.unitViolation?_eq_none`: So do
  shape and unit vectors.
* `Tableau.primalViolation?_eq_none`, `Tableau.dualViolation?_eq_none`: The signs that are
  checked.
* `Tableau.progressViolation?_eq_none`: Objective values that are in order pass.
* `Tableau.signViolation?_eq_none`, `Tableau.constraintViolation?_eq_none`,
  `Tableau.objectiveViolation?_eq_none`: So does a feasible point with its own value.
-/

namespace SimplexMethod

section Sums

variable (ε : Rat)

theorem Arithmetic.checkTolerance_exact : (Arithmetic.exact ε).checkTolerance = 1 / 10 ^ 6 := by
  simp [Arithmetic.checkTolerance, Arithmetic.exact]

-- Nothing is lost, so nothing is carried.
theorem Compensated.add_exact (s : Compensated Rat) (value : Rat) :
    s.add (.exact ε) value = ⟨s.sum + value, s.carry⟩ := by
  have hfirst : s.sum + -(s.sum + value) + value = 0 := by ring
  have hsecond : value + -(s.sum + value) + s.sum = 0 := by ring
  simp only [add, Arithmetic.exact_add, Arithmetic.exact_neg, hfirst, hsecond, ite_self, add_zero]

theorem Compensated.foldl_add_exact (values : List Rat) (s : Compensated Rat) :
    values.foldl (add (.exact ε)) s = ⟨s.sum + values.sum, s.carry⟩ := by
  induction values generalizing s with
  | nil => rw [List.foldl_nil, List.sum_nil, add_zero]
  | cons value rest ih =>
      rw [List.foldl_cons, add_exact, ih, List.sum_cons, add_assoc]

theorem sum_zipWith_mul (l l' : List Rat) :
    (List.zipWith (fun x y => x * y) l l').sum =
      ∑ j ∈ Finset.range l'.length, l.getD j 0 * l'.getD j 0 := by
  induction l' generalizing l with
  | nil => simp
  | cons y rest ih =>
      cases l with
      | nil => simp
      | cons x l =>
          rw [List.zipWith_cons_cons, List.sum_cons, ih, List.length_cons, Finset.sum_range_succ']
          simp only [List.getD_cons_succ, List.getD_cons_zero]
          ring

/-- In exact arithmetic the compensated scalar product is the scalar product. -/
theorem Arithmetic.compensatedDot_exact (a b : Array Rat) :
    (Arithmetic.exact ε).compensatedDot a b =
      ∑ j ∈ Finset.range b.size, a.getD j 0 * b.getD j 0 := by
  have hlist : ∀ (c : Array Rat) (j : Nat), c.getD j 0 = c.toList.getD j 0 := fun c j => by
    rw [Array.getD_eq_getD_getElem?, List.getD_eq_getElem?_getD, Array.getElem?_toList]
  simp only [compensatedDot, Compensated.ofList, Compensated.foldl_add_exact, Compensated.read,
    Compensated.empty, exact_zero, exact_add, zero_add, add_zero, products, hlist]
  exact sum_zipWith_mul a.toList b.toList

-- A number is near itself.
theorem Arithmetic.near_self (x : Rat) :
    (Arithmetic.exact ε).near x x (Arithmetic.exact ε).checkTolerance = true := by
  have hgap : (Arithmetic.exact ε).abs (x - x) = 0 := by
    rw [sub_self]
    rfl
  have hlt : (0 : Rat) < 1 / 10 ^ 6 := by positivity
  simp only [near, exact_sub, hgap, exact_lt, checkTolerance_exact, decide_eq_true hlt,
    Bool.true_or]

end Sums

namespace Basis

-- The marks, counted where they stand.
theorem count_marks (B : Basis) :
    B.marks.count true = ((List.range B.marks.size).filter B.marked).length := by
  have hlist : B.marks.toList = (List.range B.marks.size).map B.marked := by
    refine List.ext_getElem (by simp) fun j hj _ => ?_
    have hlt : j < B.marks.size := by rwa [Array.length_toList] at hj
    rw [List.getElem_map, List.getElem_range, marked, Array.getD_eq_getD_getElem?,
      Array.getElem?_eq_getElem hlt, Option.getD_some, Array.getElem_toList]
  rw [← Array.count_toList, hlist, List.count, List.countP_map, List.countP_eq_length_filter]
  congr 2
  funext j
  simp

-- Where no row is sent below zero, different integers are different columns.
theorem nodup_column {B : Basis} {rows : Nat}
    (hcast : ∀ i < rows, (B.column i : Int) = B.columns.getD i 0)
    (hnodup : ((List.range rows).map fun row => B.columns.getD row 0).Nodup) :
    ((List.range rows).map B.column).Nodup := by
  refine List.nodup_range.map_on fun i hi k hk heq => ?_
  refine List.inj_on_of_nodup_map hnodup hi hk ?_
  rw [← hcast i (List.mem_range.mp hi), ← hcast k (List.mem_range.mp hk), heq]

namespace Consistent

variable {α : Type} {B : Basis} {rows columns : Nat}

theorem rowViolation?_eq_none (h : B.Consistent rows columns) {row : Nat} (hrow : row < rows) :
    B.rowViolation? (α := α) columns row = none := by
  have hrange := h.range row hrow
  exact rowViolation?_eq_none_iff.mpr
    ⟨hrange, (h.marked_iff _).mpr ⟨row, hrow, (Int.toNat_of_nonneg hrange.1).symm⟩⟩

theorem nodup_columns (h : B.Consistent rows columns) :
    ((List.range rows).map fun row => B.columns.getD row 0).Nodup :=
  List.nodup_range.map_on fun i hi k hk heq =>
    h.injective i (List.mem_range.mp hi) k (List.mem_range.mp hk) heq

theorem column_eq (h : B.Consistent rows columns) {row : Nat} (hrow : row < rows) :
    (B.column row : Int) = B.columns.getD row 0 :=
  Int.toNat_of_nonneg (h.range row hrow).1

/-- There are as many marks as rows: the columns with marks are those that the map
    names, each of them once. -/
theorem count_marks_eq (h : B.Consistent rows columns) : B.marks.count true = rows := by
  have hnamed := nodup_column (fun i hi => h.column_eq hi) h.nodup_columns
  have hmarked : ((List.range B.marks.size).filter B.marked).Nodup :=
    List.nodup_range.filter _
  have hperm : List.Perm ((List.range rows).map B.column)
      ((List.range B.marks.size).filter B.marked) := by
    refine (List.perm_ext_iff_of_nodup hnamed hmarked).mpr fun j => ?_
    rw [List.mem_map, List.mem_filter, List.mem_range, h.marks_size, h.marked_iff]
    constructor
    · rintro ⟨i, hi, rfl⟩
      have hi := List.mem_range.mp hi
      have hrange := (h.range i hi).2
      have hcolumn := h.column_eq hi
      exact ⟨by omega, i, hi, hcolumn.symm⟩
    · rintro ⟨_, i, hi, hcolumn⟩
      have hcast := h.column_eq hi
      exact ⟨i, List.mem_range.mpr hi, by omega⟩
  rw [count_marks, ← hperm.length_eq, List.length_map, List.length_range]

/-- A consistent basis passes its check. -/
theorem violation?_eq_none (h : B.Consistent rows columns) :
    B.violation? (α := α) rows columns = none := by
  rw [violation?_eq_none_iff]
  exact ⟨fun row hrow => h.rowViolation?_eq_none hrow, h.nodup_columns, h.count_marks_eq⟩

end Consistent

end Basis

namespace Tableau

section Structure

variable {α : Type} {T : Tableau α}

theorem Shaped.shapeViolation?_eq_none (h : T.Shaped) : T.shapeViolation? = none := by
  rw [shapeViolation?]
  simp only [h.rows_size, h.point_size, ne_eq, not_true_eq_false, if_false]
  rw [orElse_eq_none, List.findSome?_eq_none_iff]
  refine ⟨fun entry hmem => ?_, rfl⟩
  exact if_neg (not_not_intro (h.row_size _ (List.fst_mem_of_mem_zipIdx hmem)))

end Structure

section Exact

variable {ε : Rat} {T : Tableau Rat}

theorem primalViolation?_eq_none :
    T.primalViolation? (.exact ε) = none ↔ ∀ i < T.rowCount, -(1 / 10 ^ 6) ≤ T.constant i := by
  simp only [primalViolation?, List.findSome?_eq_none_iff, List.mem_range, rightSide_exact,
    Arithmetic.exact_lt, Arithmetic.exact_neg, Arithmetic.checkTolerance_exact,
    decide_eq_true_eq, ite_eq_right_iff, reduceCtorEq, imp_false, not_lt]

theorem dualViolation?_eq_none :
    T.dualViolation? (.exact ε) = none ↔
      ∀ j < T.columnCount, -(1 / 10 ^ 6) ≤ T.entry T.rowCount j := by
  simp only [dualViolation?, List.findSome?_eq_none_iff, List.mem_range, reducedCost_exact,
    Arithmetic.exact_lt, Arithmetic.exact_neg, Arithmetic.checkTolerance_exact,
    decide_eq_true_eq, ite_eq_right_iff, reduceCtorEq, imp_false, not_lt]

theorem Canonical.unitViolation?_eq_none (h : T.Canonical) :
    T.unitViolation? (.exact ε) = none := by
  simp only [unitViolation?, List.findSome?_eq_none_iff, List.mem_range]
  intro basicRow hbasic row hrow
  have hvalue := h.unit basicRow hbasic row (Nat.lt_succ_iff.mp hrow)
  simp only [cell_exact, hvalue, Arithmetic.exact_one, Arithmetic.exact_zero]
  rw [Arithmetic.near_self, if_pos rfl]

theorem progressViolation?_eq_none {history : Array Rat}
    (h : ∀ before last, history.pop.back? = some before → history.back? = some last →
      T.program.sense.sign * last ≤ T.program.sense.sign * before) :
    T.progressViolation? (.exact ε) history = none := by
  have htolerance : (0 : Rat) < 1 / 10 ^ 6 := by positivity
  unfold progressViolation?
  split
  · rename_i before last hbefore hlast
    have horder := h before last hbefore hlast
    refine if_pos ?_
    cases hsense : T.program.sense with
    | maximize =>
        rw [hsense, Sense.sign] at horder
        simp only [Arithmetic.exact_lt, Arithmetic.exact_sub, Arithmetic.checkTolerance_exact,
          decide_eq_true_eq]
        linarith
    | minimize =>
        rw [hsense, Sense.sign] at horder
        simp only [Arithmetic.exact_lt, Arithmetic.exact_add, Arithmetic.checkTolerance_exact,
          decide_eq_true_eq]
        linarith
  · rfl

theorem signViolation?_eq_none (h : ∀ j < T.solution.size, 0 ≤ T.solution.getD j 0) :
    T.signViolation? (.exact ε) = none := by
  have htolerance : (0 : Rat) < 1 / 10 ^ 6 := by positivity
  rw [signViolation?, List.findSome?_eq_none_iff]
  intro (value, j) hmem
  have hget : T.solution[j]? = some value := by
    rw [← Array.getElem?_toList]
    exact List.mem_zipIdx_iff_getElem?.mp hmem
  have hnonneg := h j (Array.getElem?_eq_some_iff.mp hget).1
  rw [Array.getD_eq_getD_getElem?, hget, Option.getD_some] at hnonneg
  simp only [Arithmetic.exact_lt, Arithmetic.exact_neg, Arithmetic.checkTolerance_exact,
    decide_eq_true_eq]
  exact if_neg (by linarith)

theorem constraintViolation?_eq_none (hsize : T.solution.size = T.program.variableCount)
    (h : ∀ i < T.program.matrix.size, T.program.usage T.solution i ≤ T.program.bound i) :
    T.constraintViolation? (.exact ε) = none := by
  have htolerance : (0 : Rat) < 1 / 10 ^ 6 := by positivity
  rw [constraintViolation?, List.findSome?_eq_none_iff]
  intro (row, i) hmem
  have hget : T.program.matrix[i]? = some row := by
    rw [← Array.getElem?_toList]
    exact List.mem_zipIdx_iff_getElem?.mp hmem
  have husage : (Arithmetic.exact ε).compensatedDot row T.solution =
      T.program.usage T.solution i := by
    rw [Arithmetic.compensatedDot_exact, hsize, Program.usage]
    simp only [Program.coefficient, Array.getD_eq_getD_getElem? (i := i), hget, Option.getD_some]
  have hbound := h i (Array.getElem?_eq_some_iff.mp hget).1
  rw [Program.bound] at hbound
  simp only [husage, Arithmetic.exact_lt, Arithmetic.exact_add, Arithmetic.exact_zero,
    Arithmetic.checkTolerance_exact, decide_eq_true_eq]
  exact if_neg (by linarith)

theorem objectiveViolation?_eq_none (hsize : T.solution.size = T.program.variableCount)
    (h : T.program.objectiveAt T.solution = T.value) :
    T.objectiveViolation? (.exact ε) = none := by
  have hactual : (Arithmetic.exact ε).compensatedDot T.program.objective T.solution =
      T.value := by
    rw [Arithmetic.compensatedDot_exact, hsize, ← h]
    rfl
  rw [objectiveViolation?]
  simp only [hactual, Arithmetic.near_self, if_true]

end Exact

end Tableau

end SimplexMethod
