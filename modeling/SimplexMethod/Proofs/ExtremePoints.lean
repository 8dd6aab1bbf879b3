import SimplexMethod.Proofs.Agreement
import SimplexMethod.Proofs.Cycling

/-!
# Extreme points

The points a run comes by are corners of the polytope.

A corner is a feasible point that does not lie strictly between two other ones.
That a basic solution is one has two reasons. The slack form of a point depends
affinely on it, so if the reported point lies between two feasible points, its
slack form lies between theirs. Outside the basis it is zero there, and theirs
are not negative, so they are zero as well. And a solution of the constraint
rows that is zero outside the basis is the basic solution: each row of a
canonical tableau has one basic column left, and names its value. So the two
points are the reported one.

The basic solution is feasible as long as no right hand side is negative, which
an exact run without tolerance preserves. No verdict is needed for any of this;
a run that is stopped by its limit reports a corner too.

## Main definitions

* `Program.ExtremePoint`: A corner of the polytope.
* `Tableau.AtCorner`: A tableau that shows a corner.

## Theorems

* `Program.slackForm_between`: Slack forms depend affinely on their points.
* `Tableau.Canonical.eq_basicValue`: The basic solution is the only one that is
  zero outside the basis.
* `Tableau.Faithful.extremePoint_solution`: The reported point is a corner.
* `solve_visits_corners`: So are all points of a run.
-/

namespace SimplexMethod

namespace Program

/-- A feasible point that is not a proper convex combination of two different
    feasible points. -/
structure ExtremePoint (P : Program Rat) (x : Array Rat) : Prop where
  feasible : P.Feasible x
  extreme : ∀ y z, P.Feasible y → P.Feasible z → ∀ t, 0 < t → t < 1 →
    (∀ j < P.variableCount, x.getD j 0 = t * y.getD j 0 + (1 - t) * z.getD j 0) → y = z

section Between

variable (P : Program Rat) {x y z : Array Rat} {t : Rat}

theorem usage_between
    (hx : ∀ j < P.variableCount, x.getD j 0 = t * y.getD j 0 + (1 - t) * z.getD j 0) (i : Nat) :
    P.usage x i = t * P.usage y i + (1 - t) * P.usage z i := by
  rw [usage, usage, usage, Finset.mul_sum, Finset.mul_sum, ← Finset.sum_add_distrib]
  refine Finset.sum_congr rfl fun j hj => ?_
  rw [hx j (Finset.mem_range.mp hj)]
  ring

theorem slackForm_between
    (hx : ∀ j < P.variableCount, x.getD j 0 = t * y.getD j 0 + (1 - t) * z.getD j 0) (j : Nat) :
    P.slackForm x j = t * P.slackForm y j + (1 - t) * P.slackForm z j := by
  by_cases hj : j < P.variableCount
  · simp only [slackForm_variable P _ hj]
    exact hx j hj
  · simp only [slackForm, if_neg hj, slackAt, P.usage_between hx]
    ring

-- Two feasible points with the same values are the same array.
theorem Feasible.eq_of_getD_eq {P : Program Rat} (hy : P.Feasible y) (hz : P.Feasible z)
    (hvalues : ∀ j < P.variableCount, y.getD j 0 = z.getD j 0) : y = z :=
  SimplexMethod.eq_of_getD_eq 0 (hy.size_eq.trans hz.size_eq.symm) fun j hj =>
    hvalues j (hz.size_eq ▸ hj)

end Between

theorem slackForm_restrict (P : Program Rat) {z : Nat → Rat} (h : P.Balances z) {j : Nat}
    (hj : j < P.columnCount) : P.slackForm (P.restrict z) j = z j := by
  by_cases hvariable : j < P.variableCount
  · rw [slackForm_variable P _ hvariable, getD_restrict P z hvariable]
  · have hrow : j - P.variableCount < P.rowCount := by
      rw [columnCount] at hj
      omega
    rw [slackForm, if_neg hvariable, slackAt_restrict P h hrow,
      Nat.add_sub_cancel' (Nat.le_of_not_lt hvariable)]

end Program

namespace Tableau

/-- A solution that is zero outside the basis is the basic solution. -/
theorem Canonical.eq_basicValue {T : Tableau Rat} (h : T.Canonical) {z : Nat → Rat}
    (hz : T.Solves z) (hzero : ∀ j < T.columnCount, j ∉ T.basicSet → z j = 0) {j : Nat}
    (hj : j < T.columnCount) : z j = T.basicValue j := by
  by_cases hbasic : j ∈ T.basicSet
  · rcases mem_basicSet.mp hbasic with ⟨i, hi, rfl⟩
    -- In row `i` only its own basic column has both an entry and a value.
    have hsum : ∑ k ∈ Finset.range T.columnCount, T.entry i k * z k = z (T.basicColumn i) := by
      rw [Finset.sum_eq_single_of_mem (T.basicColumn i) (Finset.mem_range.mpr hj),
        h.unit i hi i (Nat.le_of_lt hi), if_pos rfl, one_mul]
      intro k hk hne
      by_cases hother : k ∈ T.basicSet
      · rcases mem_basicSet.mp hother with ⟨l, hl, rfl⟩
        have hrows : i ≠ l := fun heq => hne (by rw [heq])
        rw [h.unit l hl i (Nat.le_of_lt hi), if_neg hrows, zero_mul]
      · rw [hzero k (Finset.mem_range.mp hk) hother, mul_zero]
    have hrow := hz i hi
    rw [residual, hsum] at hrow
    rw [basicValue, h.spread_basicColumn T.constant hi]
    exact sub_eq_zero.mp hrow
  · rw [hzero j hj hbasic, basicValue, spread_of_notMem _ hbasic]

namespace Faithful

variable {ε : Rat} {P : Program Rat} {T : Tableau Rat}

theorem slackForm_solution (h : T.Faithful P) (hcurrent : T.Current (.exact ε)) {j : Nat}
    (hj : j < P.columnCount) : P.slackForm T.solution j = T.basicValue j := by
  rw [h.solution_eq hcurrent, P.slackForm_restrict h.balances_basicValue hj]

/-- If the reported point lies strictly between two feasible points, the first of
    them has the slack form of the reported point. -/
theorem slackForm_eq_of_between (h : T.Faithful P) (hcurrent : T.Current (.exact ε))
    {y z : Array Rat} (hy : P.Feasible y) (hz : P.Feasible z) {t : Rat} (hpos : 0 < t)
    (hlt : t < 1) (hbetween : ∀ j < P.variableCount,
      T.solution.getD j 0 = t * y.getD j 0 + (1 - t) * z.getD j 0) {j : Nat}
    (hj : j < P.columnCount) : P.slackForm y j = T.basicValue j := by
  have hcolumns := h.columnCount_eq
  have hsolves := (h.solves_iff _).mpr (P.balances_slackForm y)
  refine h.canonical.eq_basicValue hsolves (fun k hk hbasic => ?_) (hcolumns ▸ hj)
  rw [hcolumns] at hk
  -- Two summands that are not negative make up the zero outside the basis.
  have hsum := P.slackForm_between hbetween k
  rw [h.slackForm_solution hcurrent hk, basicValue, spread_of_notMem _ hbasic] at hsum
  have hfirst := mul_nonneg (le_of_lt hpos) (P.slackForm_nonneg hy hk)
  have hsecond := mul_nonneg (sub_nonneg.mpr (le_of_lt hlt)) (P.slackForm_nonneg hz hk)
  have hproduct : t * P.slackForm y k = 0 := by linarith
  exact (mul_eq_zero.mp hproduct).resolve_left (ne_of_gt hpos)

/-- The reported point is a corner if no right hand side is negative. -/
theorem extremePoint_solution (h : T.Faithful P) (hcurrent : T.Current (.exact ε))
    (hprimal : T.Primal) : P.ExtremePoint T.solution where
  feasible := h.feasible_solution hcurrent hprimal
  extreme := by
    intro y z hy hz t hpos hlt hbetween
    refine hy.eq_of_getD_eq hz fun j hj => ?_
    have hcolumn : j < P.columnCount := Nat.lt_of_lt_of_le hj (Nat.le_add_right _ _)
    have hfirst := h.slackForm_eq_of_between hcurrent hy hz hpos hlt hbetween hcolumn
    -- The second point is the first one seen from the other end.
    have hsecond := h.slackForm_eq_of_between hcurrent hz hy (sub_pos.mpr hlt)
      (sub_lt_self 1 hpos) (fun k hk => by rw [hbetween k hk]; ring) hcolumn
    rw [P.slackForm_variable y hj] at hfirst
    rw [P.slackForm_variable z hj] at hsecond
    exact hfirst.trans hsecond.symm

end Faithful

/-- A tableau that shows a corner: no right hand side and no slack is negative, and
    the point it shows is a corner. -/
structure AtCorner (P : Program Rat) (T : Tableau Rat) : Prop where
  constant_nonneg : ∀ i < P.rowCount, 0 ≤ T.constant i
  slack_nonneg : ∀ i < P.rowCount, 0 ≤ T.slacks.getD i 0
  corner : P.ExtremePoint T.solution

theorem Faithful.atCorner {ε : Rat} {P : Program Rat} {T : Tableau Rat} (h : T.Faithful P)
    (hcurrent : T.Current (.exact ε)) (hprimal : T.Primal) : T.AtCorner P where
  constant_nonneg := by
    rcases h.program_eq with rfl
    exact hprimal
  slack_nonneg := by
    intro i hi
    have husage := (h.feasible_solution hcurrent hprimal).usage_le i hi
    have hbalance := h.usage_add_slack hcurrent hi
    linarith
  corner := h.extremePoint_solution hcurrent hprimal

end Tableau

/-- In exact arithmetic without tolerance, every tableau that a run of an accepted
    program comes by shows a corner of its polytope, under any rules, any limit and
    any checks. So the report does too, whatever its status: its slacks are not
    negative, and its solution is feasible and lies between no two other feasible
    points. -/
theorem solve_visits_corners {o : Options Rat} {data P : Program Rat} (htolerance : o.tolerance = 0)
    (haccept : data.accept (.exact 0) = .ok P) :
    (∀ V ∈ (P.trace (.exact 0) o).path, V.AtCorner P) ∧
    (P.trace (.exact 0) o).last.AtCorner P ∧
    ∃ report, solve (.exact 0) o data = .ok report ∧
      (∀ i < P.rowCount, 0 ≤ report.slacks.getD i 0) ∧ P.ExtremePoint report.solution := by
  rcases Program.accept_eq_ok.mp haccept with ⟨hnone, rfl⟩
  have hprimal := P.trace_primal htolerance hnone
  have hstart : (Tableau.ofProgram (.exact 0) P).Current (.exact 0) := .ofProgram (.exact 0) P
  have hlast : (P.trace (.exact 0) o).last.AtCorner P :=
    hprimal.2.1.atCorner (Tableau.run_current (.exact 0) o hstart) hprimal.2.2
  refine ⟨fun V hV => ?_, hlast, P.solve (.exact 0) o, solve_eq_ok.mpr ⟨hnone, rfl⟩, ?_⟩
  · have hcurrent := Tableau.run_path_current (.exact 0) o hstart V hV
    exact (hprimal.1 V hV).1.atCorner hcurrent (hprimal.1 V hV).2
  · exact ⟨hlast.slack_nonneg, hlast.corner⟩

-- The run is stopped in the middle of its cycle, at a corner with ties.
theorem solve_visits_corners_beale :
    let o : Options Rat := { Options.sharp with maxIterations := some 2 }
    ∃ report, solve (.exact 0) o beale = .ok report ∧
      report.status = .maxIterationsExceeded ∧ report.iterations = 2 ∧
      beale.ExtremePoint report.solution := by
  intro o
  have haccept : beale.accept (.exact 0) = .ok beale :=
    Program.accept_eq_ok.mpr ⟨by decide +kernel, rfl⟩
  rcases (solve_visits_corners (o := o) rfl haccept).2.2 with ⟨report, hsolve, _, hcorner⟩
  have hreport := (solve_eq_ok.mp hsolve).2
  refine ⟨report, hsolve, ?_, ?_, hcorner⟩
  · rw [hreport]
    decide +kernel
  · rw [hreport]
    decide +kernel

end SimplexMethod
