import SimplexMethod.Proofs.ExtremePoints
import SimplexMethod.Proofs.Verdicts

/-!
# Overstepping

What a positive tolerance can do to a verdict.

The ratio test leaves out every row whose entry is not above the tolerance. An entry
that is positive but no larger still limits the entering column, though perhaps far
away, and nothing looks how far. So a step can be longer than such a row allows, and a
column can count as unbounded that the row bounds. The verdict is then about a polytope
without that row.

Whether this happens is read off each tableau as it is met. All vertices of a run are
feasible exactly if all its pivots were made from careful tableaux, and what a run with
careful tableaux says is true, for every tolerance and every relative epsilon. How much
the reported point misses its constraints is read off the last tableau.

Without relative epsilon only rows within the tolerance can be overstepped. The right
hand side that remains is then at least the tolerance times the length of the step,
negated. The step may be of any length, so this need not be small.

## Main definitions

* `Program.FeasibleWithin`: No constraint is missed by more than an amount.

## Theorems

* `Program.stages_primal_iff`: A run keeps its vertices feasible exactly if it is careful.
* `Tableau.Faithful.feasibleWithin_iff`: How much the reported point misses.
* `Tableau.Faithful.unbounded_of_careful`: A careful tableau that finds the program
  unbounded is right.
* `Tableau.Faithful.neg_le_constant_advance`: How far a step can overstep.
* `solve_verdict_careful`: What a report says is true if the run was careful.
* `solve_verdict_gauze`: And may be false if it was not.
-/

namespace SimplexMethod

namespace Program

/-- No value is negative and no row used beyond its bound by more than `δ`. -/
structure FeasibleWithin (P : Program Rat) (δ : Rat) (x : Array Rat) : Prop where
  /-- There is one value per variable. -/
  size_eq : x.size = P.variableCount
  /-- No value is further below zero. -/
  neg_le : ∀ j < P.variableCount, -δ ≤ x.getD j 0
  /-- No row is used further beyond its bound. -/
  usage_le : ∀ i < P.rowCount, P.usage x i ≤ P.bound i + δ

theorem feasibleWithin_iff_slackForm {P : Program Rat} {δ : Rat} {x : Array Rat}
    (hsize : x.size = P.variableCount) :
    P.FeasibleWithin δ x ↔ ∀ j < P.columnCount, -δ ≤ P.slackForm x j := by
  constructor
  · intro h j hj
    by_cases hvariable : j < P.variableCount
    · rw [P.slackForm_variable x hvariable]
      exact h.neg_le j hvariable
    · rw [columnCount] at hj
      have husage := h.usage_le (j - P.variableCount) (by omega)
      rw [slackForm, if_neg hvariable, slackAt]
      linarith
  · intro h
    refine ⟨hsize, fun j hj => ?_, fun i hi => ?_⟩
    · rw [← P.slackForm_variable x hj]
      exact h j (Nat.lt_of_lt_of_le hj (Nat.le_add_right _ _))
    · have hslack := h (P.variableCount + i) (Nat.add_lt_add_left hi _)
      rw [P.slackForm_slack, slackAt] at hslack
      linarith

end Program

namespace Tableau

namespace Faithful

variable {ε : Rat} {o : Options Rat} {P : Program Rat} {T : Tableau Rat}

/-- Without relative epsilon, a pivot takes no right hand side further below zero than the
    tolerance times the length of the step. -/
theorem neg_le_constant_advance {column : Nat} {leaving : Leaving Rat} (hT : T.Faithful P)
    (hprimal : T.Primal) (htolerance : 0 ≤ o.tolerance)
    (hmove : T.nextMove (.exact 0) o = .pivot column leaving) {i : Nat} (hi : i < T.rowCount) :
    -(o.tolerance * leaving.ratio) ≤ (T.advance (.exact 0) leaving.row column).constant i := by
  have hratio := hprimal.ratio_nonneg htolerance hmove
  by_cases hoversteps : T.Oversteps i (.pivot column leaving)
  · have hself : i ≠ leaving.row := by
      rintro rfl
      exact not_oversteps_leaving hmove hoversteps
    rcases thin_of_oversteps hi (hmove ▸ hoversteps) with ⟨entering, hentering, _, hthin⟩
    rw [(nextMove_eq_pivot _ _ hmove).1, Option.some.injEq] at hentering
    rw [← hentering] at hthin
    have hproduct := mul_le_mul_of_nonneg_right hthin hratio
    have hconstant := hprimal i hi
    rw [hT.constant_step htolerance hmove hself]
    linarith
  · have hconstant := (hT.constant_nonneg_iff hprimal htolerance hmove hi).mpr hoversteps
    have hlength := mul_nonneg htolerance hratio
    linarith

/-- The reported point misses its constraints by what the right hand sides are below
    zero. -/
theorem feasibleWithin_iff (h : T.Faithful P) (hcurrent : T.Current (.exact ε)) {δ : Rat}
    (hδ : 0 ≤ δ) :
    P.FeasibleWithin δ T.solution ↔ ∀ i < T.rowCount, -δ ≤ T.constant i := by
  have hsize : T.solution.size = P.variableCount := by
    rw [h.solution_eq hcurrent]
    exact Array.size_ofFn
  rw [Program.feasibleWithin_iff_slackForm hsize]
  constructor
  · intro hcolumns i hi
    have hcolumn : T.basicColumn i < P.columnCount :=
      h.columnCount_eq ▸ basicColumn_lt h.canonical.toShaped hi
    have hvalue := hcolumns _ hcolumn
    rwa [h.slackForm_solution hcurrent hcolumn, basicValue,
      h.canonical.spread_basicColumn T.constant hi] at hvalue
  · intro hrows j hj
    rw [h.slackForm_solution hcurrent hj, basicValue]
    by_cases hbasic : j ∈ T.basicSet
    · rcases mem_basicSet.mp hbasic with ⟨i, hi, rfl⟩
      rw [h.canonical.spread_basicColumn T.constant hi]
      exact hrows i hi
    · rw [spread_of_notMem _ hbasic]
      exact neg_nonpos.mpr hδ

/-- Where no right hand side is negative and no row bounds the entering column, not even
    within the tolerance, the program is unbounded. -/
theorem unbounded_of_careful (h : T.Faithful P) (hcurrent : T.Current (.exact ε))
    (hprimal : T.Primal) (htolerance : 0 ≤ o.tolerance) (hcareful : T.Careful ε o) {column : Nat}
    (hmove : T.nextMove (.exact ε) o = .unbounded column) : P.Unbounded := by
  rcases entering_eq_some (nextMove_eq_unbounded _ _ hmove).1 with ⟨hcolumn, hcost⟩
  refine h.unbounded_of_ray hcurrent hprimal hcolumn (by linarith) fun i hi => ?_
  rw [Careful, hmove] at hcareful
  exact not_lt.mp (hcareful i hi)

end Faithful

end Tableau

open Tableau

/-- All stages of a run are free of negative right hand sides exactly if all its pivots
    are made from careful tableaux. -/
theorem Program.stages_primal_iff {ε : Rat} {o : Options Rat} {P : Program Rat}
    (htolerance : 0 ≤ o.tolerance) (haccept : P.rejection? (.exact ε) = none) :
    let t := P.trace (.exact ε) o
    (∀ k ≤ t.iterations, (t.stage k).Primal) ↔ ∀ k < t.iterations, (t.stage k).Careful ε o := by
  intro t
  have hstep : ∀ k < t.iterations, (t.stage k).Primal →
      ((t.stage (k + 1)).Primal ↔ (t.stage k).Careful ε o) := by
    intro k hk hprimal
    have hfaithful := (P.trace_faithful (ε := ε) htolerance).1 _ (t.stage_mem (Nat.le_of_lt hk))
    exact hfaithful.primal_follows_iff hprimal htolerance
      (follows_stage (.exact ε) o (ofProgram (.exact ε) P) hk)
  constructor
  · intro hprimal k hk
    exact (hstep k hk (hprimal k (Nat.le_of_lt hk))).mp (hprimal (k + 1) hk)
  · intro hcareful k
    induction k with
    | zero =>
        intro _ i (hi : i < P.rowCount)
        have hconstant : (t.stage 0).constant i = P.bound i := constant_ofProgram hi
        rw [hconstant]
        exact P.bound_nonneg haccept i
    | succ k ih => exact fun hk => (hstep k hk (ih (Nat.le_of_lt hk))).mpr (hcareful k hk)

/-- What a run in exact arithmetic reports, for any tolerance that is not negative, any
    relative epsilon and any rules. All its vertices are feasible exactly if all its pivots
    were careful. The reported point misses its constraints by no more than some amount
    exactly if no right hand side at the end is further below zero. If all pivots were
    careful, a point that is called optimal is feasible. If the last tableau is careful too,
    a program that is called unbounded is. Without relative epsilon, a row that is
    overstepped has an entry within the tolerance, and the first pivot that is not careful
    takes no right hand side further below zero than the tolerance times its step. -/
theorem solve_verdict_careful {ε : Rat} {o : Options Rat} {data : Program Rat}
    {report : Report Rat} (htolerance : 0 ≤ o.tolerance)
    (hsolve : solve (.exact ε) o data = .ok report) :
    let t := data.trace (.exact ε) o
    ((∀ k ≤ t.iterations, (t.stage k).Primal) ↔
      ∀ k < t.iterations, (t.stage k).Careful ε o) ∧
    (∀ δ, 0 ≤ δ → (data.FeasibleWithin δ report.solution ↔
      ∀ i < data.rowCount, -δ ≤ t.last.constant i)) ∧
    (report.status = .optimal → (∀ k < t.iterations, (t.stage k).Careful ε o) →
      data.Feasible report.solution) ∧
    (report.status = .unbounded → (∀ k ≤ t.iterations, (t.stage k).Careful ε o) →
      data.Unbounded) ∧
    (ε = 0 →
      (∀ k ≤ t.iterations, ∀ i < data.rowCount,
        (t.stage k).Oversteps i ((t.stage k).nextMove (.exact ε) o) →
        ∃ column, (t.stage k).entering (.exact ε) o = some column ∧
          0 < (t.stage k).entry i column ∧ (t.stage k).entry i column ≤ o.tolerance) ∧
      ∀ k < t.iterations, (t.stage k).Primal → ∀ column leaving,
        (t.stage k).nextMove (.exact ε) o = .pivot column leaving →
        ∀ i < data.rowCount, -(o.tolerance * leaving.ratio) ≤ (t.stage (k + 1)).constant i) := by
  rcases solve_eq_ok.mp hsolve with ⟨haccept, rfl⟩
  intro t
  have hprimal := data.stages_primal_iff (ε := ε) htolerance haccept
  have hfaithful := data.trace_faithful (ε := ε) htolerance
  have hstage : ∀ k ≤ t.iterations, (t.stage k).Faithful data :=
    fun k hk => hfaithful.1 _ (t.stage_mem hk)
  have hcurrent := run_current (.exact ε) o (.ofProgram (.exact ε) data)
  -- The last tableau is the last stage with another status, which neither sees.
  rcases run_last_stage (.exact ε) o (ofProgram (.exact ε) data) with ⟨status, hlast⟩
  have hend : (∀ k < t.iterations, (t.stage k).Careful ε o) → t.last.Primal := by
    intro hcareful
    have hprimal := hprimal.mpr hcareful t.iterations (Nat.le_refl _)
    rw [show t.last = _ from hlast]
    exact hprimal
  refine ⟨hprimal, fun δ hδ => ?_, fun _ hcareful => ?_, fun hstatus hcareful => ?_, ?_⟩
  · rw [← hfaithful.2.rowCount_eq]
    exact hfaithful.2.feasibleWithin_iff hcurrent hδ
  · exact hfaithful.2.feasible_solution hcurrent (hend hcareful)
  · rcases run_unbounded (.exact ε) o hstatus with ⟨column, hmove⟩
    have hcarefulLast : t.last.Careful ε o := by
      rw [show t.last = _ from hlast]
      exact hcareful t.iterations (Nat.le_refl _)
    exact hfaithful.2.unbounded_of_careful hcurrent (hend fun k hk => hcareful k (Nat.le_of_lt hk))
      htolerance hcarefulLast hmove
  · rintro rfl
    refine ⟨fun k hk i hi h => thin_of_oversteps ((hstage k hk).rowCount_eq ▸ hi) h, ?_⟩
    intro k hk hvertex column leaving hmove i hi
    have hfollows := follows_stage (.exact 0) o (ofProgram (.exact 0) data) hk
    rcases hfollows with ⟨_, _, hasked, hnext⟩
    rcases Move.pivot.inj (hasked.symm.trans hmove) with ⟨rfl, rfl⟩
    rw [show t.stage (k + 1) = _ from hnext]
    exact (hstage k (Nat.le_of_lt hk)).neg_le_constant_advance hvertex htolerance hmove
      ((hstage k (Nat.le_of_lt hk)).rowCount_eq ▸ hi)

/-- A limit of one above a row that is within the tolerance and much less tight. -/
def film : Program Rat where
  name := "film"
  sense := .maximize
  objective := #[1]
  matrix := #[#[1], #[1 / 2 ^ 34]]
  bounds := #[1, 1]

theorem solve_verdict_careful_film :
    let o := Options.standard (.exact 0)
    (∃ report, solve (.exact 0) o film = .ok report ∧ report.status = .optimal ∧
      report.iterations = 1 ∧ film.Feasible report.solution) ∧
    ∃ report, solve (.exact 0) o wedge = .ok report ∧ report.status = .unbounded ∧
      report.iterations = 1 ∧ wedge.Unbounded := by
  intro o
  have htolerance : 0 ≤ o.tolerance := by decide +kernel
  have hfilm : solve (.exact 0) o film = .ok (film.solve (.exact 0) o) :=
    solve_eq_ok.mpr ⟨by decide +kernel, rfl⟩
  have hwedge : solve (.exact 0) o wedge = .ok (wedge.solve (.exact 0) o) :=
    solve_eq_ok.mpr ⟨by decide +kernel, rfl⟩
  have hoptimal : (film.solve (.exact 0) o).status = .optimal := by decide +kernel
  have hunbounded : (wedge.solve (.exact 0) o).status = .unbounded := by decide +kernel
  exact ⟨⟨_, hfilm, hoptimal, by decide +kernel,
      (solve_verdict_careful htolerance hfilm).2.2.1 hoptimal (by decide +kernel)⟩,
    _, hwedge, hunbounded, by decide +kernel,
      (solve_verdict_careful htolerance hwedge).2.2.2.1 hunbounded (by decide +kernel)⟩

/-- One row that is within the tolerance. -/
def gauze : Program Rat where
  name := "gauze"
  sense := .maximize
  objective := #[1]
  matrix := #[#[1 / 2 ^ 34]]
  bounds := #[1]

/-- The same row above a limit that is much less tight. -/
def veil : Program Rat where
  name := "veil"
  sense := .maximize
  objective := #[1]
  matrix := #[#[1 / 2 ^ 34], #[1]]
  bounds := #[1, 2 ^ 40]

-- The row limits the variable to `2 ^ 34`.
theorem gauze_bounded : ¬ gauze.Unbounded := by
  intro h
  rcases h (2 ^ 34) with ⟨x, hx, hbeyond⟩
  have hobjective : gauze.objectiveAt x = 1 * x.getD 0 0 := Finset.sum_range_one _
  have husage : gauze.usage x 0 = 1 / 2 ^ 34 * x.getD 0 0 := Finset.sum_range_one _
  have hbeyond : 2 ^ 34 < gauze.objectiveAt x := hbeyond
  have hlimit : gauze.usage x 0 ≤ 1 := hx.usage_le 0 (by decide)
  rw [hobjective] at hbeyond
  rw [husage] at hlimit
  linarith

/-- With the standard choices and no rounding, a program is called unbounded that a row
    within the tolerance bounds, and a point optimal that uses `64` of a row that has
    `1`. -/
theorem solve_verdict_gauze :
    let o := Options.standard (.exact 0)
    (∃ report, solve (.exact 0) o gauze = .ok report ∧ report.status = .unbounded) ∧
    ¬ gauze.Unbounded ∧
    ∃ report, solve (.exact 0) o veil = .ok report ∧ report.status = .optimal ∧
      veil.bound 0 + 1 / 10 ^ 6 < veil.usage report.solution 0 := by
  intro o
  have hgauze : solve (.exact 0) o gauze = .ok (gauze.solve (.exact 0) o) :=
    solve_eq_ok.mpr ⟨by decide +kernel, rfl⟩
  have hveil : solve (.exact 0) o veil = .ok (veil.solve (.exact 0) o) :=
    solve_eq_ok.mpr ⟨by decide +kernel, rfl⟩
  exact ⟨⟨_, hgauze, by decide +kernel⟩, gauze_bounded, _, hveil, by decide +kernel,
    by decide +kernel⟩

end SimplexMethod
