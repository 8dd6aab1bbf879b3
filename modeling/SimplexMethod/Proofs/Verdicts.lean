import SimplexMethod.Proofs.Vertices

/-!
# Verdicts

What a run may be believed when it calls a program optimal or unbounded.

Both verdicts are read off a tableau that any number of pivots has transformed,
and both are statements about the program. The way back leads through row
equivalence. At an optimum every reduced cost is at least the negated tolerance,
and the objective at a feasible point is the reported value plus the reduced
costs times the slack form of the point; so no feasible point gains more than
the tolerance times its weight. At an unbounded tableau the entering column
bounds no row, and the ray along it stays feasible while its reduced cost drives
the objective beyond every bound.

The first argument needs no sign of a right hand side, and holds for every
tolerance and every relative epsilon. That the reported point is itself feasible
does need them.

## Theorems

* `Tableau.Faithful.value_sub_le`: What a feasible point can gain.
* `Tableau.Faithful.ray_nonneg`: A ray that no row bounds stays feasible.
* `Tableau.Faithful.unbounded_of_ray`: Its objective has no bound.
* `solve_optimal_sound`: An optimum cannot be beaten by more than the tolerance
  allows, and not at all in exact arithmetic without tolerance.
* `solve_unbounded_sound`: A program that is called unbounded is unbounded.
-/

namespace SimplexMethod

namespace Tableau

namespace Faithful

variable {ε : Rat} {P : Program Rat} {T : Tableau Rat}

/-- Where no reduced cost is below the negated tolerance, a feasible point gains at
    most the tolerance times its weight. -/
theorem value_sub_le {tolerance : Rat} (h : T.Faithful P) (hcurrent : T.Current (.exact ε))
    (hcosts : ∀ j < T.columnCount, -tolerance ≤ T.entry T.rowCount j) {x : Array Rat}
    (hx : P.Feasible x) :
    P.sense.sign * T.value - tolerance * P.weight x ≤ P.sense.sign * P.objectiveAt x := by
  have hobjective := h.objective_of_balances hcurrent (P.balances_slackForm x)
  rw [P.sum_slackForm] at hobjective
  have hcolumns := h.columnCount_eq
  have hsum : -tolerance * P.weight x ≤
      ∑ j ∈ Finset.range P.columnCount, T.entry T.rowCount j * P.slackForm x j := by
    rw [← P.sum_columns_slackForm, Finset.mul_sum]
    refine Finset.sum_le_sum fun j hj => ?_
    have hj : j < P.columnCount := Finset.mem_range.mp hj
    exact mul_le_mul_of_nonneg_right (hcosts j (hcolumns ▸ hj)) (P.slackForm_nonneg hx hj)
  rw [Program.objectiveAt, hobjective]
  linarith

-- The same in the words of each sense.
theorem objectiveAt_bound {tolerance : Rat} (h : T.Faithful P) (hcurrent : T.Current (.exact ε))
    (hcosts : ∀ j < T.columnCount, -tolerance ≤ T.entry T.rowCount j) {x : Array Rat}
    (hx : P.Feasible x) :
    match P.sense with
    | .maximize => P.objectiveAt x ≤ T.value + tolerance * P.weight x
    | .minimize => T.value - tolerance * P.weight x ≤ P.objectiveAt x := by
  have hgain := h.value_sub_le hcurrent hcosts hx
  cases hsense : P.sense with
  | maximize =>
      simp only [hsense, Sense.sign] at hgain ⊢
      linarith
  | minimize =>
      simp only [hsense, Sense.sign] at hgain ⊢
      linarith

/-- A ray along a column that bounds no row never leaves the positive orthant. -/
theorem ray_nonneg (hprimal : T.Primal) {column : Nat} {θ : Rat} (hθ : 0 ≤ θ)
    (hentries : ∀ i < T.rowCount, T.entry i column ≤ 0) (j : Nat) : 0 ≤ T.ray column θ j := by
  refine add_nonneg ?_ (spread_nonneg (fun i hi => ?_) j)
  · split
    · exact hθ
    · exact le_refl 0
  · have hproduct := mul_nonneg hθ (neg_nonneg.mpr (hentries i hi))
    have hconstant := hprimal i hi
    linarith

-- The signed objective falls along a ray as its reduced cost says.
theorem objectiveAt_ray (h : T.Faithful P) (hcurrent : T.Current (.exact ε)) {column : Nat}
    (hcolumn : column < T.columnCount) (θ : Rat) :
    P.sense.sign * P.objectiveAt (P.restrict (T.ray column θ)) =
      T.entry T.rowCount column * θ + P.sense.sign * T.value := by
  have hsolves := h.canonical.solves_ray hcolumn θ
  have hobjective := h.equivalent.objective_eq _ hsolves
  rw [h.canonical.residual_ray hcolumn, h.program_eq] at hobjective
  rw [P.objectiveAt_restrict, ← hobjective, h.sign_mul_value hcurrent]
  ring

/-- A column with negative reduced cost that bounds no row makes the program
    unbounded. -/
theorem unbounded_of_ray (h : T.Faithful P) (hcurrent : T.Current (.exact ε))
    (hprimal : T.Primal) {column : Nat} (hcolumn : column < T.columnCount)
    (hcost : T.entry T.rowCount column < 0)
    (hentries : ∀ i < T.rowCount, T.entry i column ≤ 0) : P.Unbounded := by
  intro bound
  -- Far enough along the ray to make up for the distance from the bound.
  have hpositive : 0 < -T.entry T.rowCount column := neg_pos.mpr hcost
  have hdistance : 0 ≤ |bound - T.value| + 1 := add_nonneg (abs_nonneg _) zero_le_one
  have hobjective := h.objectiveAt_ray hcurrent hcolumn
    ((|bound - T.value| + 1) / -T.entry T.rowCount column)
  have hfall : T.entry T.rowCount column *
      ((|bound - T.value| + 1) / -T.entry T.rowCount column) = -(|bound - T.value| + 1) := by
    rw [div_neg, mul_neg, mul_div_cancel₀ _ (ne_of_lt hcost)]
  rw [hfall] at hobjective
  refine ⟨P.restrict (T.ray column _), P.feasible_restrict ?_ fun j _ =>
    ray_nonneg hprimal (div_nonneg hdistance (le_of_lt hpositive)) hentries j, ?_⟩
  · have hbalances := (h.equivalent.solves_iff _).mp (h.canonical.solves_ray hcolumn
      ((|bound - T.value| + 1) / -T.entry T.rowCount column))
    rwa [h.program_eq] at hbalances
  · have hleft := neg_abs_le (bound - T.value)
    have hright := le_abs_self (bound - T.value)
    cases hsense : P.sense with
    | maximize =>
        simp only [hsense, Sense.sign] at hobjective ⊢
        linarith
    | minimize =>
        simp only [hsense, Sense.sign] at hobjective ⊢
        linarith

end Faithful

end Tableau

variable {ε : Rat} {o : Options Rat} {data : Program Rat} {report : Report Rat}

/-- If a run in exact arithmetic reports an optimum, no feasible point beats its
    value by more than the tolerance times the weight of the point. If the
    tolerance and the relative epsilon are zero, the reported point is an optimum
    and the reported value is its objective. -/
theorem solve_optimal_sound (htolerance : 0 ≤ o.tolerance)
    (hsolve : solve (.exact ε) o data = .ok report) (hstatus : report.status = .optimal) :
    (∀ x, data.Feasible x →
      match data.sense with
      | .maximize => data.objectiveAt x ≤ report.value + o.tolerance * data.weight x
      | .minimize => report.value - o.tolerance * data.weight x ≤ data.objectiveAt x) ∧
    (o.tolerance = 0 → ε = 0 →
      data.Optimum report.solution ∧ data.objectiveAt report.solution = report.value) := by
  rcases solve_eq_ok.mp hsolve with ⟨haccept, rfl⟩
  have hfaithful := (data.trace_faithful (ε := ε) htolerance).2
  have hcurrent := Tableau.run_current (.exact ε) o (.ofProgram (.exact ε) data)
  have hentering := Tableau.nextMove_eq_optimal _ _ (Tableau.run_optimal (.exact ε) o hstatus)
  have hbound : ∀ x, data.Feasible x → _ := fun x hx =>
    hfaithful.objectiveAt_bound hcurrent (fun j hj => Tableau.entering_eq_none hentering hj) hx
  refine ⟨hbound, ?_⟩
  rintro hzero rfl
  have hprimal := (data.trace_primal hzero haccept).2.2
  have hvalue := hfaithful.objectiveAt_solution hcurrent
  refine ⟨⟨hfaithful.feasible_solution hcurrent hprimal, fun y hy => ?_⟩, hvalue⟩
  -- Without tolerance nothing can be gained over the value, which the point attains.
  have hbound := hbound y hy
  rw [hzero, zero_mul, add_zero, sub_zero, ← hvalue] at hbound
  exact hbound

/-- Two products share two resources and a market that takes three of the second. -/
def workshop : Program Rat where
  name := "workshop"
  sense := .maximize
  objective := #[3, 2]
  matrix := #[#[1, 1], #[1, 3], #[0, 1]]
  bounds := #[4, 6, 3]

theorem solve_optimal_sound_workshop : ∃ report,
    solve (.exact 0) .sharp workshop = .ok report ∧ report.status = .optimal ∧
      workshop.Optimum report.solution ∧
        workshop.objectiveAt report.solution = report.value := by
  have hsolve : solve (.exact 0) .sharp workshop = .ok (workshop.solve (.exact 0) .sharp) :=
    solve_eq_ok.mpr ⟨by decide +kernel, rfl⟩
  have hstatus : (workshop.solve (.exact 0) .sharp).status = .optimal := by decide +kernel
  exact ⟨_, hsolve, hstatus, (solve_optimal_sound (le_refl 0) hsolve hstatus).2 rfl rfl⟩

/-- If a run in exact arithmetic without tolerance calls a program unbounded, it
    is. -/
theorem solve_unbounded_sound (htolerance : o.tolerance = 0)
    (hsolve : solve (.exact 0) o data = .ok report) (hstatus : report.status = .unbounded) :
    data.Unbounded := by
  rcases solve_eq_ok.mp hsolve with ⟨haccept, rfl⟩
  rcases (data.trace_primal htolerance haccept).2 with ⟨hfaithful, hprimal⟩
  have hcurrent := Tableau.run_current (.exact 0) o (.ofProgram (.exact 0) data)
  rcases Tableau.run_unbounded (.exact 0) o hstatus with ⟨column, hmove⟩
  rcases Tableau.nextMove_eq_unbounded _ _ hmove with ⟨hentering, hleaving⟩
  rcases Tableau.entering_eq_some hentering with ⟨hcolumn, hcost⟩
  rw [htolerance, neg_zero] at hcost
  refine hfaithful.unbounded_of_ray hcurrent hprimal hcolumn hcost fun i hi => ?_
  have hentry := Tableau.leaving_eq_none hleaving hi
  rwa [htolerance] at hentry

/-- A wedge that opens away from the origin: one row lets both variables grow. -/
def wedge : Program Rat where
  name := "wedge"
  sense := .maximize
  objective := #[1, 1]
  matrix := #[#[1, -1]]
  bounds := #[1]

theorem solve_unbounded_sound_wedge : ∃ report,
    solve (.exact 0) .sharp wedge = .ok report ∧ report.status = .unbounded ∧
      report.iterations = 1 ∧ wedge.Unbounded := by
  have hsolve : solve (.exact 0) .sharp wedge = .ok (wedge.solve (.exact 0) .sharp) :=
    solve_eq_ok.mpr ⟨by decide +kernel, rfl⟩
  have hstatus : (wedge.solve (.exact 0) .sharp).status = .unbounded := by decide +kernel
  exact ⟨_, hsolve, hstatus, by decide +kernel, solve_unbounded_sound rfl hsolve hstatus⟩

end SimplexMethod
