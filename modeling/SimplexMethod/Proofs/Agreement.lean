import SimplexMethod.Proofs.PivotSequences

/-!
# Agreement of the reported values

A report gives the same vertex four times over.

Solution and slacks are the two halves of the point, the duals stand under the
slack columns of the objective row, and the value stands in its last cell; sense
and sign are taken into account separately for each. All of them are read from
one faithful tableau, and that is enough for them to agree. The point is the
basic solution, which balances every row. Its objective is the value, since the
reduced costs of basic columns are zero. And the last cell is the sum of the
bounds, in the multiples that the slack columns of the objective row record,
which up to sign are the duals.

None of this needs an optimum, or even a point that is feasible. A tolerance that
makes a run overlook a row can drive a slack below zero, and the row still
balances with it.

## Theorems

* `Tableau.Canonical.getD_slacks`: The slacks are those of the basic solution.
* `Tableau.getD_duals`: The duals are signed reduced costs.
* `Tableau.Faithful.usage_add_slack`: Solution and slacks balance.
* `Tableau.Faithful.value_eq_sum_duals`: The duals price the bounds at the value.
* `solve_values_agree`: So it is with the values a run reports.
-/

namespace SimplexMethod

namespace Tableau

section Reading

variable {ε : Rat} {T : Tableau Rat}

theorem Canonical.getD_slacks (h : T.Canonical) (hcurrent : T.Current (.exact ε)) {i : Nat}
    (hi : i < T.rowCount) : T.slacks.getD i 0 = T.basicValue (T.program.variableCount + i) := by
  have hlt : i < T.point.size - T.program.variableCount := by
    rw [h.point_size, columnCount, Program.columnCount, Nat.add_sub_cancel_left]
    exact hi
  rw [slacks, Array.getD_eq_getD_getElem?, Array.getElem?_extract, Nat.min_self, if_pos hlt,
    ← Array.getD_eq_getD_getElem?, hcurrent.point_eq, h.getD_vertex]

-- The price of a row is the reduced cost of its slack, signed as the value is.
theorem getD_duals {i : Nat} (hi : i < T.rowCount) :
    (T.duals (.exact ε)).getD i 0 =
      -(T.program.sense.sign * T.entry T.rowCount (T.program.variableCount + i)) := by
  rw [duals, Array.getD_eq_getD_getElem?, Array.getElem?_ofFn, dif_pos hi, Option.getD_some]
  cases T.program.sense with
  | maximize => simp only [Sense.sign, reducedCost_exact, neg_mul, one_mul, neg_neg]
  | minimize => simp only [Sense.sign, reducedCost_exact, Arithmetic.exact_neg, one_mul]

end Reading

namespace Faithful

variable {ε : Rat} {P : Program Rat} {T : Tableau Rat}

/-- What the solution uses of a row and what its slack leaves make up the bound. -/
theorem usage_add_slack (h : T.Faithful P) (hcurrent : T.Current (.exact ε)) {i : Nat}
    (hi : i < P.rowCount) : P.usage T.solution i + T.slacks.getD i 0 = P.bound i := by
  have hslack : T.slacks.getD i 0 = T.basicValue (P.variableCount + i) := by
    rcases h with ⟨rfl, hcanonical, _⟩
    exact hcanonical.getD_slacks hcurrent hi
  rw [h.solution_eq hcurrent, hslack, Program.usage, P.sum_restrict]
  exact h.balances_basicValue i hi

-- The last cell prices the bounds by the slack columns.
theorem constant_objective (h : T.Faithful P) :
    T.constant P.rowCount =
      ∑ i ∈ Finset.range P.rowCount, T.entry P.rowCount (P.variableCount + i) * P.bound i := by
  have hlast := h.objective_combination (ε := 0) P.columnCount
  have hzero : (Tableau.ofProgram (.exact 0) P).entry P.rowCount P.columnCount = 0 :=
    constant_ofProgram_objective
  rw [hzero, zero_add] at hlast
  rw [constant, columnCount, h.program_eq, hlast]
  refine Finset.sum_congr rfl fun i hi => ?_
  have hbound : (Tableau.ofProgram (.exact 0) P).entry i P.columnCount = P.bound i :=
    constant_ofProgram (Finset.mem_range.mp hi)
  rw [hbound]

/-- The bounds at the reported prices are worth the reported value. -/
theorem value_eq_sum_duals (h : T.Faithful P) (hcurrent : T.Current (.exact ε)) :
    T.value = ∑ i ∈ Finset.range P.rowCount, P.bound i * (T.duals (.exact ε)).getD i 0 := by
  rcases h.program_eq with rfl
  have hconstant : T.constant T.rowCount = ∑ i ∈ Finset.range T.rowCount,
      T.entry T.rowCount (T.program.variableCount + i) * T.program.bound i := h.constant_objective
  have hvalue := hcurrent.value_eq
  rw [lastValue_exact, hconstant, Finset.mul_sum, ← Finset.sum_neg_distrib] at hvalue
  rw [hvalue]
  refine Finset.sum_congr rfl fun i hi => ?_
  rw [getD_duals (Finset.mem_range.mp hi)]
  ring

end Faithful

end Tableau

/-- The values that a run in exact arithmetic reports agree, wherever it stops: under
    any rules, limit, checks and relative epsilon, and any tolerance that is not
    negative. Solution and slacks make up the bounds, and the value is both the
    objective at the solution and the worth of the bounds at the dual prices. -/
theorem solve_values_agree {ε : Rat} {o : Options Rat} {data P : Program Rat}
    (htolerance : 0 ≤ o.tolerance) (haccept : data.accept (.exact ε) = .ok P) :
    ∃ report, solve (.exact ε) o data = .ok report ∧
      report.solution.size = P.variableCount ∧ report.slacks.size = P.rowCount ∧
      report.duals.size = P.rowCount ∧
      (∀ i < P.rowCount, P.usage report.solution i + report.slacks.getD i 0 = P.bound i) ∧
      report.value = P.objectiveAt report.solution ∧
      report.value = ∑ i ∈ Finset.range P.rowCount, P.bound i * report.duals.getD i 0 := by
  rcases Program.accept_eq_ok.mp haccept with ⟨hnone, rfl⟩
  refine ⟨P.solve (.exact ε) o, solve_eq_ok.mpr ⟨hnone, rfl⟩, ?_⟩
  have hfaithful := (P.trace_faithful (ε := ε) htolerance).2
  have hcurrent := Tableau.run_current (.exact ε) o (.ofProgram (.exact ε) P)
  have hshaped := hfaithful.canonical.toShaped
  have hrows : (P.trace (.exact ε) o).last.rowCount = P.rowCount :=
    congrArg Program.rowCount hfaithful.program_eq
  refine ⟨?_, ?_, ?_, ?_, ?_, ?_⟩
  · exact hshaped.size_solution.trans (congrArg Program.variableCount hfaithful.program_eq)
  · exact hshaped.size_slacks.trans hrows
  · exact (Tableau.size_duals _ _).trans hrows
  · exact fun i hi => hfaithful.usage_add_slack hcurrent hi
  · exact (hfaithful.objectiveAt_solution hcurrent).symm
  · exact hfaithful.value_eq_sum_duals hcurrent

/-- One variable under two limits, the tighter of which has a small coefficient. -/
def lever : Program Rat where
  name := "lever"
  sense := .maximize
  objective := #[1]
  matrix := #[#[1 / 4], #[1]]
  bounds := #[1 / 8, 1]

-- The tolerance hides the first row from the ratio test, and its slack ends below
-- zero.
theorem solve_values_agree_lever :
    let o : Options Rat := { Options.sharp with tolerance := 1 / 2 }
    ∃ report, solve (.exact 0) o lever = .ok report ∧ report.status = .optimal ∧
      report.slacks = #[-1 / 8, 0] ∧
      (∀ i < 2, lever.usage report.solution i + report.slacks.getD i 0 = lever.bound i) ∧
      report.value = lever.objectiveAt report.solution ∧
      report.value = ∑ i ∈ Finset.range 2, lever.bound i * report.duals.getD i 0 := by
  intro o
  have haccept : lever.accept (.exact 0) = .ok lever :=
    Program.accept_eq_ok.mpr ⟨by decide +kernel, rfl⟩
  rcases solve_values_agree (o := o) (by decide +kernel) haccept with
    ⟨report, hsolve, _, _, _, hagree⟩
  have hreport := (solve_eq_ok.mp hsolve).2
  refine ⟨report, hsolve, ?_, ?_, hagree⟩
  · rw [hreport]
    decide +kernel
  · rw [hreport]
    decide +kernel

end SimplexMethod
