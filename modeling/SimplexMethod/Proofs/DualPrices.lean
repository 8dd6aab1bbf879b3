import SimplexMethod.Proofs.Agreement

/-!
# Dual prices

Why the prices that a run reports certify its optimum.

A price for every row gives every variable a worth: what the rows would charge
for one unit of it. The `surplus` of a variable is by how much that exceeds its
cost. Prices of the right sign whose surplus has the right sign as well bound
the objective from the other side, and they bound it sharply if nothing is
wasted: a row that is not used up has no price, and a variable that is not zero
has no surplus.

The prices are read from one part of the objective row only, the slack columns.
That they have to do with the variables is row equivalence: the objective row is
the first one with multiples of the constraint rows added, and the multiples
stand in the slack columns. So the surplus of a variable is its own reduced
cost, up to the sign that also turns the reduced cost of a slack into a price.
One bound on the reduced costs then gives all signs. Nothing is wasted at any
vertex, optimal or not, because a reduced cost and a basic value are never both
different from zero.

## Main definitions

* `Program.surplus`: By how much prices exceed the cost of a variable.

## Theorems

* `Tableau.Canonical.cost_mul_basicValue`: Reduced costs vanish where the basic
  solution does not.
* `Tableau.Faithful.surplus_duals`: A surplus is a signed reduced cost.
* `Tableau.Faithful.dual_mul_slack`, `Tableau.Faithful.solution_mul_surplus`:
  Nothing is wasted.
* `solve_duals_certify`: The duals of a reported optimum are feasible up to the
  tolerance, and complementary to its point.
-/

namespace SimplexMethod

/-- By how much the worth of variable `j` at the given prices of the rows exceeds
    its cost. -/
def Program.surplus (P : Program Rat) (prices : Array Rat) (j : Nat) : Rat :=
  ∑ i ∈ Finset.range P.rowCount, P.coefficient i j * prices.getD i 0 - P.cost j

namespace Tableau

-- A column is basic, and then its reduced cost is zero, or its value is.
theorem Canonical.cost_mul_basicValue {T : Tableau Rat} (h : T.Canonical) (j : Nat) :
    T.entry T.rowCount j * T.basicValue j = 0 := by
  by_cases hj : j ∈ T.basicSet
  · rw [h.objective_of_mem hj, zero_mul]
  · rw [basicValue, spread_of_notMem _ hj, mul_zero]

namespace Faithful

variable {ε : Rat} {P : Program Rat} {T : Tableau Rat}

-- The objective row over a variable: its signed cost, and the coefficients of the
-- variable in the multiples that the slack columns hold.
theorem objective_variable (h : T.Faithful P) {j : Nat} (hj : j < P.variableCount) :
    T.entry P.rowCount j = P.sense.sign * P.cost j +
      ∑ i ∈ Finset.range P.rowCount,
        T.entry P.rowCount (P.variableCount + i) * P.coefficient i j := by
  have hle : j ≤ P.columnCount := by
    rw [Program.columnCount]
    omega
  rw [h.objective_combination (ε := 0) j, entry_ofProgram_objective hle, if_pos hj]
  congr 1
  refine Finset.sum_congr rfl fun i hi => ?_
  rw [entry_ofProgram_variable (Finset.mem_range.mp hi) hj]

/-- The surplus of a variable at the reported prices is its reduced cost, with the
    sign that makes prices of the reduced costs of slacks. -/
theorem surplus_duals (h : T.Faithful P) {j : Nat} (hj : j < P.variableCount) :
    P.surplus (T.duals (.exact ε)) j = -(P.sense.sign * T.entry P.rowCount j) := by
  have hworth : ∑ i ∈ Finset.range P.rowCount,
      P.coefficient i j * (T.duals (.exact ε)).getD i 0 =
        -(P.sense.sign * ∑ i ∈ Finset.range P.rowCount,
          T.entry P.rowCount (P.variableCount + i) * P.coefficient i j) := by
    rcases h.program_eq with rfl
    rw [Finset.mul_sum, ← Finset.sum_neg_distrib]
    refine Finset.sum_congr rfl fun i hi => ?_
    rw [getD_duals (Finset.mem_range.mp hi)]
    show _ = -(T.program.sense.sign * (T.entry T.rowCount _ * _))
    ring
  have hsign := P.sense.sign_mul_sign
  rw [Program.surplus, hworth, h.objective_variable hj, mul_add, ← mul_assoc, hsign]
  ring

-- The price of a row, in the same words.
theorem dual_eq (h : T.Faithful P) {i : Nat} (hi : i < P.rowCount) :
    (T.duals (.exact ε)).getD i 0 =
      -(P.sense.sign * T.entry P.rowCount (P.variableCount + i)) := by
  rcases h.program_eq with rfl
  exact getD_duals hi

theorem cost_mul_basicValue (h : T.Faithful P) (j : Nat) :
    T.entry P.rowCount j * T.basicValue j = 0 := by
  rcases h.program_eq with rfl
  exact h.canonical.cost_mul_basicValue j

/-- A row that is not used up has no price. -/
theorem dual_mul_slack (h : T.Faithful P) (hcurrent : T.Current (.exact ε)) {i : Nat}
    (hi : i < P.rowCount) : (T.duals (.exact ε)).getD i 0 * T.slacks.getD i 0 = 0 := by
  have hslack : T.slacks.getD i 0 = T.basicValue (P.variableCount + i) := by
    rcases h.program_eq with rfl
    exact h.canonical.getD_slacks hcurrent hi
  rw [h.dual_eq hi, hslack, neg_mul, mul_assoc, h.cost_mul_basicValue, mul_zero, neg_zero]

/-- A variable that is not zero has no surplus. -/
theorem solution_mul_surplus (h : T.Faithful P) (hcurrent : T.Current (.exact ε)) {j : Nat}
    (hj : j < P.variableCount) :
    T.solution.getD j 0 * P.surplus (T.duals (.exact ε)) j = 0 := by
  rw [h.solution_eq hcurrent, P.getD_restrict _ hj, h.surplus_duals hj, mul_comm, neg_mul,
    mul_assoc, h.cost_mul_basicValue, mul_zero, neg_zero]

/-- Where no reduced cost is below the negated tolerance, neither prices nor
    surpluses are on the wrong side of zero by more than that. -/
theorem duals_feasible {tolerance : Rat} (h : T.Faithful P)
    (hcosts : ∀ j < P.columnCount, -tolerance ≤ T.entry P.rowCount j) :
    match P.sense with
    | .maximize => (∀ i < P.rowCount, -tolerance ≤ (T.duals (.exact ε)).getD i 0) ∧
        ∀ j < P.variableCount, -tolerance ≤ P.surplus (T.duals (.exact ε)) j
    | .minimize => (∀ i < P.rowCount, (T.duals (.exact ε)).getD i 0 ≤ tolerance) ∧
        ∀ j < P.variableCount, P.surplus (T.duals (.exact ε)) j ≤ tolerance := by
  have hslack : ∀ i < P.rowCount, -tolerance ≤ T.entry P.rowCount (P.variableCount + i) :=
    fun i hi => hcosts _ (Nat.add_lt_add_left hi _)
  have hvariable : ∀ j < P.variableCount, -tolerance ≤ T.entry P.rowCount j :=
    fun j hj => hcosts j (Nat.lt_of_lt_of_le hj (Nat.le_add_right _ _))
  cases hsense : P.sense with
  | maximize =>
      refine ⟨fun i hi => ?_, fun j hj => ?_⟩
      · rw [h.dual_eq hi, hsense, Sense.sign, neg_one_mul, neg_neg]
        exact hslack i hi
      · rw [h.surplus_duals hj, hsense, Sense.sign, neg_one_mul, neg_neg]
        exact hvariable j hj
  | minimize =>
      refine ⟨fun i hi => ?_, fun j hj => ?_⟩
      · rw [h.dual_eq hi, hsense, Sense.sign, one_mul]
        exact neg_le.mp (hslack i hi)
      · rw [h.surplus_duals hj, hsense, Sense.sign, one_mul]
        exact neg_le.mp (hvariable j hj)

end Faithful

end Tableau

/-- The duals of an optimum that a run in exact arithmetic reports certify it, under
    any rules, limit, checks and relative epsilon, and any tolerance that is not
    negative. Up to the tolerance they are feasible for the dual program: neither a
    price nor the surplus of a variable is on the wrong side of zero, which is below
    it when maximizing and above it when minimizing. And they are complementary to
    the point: a row with slack has no price, and a variable that is not zero has no
    surplus. -/
theorem solve_duals_certify {ε : Rat} {o : Options Rat} {data : Program Rat} {report : Report Rat}
    (htolerance : 0 ≤ o.tolerance) (hsolve : solve (.exact ε) o data = .ok report)
    (hstatus : report.status = .optimal) :
    (report.solution.size = data.variableCount ∧ report.slacks.size = data.rowCount ∧
      report.duals.size = data.rowCount) ∧
    (match data.sense with
      | .maximize => (∀ i < data.rowCount, -o.tolerance ≤ report.duals.getD i 0) ∧
          ∀ j < data.variableCount, -o.tolerance ≤ data.surplus report.duals j
      | .minimize => (∀ i < data.rowCount, report.duals.getD i 0 ≤ o.tolerance) ∧
          ∀ j < data.variableCount, data.surplus report.duals j ≤ o.tolerance) ∧
    (∀ i < data.rowCount, report.duals.getD i 0 * report.slacks.getD i 0 = 0) ∧
    ∀ j < data.variableCount, report.solution.getD j 0 * data.surplus report.duals j = 0 := by
  rcases solve_eq_ok.mp hsolve with ⟨_, rfl⟩
  have hfaithful := (data.trace_faithful (ε := ε) htolerance).2
  have hcurrent := Tableau.run_current (.exact ε) o (.ofProgram (.exact ε) data)
  have hshaped := hfaithful.canonical.toShaped
  have hrows := hfaithful.rowCount_eq
  have hcolumns := hfaithful.columnCount_eq
  have hentering := Tableau.nextMove_eq_optimal _ _ (Tableau.run_optimal (.exact ε) o hstatus)
  refine ⟨⟨?_, ?_, ?_⟩, ?_, ?_, ?_⟩
  · exact hshaped.size_solution.trans (congrArg Program.variableCount hfaithful.program_eq)
  · exact hshaped.size_slacks.trans hrows
  · exact (Tableau.size_duals _ _).trans hrows
  · refine hfaithful.duals_feasible fun j hj => ?_
    have hcost := Tableau.entering_eq_none hentering (hcolumns.symm ▸ hj)
    rw [← hrows]
    exact hcost
  · exact fun i hi => hfaithful.dual_mul_slack hcurrent hi
  · exact fun j hj => hfaithful.solution_mul_surplus hcurrent hj

/-- Two ways to save under two limits, the second not worth a tolerance of one half
    once the first is taken. -/
def thrift : Program Rat where
  name := "thrift"
  sense := .minimize
  objective := #[-2, -1]
  matrix := #[#[1, 1 / 4], #[1, 1]]
  bounds := #[1, 3]

-- The second variable is left out with a surplus of all that the tolerance allows,
-- and the second row is left with slack.
theorem solve_duals_certify_thrift :
    let o : Options Rat := { Options.sharp with tolerance := 1 / 2 }
    ∃ report, solve (.exact 0) o thrift = .ok report ∧ report.status = .optimal ∧
      report.duals = #[-2, 0] ∧ report.slacks = #[0, 2] ∧
      thrift.surplus report.duals 1 = 1 / 2 ∧ thrift.surplus report.duals 1 ≤ o.tolerance ∧
      report.duals.getD 1 0 * report.slacks.getD 1 0 = 0 := by
  intro o
  have hsolve : solve (.exact 0) o thrift = .ok (thrift.solve (.exact 0) o) :=
    solve_eq_ok.mpr ⟨by decide +kernel, rfl⟩
  have hstatus : (thrift.solve (.exact 0) o).status = .optimal := by decide +kernel
  have hcertify := solve_duals_certify (by decide +kernel) hsolve hstatus
  have hduals : (thrift.solve (.exact 0) o).duals = #[-2, 0] := by decide +kernel
  refine ⟨_, hsolve, hstatus, hduals, by decide +kernel, ?_, hcertify.2.1.2 1 (by decide),
    hcertify.2.2.1 1 (by decide)⟩
  rw [hduals]
  decide +kernel

end SimplexMethod
