import SimplexMethod.Proofs.BasicSolution
import SimplexMethod.Proofs.Choice

/-!
# The vertices of an exact run

What every tableau of a run satisfies, when no operation rounds.

A tableau is *faithful* to a program if it is canonical and says what the program
says. A run keeps this as long as the tolerance is not negative, since the
entries it pivots at then are not zero; neither the rules nor the relative
epsilon matter. Right hand sides that are not negative need more. A move
*oversteps* a row if it takes the entering column further than the row allows, and
a pivot keeps them exactly if it oversteps none. The leaving row has the least
ratio among the rows that take part in the test. So with a tolerance of zero, so
that all positive entries take part, and ties that are equalities, no row is
overstepped.

Of a faithful tableau whose point and value were read, the objective at any
solution is known: it is the value it reports plus what the reduced costs add.

## Main definitions

* `Options.sharp`: The standard choices without tolerance.
* `Tableau.Faithful`: The tableau is a canonical form of its program.
* `Tableau.Primal`: No right hand side is negative.
* `Tableau.Improving`: What a pivot of the method satisfies.
* `Tableau.Oversteps`: A move goes further than a row allows.
* `Tableau.Careful`: The next move oversteps no row.

## Theorems

* `Tableau.improving_of_nextMove`: Every rule asks for improving pivots.
* `Tableau.Faithful.primal_follows_iff`: A careful pivot keeps right hand sides from
  becoming negative, and no other does.
* `Tableau.thin_of_oversteps`: Only rows within the tolerance are overstepped.
* `Tableau.Faithful.follows`, `Tableau.Primal.follows`: Pivots keep both.
* `Program.trace_faithful`, `Program.trace_primal`: So do runs.
* `Tableau.Faithful.objective_of_balances`: The objective at a solution.
* `Tableau.Faithful.feasible_solution`, `Tableau.Faithful.objectiveAt_solution`:
  The reported point.
-/

namespace SimplexMethod

/-- The standard choices with no tolerance, as they suit exact arithmetic. -/
def Options.sharp : Options Rat := { Options.standard (.exact 0) with tolerance := 0 }

namespace Tableau

/-- The tableau is a canonical form of the program. -/
structure Faithful (P : Program Rat) (T : Tableau Rat) : Prop where
  /-- The tableau belongs to the program. -/
  program_eq : T.program = P
  /-- Its basic columns are unit vectors. -/
  canonical : T.Canonical
  /-- It says what the program says. -/
  equivalent : T.Equivalent

/-- No right hand side is negative. -/
def Primal (T : Tableau Rat) : Prop := ∀ i < T.rowCount, 0 ≤ T.constant i

/-- A pivot that improves the objective: the reduced cost of its column is below the
    threshold, and its entry above the tolerance. -/
structure Improving (T : Tableau Rat) (tolerance : Rat) (row column : Nat) : Prop where
  row_lt : row < T.rowCount
  column_lt : column < T.columnCount
  cost_lt : T.entry T.rowCount column < -tolerance
  lt_entry : tolerance < T.entry row column

/-- The move goes further than row `i` allows: it takes the entering column beyond the
    ratio of the row. -/
def Oversteps (T : Tableau Rat) (i : Nat) : Move Rat → Prop
  | .optimal => False
  | .unbounded column => 0 < T.entry i column
  | .pivot column leaving =>
    0 < T.entry i column ∧ T.constant i < T.entry i column * leaving.ratio

instance (T : Tableau Rat) (i : Nat) : (move : Move Rat) → Decidable (T.Oversteps i move)
  | .optimal => inferInstanceAs (Decidable False)
  | .unbounded column => inferInstanceAs (Decidable (0 < T.entry i column))
  | .pivot column leaving => inferInstanceAs (Decidable
      (0 < T.entry i column ∧ T.constant i < T.entry i column * leaving.ratio))

/-- The next move of the method oversteps no row. -/
def Careful (ε : Rat) (o : Options Rat) (T : Tableau Rat) : Prop :=
  ∀ i < T.rowCount, ¬ T.Oversteps i (T.nextMove (.exact ε) o)

instance (ε : Rat) (o : Options Rat) (T : Tableau Rat) : Decidable (T.Careful ε o) :=
  inferInstanceAs (Decidable (∀ i < T.rowCount, ¬ T.Oversteps i (T.nextMove (.exact ε) o)))

section Steps

variable {ε : Rat} {o : Options Rat} {P : Program Rat} {T next : Tableau Rat} {column : Nat}
  {leaving : Leaving Rat}

-- The rules differ in which pivot they ask for, not in what every pivot they ask
-- for satisfies.
theorem improving_of_nextMove (hmove : T.nextMove (.exact ε) o = .pivot column leaving) :
    T.Improving o.tolerance leaving.row column := by
  rcases nextMove_eq_pivot (.exact ε) o hmove with ⟨hentering, hleaving⟩
  rcases entering_eq_some hentering with ⟨hcolumn, hcost⟩
  rcases leaving_eq_some hleaving with ⟨hrow, hentry⟩
  exact ⟨hrow, hcolumn, hcost, hentry⟩

theorem Improving.cost_neg {row column : Nat} (h : T.Improving 0 row column) :
    T.entry T.rowCount column < 0 := by
  have hcost := h.cost_lt
  rwa [neg_zero] at hcost

theorem Improving.entry_pos {row column : Nat} {tolerance : Rat} (htolerance : 0 ≤ tolerance)
    (h : T.Improving tolerance row column) : 0 < T.entry row column :=
  lt_of_le_of_lt htolerance h.lt_entry

namespace Faithful

theorem rowCount_eq (h : T.Faithful P) : T.rowCount = P.rowCount :=
  congrArg Program.rowCount h.program_eq

theorem columnCount_eq (h : T.Faithful P) : T.columnCount = P.columnCount :=
  congrArg Program.columnCount h.program_eq

theorem ofProgram (ε : Rat) (P : Program Rat) : (Tableau.ofProgram (.exact ε) P).Faithful P :=
  ⟨rfl, .ofProgram ε P, .ofProgram ε P⟩

theorem withStatus (h : T.Faithful P) (status : Status) : (T.withStatus status).Faithful P :=
  ⟨h.program_eq, h.canonical.withStatus status,
    ⟨h.equivalent.solves_iff, h.equivalent.objective_eq, h.equivalent.combination⟩⟩

/-- Reading point and value does not change the cells, so the vertex after a pivot
    is as good as the pivot. -/
theorem advance {row column : Nat} (h : T.Faithful P) (hrow : row < T.rowCount)
    (hcolumn : column < T.columnCount) (hpivot : T.entry row column ≠ 0) :
    (T.advance (.exact ε) row column).Faithful P := by
  have hequivalent := h.equivalent.pivot (ε := ε) h.canonical.toShaped hrow hpivot
  exact ⟨h.program_eq, h.canonical.advance hrow hcolumn hpivot,
    ⟨hequivalent.solves_iff, hequivalent.objective_eq, hequivalent.combination⟩⟩

/-- An entry above a tolerance that is not negative is not zero, whichever rule
    chose it. -/
theorem follows (htolerance : 0 ≤ o.tolerance) (h : T.Faithful P)
    (hfollows : Follows (.exact ε) o T next) : next.Faithful P := by
  rcases hfollows with ⟨column, leaving, hmove, rfl⟩
  have himproving := improving_of_nextMove hmove
  exact h.advance himproving.row_lt himproving.column_lt
    (ne_of_gt (himproving.entry_pos htolerance))

end Faithful

-- The right hand side of every row but the leaving one, in terms of the step.
theorem Faithful.constant_step (hT : T.Faithful P) (htolerance : 0 ≤ o.tolerance)
    (hmove : T.nextMove (.exact ε) o = .pivot column leaving) {i : Nat} (hi : i ≠ leaving.row) :
    (T.advance (.exact ε) leaving.row column).constant i =
      T.constant i - T.entry i column * leaving.ratio := by
  have hentry := (improving_of_nextMove hmove).entry_pos htolerance
  rw [leaving_ratio_eq (nextMove_eq_pivot (.exact ε) o hmove).2]
  exact constant_advance_other hT.canonical.toShaped (ne_of_gt hentry) hi

theorem Faithful.constant_step_self (hT : T.Faithful P) (htolerance : 0 ≤ o.tolerance)
    (hmove : T.nextMove (.exact ε) o = .pivot column leaving) :
    (T.advance (.exact ε) leaving.row column).constant leaving.row = leaving.ratio := by
  have hentry := (improving_of_nextMove hmove).entry_pos htolerance
  rw [leaving_ratio_eq (nextMove_eq_pivot (.exact ε) o hmove).2]
  exact constant_advance_self hT.canonical.toShaped (ne_of_gt hentry)

theorem Primal.ratio_nonneg (h : T.Primal) (htolerance : 0 ≤ o.tolerance)
    (hmove : T.nextMove (.exact ε) o = .pivot column leaving) : 0 ≤ leaving.ratio := by
  have himproving := improving_of_nextMove hmove
  rw [leaving_ratio_eq (nextMove_eq_pivot (.exact ε) o hmove).2]
  exact div_nonneg (h leaving.row himproving.row_lt) (le_of_lt (himproving.entry_pos htolerance))

-- The leaving row sets the step, and is not overstepped by it.
theorem not_oversteps_leaving (hmove : T.nextMove (.exact ε) o = .pivot column leaving) :
    ¬ T.Oversteps leaving.row (.pivot column leaving) := by
  rintro ⟨hentry, hless⟩
  rw [leaving_ratio_eq (nextMove_eq_pivot (.exact ε) o hmove).2,
    mul_div_cancel₀ _ (ne_of_gt hentry)] at hless
  exact lt_irrefl _ hless

/-- A pivot makes a right hand side negative exactly if it oversteps the row. -/
theorem Faithful.constant_nonneg_iff (hT : T.Faithful P) (hprimal : T.Primal)
    (htolerance : 0 ≤ o.tolerance) (hmove : T.nextMove (.exact ε) o = .pivot column leaving)
    {i : Nat} (hi : i < T.rowCount) :
    0 ≤ (T.advance (.exact ε) leaving.row column).constant i ↔
      ¬ T.Oversteps i (.pivot column leaving) := by
  have hratio := hprimal.ratio_nonneg htolerance hmove
  by_cases hself : i = leaving.row
  · rw [hself, hT.constant_step_self htolerance hmove]
    exact iff_of_true hratio (not_oversteps_leaving hmove)
  · rw [hT.constant_step htolerance hmove hself, sub_nonneg, Oversteps, not_and, not_lt]
    refine ⟨fun hle _ => hle, fun hle => ?_⟩
    by_cases hpositive : 0 < T.entry i column
    · exact hle hpositive
    · -- A row that does not limit the column gains from the step.
      have hproduct := mul_nonneg (neg_nonneg.mpr (not_lt.mp hpositive)) hratio
      have hconstant := hprimal i hi
      linarith

/-- A pivot keeps right hand sides from becoming negative exactly if it oversteps no
    row. -/
theorem Faithful.primal_follows_iff (hT : T.Faithful P) (hprimal : T.Primal)
    (htolerance : 0 ≤ o.tolerance) (hfollows : Follows (.exact ε) o T next) :
    next.Primal ↔ T.Careful ε o := by
  rcases hfollows with ⟨column, leaving, hmove, rfl⟩
  rw [Careful, hmove]
  exact forall₂_congr fun i hi => hT.constant_nonneg_iff hprimal htolerance hmove hi

/-- Without relative epsilon, a row that is overstepped has a positive entry within the
    tolerance. -/
theorem thin_of_oversteps {i : Nat} (hi : i < T.rowCount)
    (h : T.Oversteps i (T.nextMove (.exact 0) o)) :
    ∃ column, T.entering (.exact 0) o = some column ∧ 0 < T.entry i column ∧
      T.entry i column ≤ o.tolerance := by
  cases hmove : T.nextMove (.exact 0) o with
  | optimal =>
      rw [hmove] at h
      exact h.elim
  | unbounded column =>
      rw [hmove] at h
      rcases nextMove_eq_unbounded _ _ hmove with ⟨hentering, hleaving⟩
      exact ⟨column, hentering, h, leaving_eq_none hleaving hi⟩
  | pivot column leaving =>
      rw [hmove] at h
      rcases nextMove_eq_pivot _ _ hmove with ⟨hentering, hleaving⟩
      refine ⟨column, hentering, h.1, not_lt.mp fun hgreater => ?_⟩
      -- A row above the tolerance takes part in the test, and the least ratio is no larger.
      have hleast := leaving_ratio_le hleaving hi hgreater
      rw [← leaving_ratio_eq hleaving, le_div_iff₀ h.1, mul_comm] at hleast
      exact absurd h.2 (not_lt.mpr hleast)

/-- The least ratio keeps right hand sides from becoming negative. -/
theorem Primal.follows (htolerance : o.tolerance = 0) (hT : T.Faithful P) (h : T.Primal)
    (hfollows : Follows (.exact 0) o T next) : next.Primal := by
  refine (hT.primal_follows_iff h (le_of_eq htolerance.symm) hfollows).mpr ?_
  intro i hi hoversteps
  rcases thin_of_oversteps hi hoversteps with ⟨column, _, hpositive, hthin⟩
  rw [htolerance] at hthin
  exact absurd hpositive (not_lt.mpr hthin)

end Steps

end Tableau

section Runs

variable {ε : Rat} {o : Options Rat} {P : Program Rat}

open Tableau

/-- Every tableau of a run is faithful to the program. -/
theorem Program.trace_faithful (htolerance : 0 ≤ o.tolerance) :
    (∀ V ∈ (P.trace (.exact ε) o).path, V.Faithful P) ∧
      (P.trace (.exact ε) o).last.Faithful P :=
  run_invariant (.exact ε) o (fun _ _ h hfollows => h.follows htolerance hfollows)
    (fun _ status h => h.withStatus status) (.ofProgram ε P)

/-- No tableau of a run of an accepted program has a negative right hand side. -/
theorem Program.trace_primal (htolerance : o.tolerance = 0)
    (haccept : P.rejection? (.exact 0) = none) :
    (∀ V ∈ (P.trace (.exact 0) o).path, V.Faithful P ∧ V.Primal) ∧
      (P.trace (.exact 0) o).last.Faithful P ∧ (P.trace (.exact 0) o).last.Primal := by
  have hle : 0 ≤ o.tolerance := le_of_eq htolerance.symm
  refine run_invariant (.exact 0) o ?_ ?_ ⟨.ofProgram 0 P, ?_⟩
  · exact fun T next h hfollows =>
      ⟨h.1.follows hle hfollows, h.2.follows htolerance h.1 hfollows⟩
  · exact fun T status h => ⟨h.1.withStatus status, h.2⟩
  · intro i (hi : i < P.rowCount)
    rw [constant_ofProgram hi]
    exact P.bound_nonneg haccept i

end Runs

namespace Tableau

namespace Faithful

variable {ε : Rat} {P : Program Rat} {T : Tableau Rat}

-- The value in the last cell, with the sign of the sense.
theorem lastValue_exact (T : Tableau Rat) :
    T.lastValue (.exact ε) = -(T.program.sense.sign * T.constant T.rowCount) := by
  unfold lastValue
  cases T.program.sense with
  | maximize => simp only [Sense.sign, neg_mul, one_mul, neg_neg]; rfl
  | minimize => simp only [Sense.sign, one_mul]; rfl

-- The signed value is what the last cell takes away.
theorem sign_mul_value (h : T.Faithful P) (hcurrent : T.Current (.exact ε)) :
    P.sense.sign * T.value = -T.constant T.rowCount := by
  rw [hcurrent.value_eq, lastValue_exact, h.program_eq, mul_neg, ← mul_assoc, Sense.sign_mul_sign,
    one_mul]

/-- The signed objective at a solution is the signed value plus what the reduced
    costs add. -/
theorem objective_of_balances (h : T.Faithful P) (hcurrent : T.Current (.exact ε))
    {z : Nat → Rat} (hz : P.Balances z) :
    P.sense.sign * ∑ j ∈ Finset.range P.variableCount, P.cost j * z j =
      ∑ j ∈ Finset.range P.columnCount, T.entry T.rowCount j * z j + P.sense.sign * T.value := by
  have hsolves : T.Solves z := (h.equivalent.solves_iff z).mpr (h.program_eq ▸ hz)
  have hobjective := h.equivalent.objective_eq z hsolves
  rw [residual, columnCount, h.program_eq] at hobjective
  rw [← hobjective, h.sign_mul_value hcurrent]
  ring

theorem balances_basicValue (h : T.Faithful P) : P.Balances T.basicValue := by
  have hbalances := (h.equivalent.solves_iff _).mp h.canonical.solves_basicValue
  rwa [h.program_eq] at hbalances

theorem solution_eq (h : T.Faithful P) (hcurrent : T.Current (.exact ε)) :
    T.solution = P.restrict T.basicValue := by
  rw [h.canonical.solution_eq hcurrent, h.program_eq]

/-- The reported point is feasible if no right hand side is negative. -/
theorem feasible_solution (h : T.Faithful P) (hcurrent : T.Current (.exact ε))
    (hprimal : T.Primal) : P.Feasible T.solution := by
  rw [h.solution_eq hcurrent]
  exact P.feasible_restrict h.balances_basicValue fun j _ => spread_nonneg hprimal j

/-- The reported value is the objective at the reported point. -/
theorem objectiveAt_solution (h : T.Faithful P) (hcurrent : T.Current (.exact ε)) :
    P.objectiveAt T.solution = T.value := by
  have hobjective := h.objective_of_balances hcurrent h.balances_basicValue
  -- The reduced costs add nothing: they are zero where the basic solution is not.
  have hzero : ∑ j ∈ Finset.range P.columnCount, T.entry T.rowCount j * T.basicValue j = 0 := by
    have hsum := sum_mul_spread h.canonical.toShaped (T.entry T.rowCount) T.constant
    rw [h.canonical.sum_objective_spread, columnCount, h.program_eq] at hsum
    exact hsum
  rw [hzero, zero_add] at hobjective
  rw [h.solution_eq hcurrent, P.objectiveAt_restrict]
  exact mul_left_cancel₀ P.sense.sign_ne_zero hobjective

end Faithful

end Tableau

end SimplexMethod
