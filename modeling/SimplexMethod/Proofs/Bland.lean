import SimplexMethod.Proofs.Cycling

/-!
# Bland's rule does not cycle

The first eligible column enters, and of the tied rows the one with the first
basic column leaves. Under these two rules no basis comes back.

Suppose one did. Of the columns that enter on the way, take the last in order,
and call it the *leader*. It also leaves on the way, being basic at the stage
after it entered and not at the one before. So there are two stages to compare:
one at which the leader enters, and one at which it leaves while some column
before it enters.

At the first the reduced costs of all columns before the leader are not negative,
since the leader was the first eligible one. Expanding its objective row over
the second, whose entering column has a negative reduced cost, some row of the
second must make up for the difference. The basic column of that row is not
basic at the first stage, so it comes and goes and is no later than the leader;
it is not the leader, for the signs are wrong; so it is before the leader. Its
right hand side is zero, because the basic solution never moves and is zero
there at the first stage. So its row ties with the leader's, and would have been
preferred.

## Theorems

* `Tableau.exists_gaining_row`: The row that makes up for the difference.
* `Tableau.not_bland_conflict`: The two stages contradict each other.
* `Tableau.Return.exists_leader`: The last column that enters.
* `Tableau.not_return_of_bland`: No basis comes back.
* `solve_bland_terminates`: The method ends, within the number of bases.
-/

namespace SimplexMethod

/-- The two rules together. -/
structure Options.Bland (o : Options Rat) : Prop where
  /-- The first column with negative reduced cost enters. -/
  column_eq : o.columnRule = .firstEligible
  /-- A tie goes to the row whose basic column comes first. -/
  row_eq : o.rowRule = .lowestBasicColumn
  /-- Nothing counts as zero that is not. -/
  tolerance_eq : o.tolerance = 0

namespace Tableau

variable {o : Options Rat} {P : Program Rat}

-- No tied row with an earlier basic column is passed over.
theorem basicColumn_le_of_tie (ho : o.Bland) {T : Tableau Rat} {column : Nat}
    {leaving : Leaving Rat} (hleaving : T.leaving (.exact 0) o column = some leaving) {i : Nat}
    (hi : i < T.rowCount) (hentry : 0 < T.entry i column)
    (htie : T.constant i / T.entry i column =
      T.constant leaving.row / T.entry leaving.row column) :
    T.basicColumn leaving.row ≤ T.basicColumn i := by
  have hprefers : ∀ i k, T.prefers (.exact 0) o i k column =
      decide (T.basicColumn i < T.basicColumn k) := by
    intro i k
    rw [prefers, ho.row_eq]
  have hnot := leaving_not_preferred hleaving
    (fun i => by rw [hprefers, decide_eq_false (Nat.lt_irrefl _)])
    (fun i j k hij hjk => by
      rw [hprefers, decide_eq_true_eq] at hij hjk ⊢
      exact Nat.lt_trans hij hjk)
    hi (ho.tolerance_eq ▸ hentry) htie
  rw [hprefers, decide_eq_false_iff_not] at hnot
  exact Nat.le_of_not_lt hnot

/-- If a reduced cost is negative in one tableau of a program and not in another,
    some row of the first makes up for the difference. -/
theorem exists_gaining_row {S T : Tableau Rat} (hT : T.Faithful P) (hS : S.Faithful P)
    {column : Nat} (hcolumn : column < T.columnCount) (hcost : T.entry T.rowCount column < 0)
    (hother : 0 ≤ S.entry S.rowCount column) :
    ∃ i < T.rowCount, 0 < S.entry S.rowCount (T.basicColumn i) * T.entry i column := by
  by_contra hnone
  have hexpansion := hT.canonical.objective_expansion hT.equivalent hS.equivalent
    (hS.program_eq.trans hT.program_eq.symm) hcolumn
  have hsum : ∑ i ∈ Finset.range T.rowCount,
      S.entry S.rowCount (T.basicColumn i) * T.entry i column ≤ 0 := by
    refine Finset.sum_nonpos fun i hi => ?_
    exact not_lt.mp fun hpos => hnone ⟨i, Finset.mem_range.mp hi, hpos⟩
  linarith

/-- At one stage the leader leaves while an earlier column enters, at the other it
    enters. If the basic solutions are the same and the columns that are basic at
    the first and not at the second are no later than the leader, that cannot be. -/
theorem not_bland_conflict (ho : o.Bland) {S T : Tableau Rat} (hT : T.Faithful P)
    (hS : S.Faithful P) {column leader : Nat} {leaving : Leaving Rat}
    (hmove : T.nextMove (.exact 0) o = .pivot column leaving)
    (hleaves : T.basicColumn leaving.row = leader)
    (henters : S.entering (.exact 0) o = some leader) (hbefore : column < leader)
    (hvalue : T.basicValue = S.basicValue) (hzero : T.constant leaving.row = 0)
    (hleader : ∀ j ∈ T.basicSet, j ∉ S.basicSet → j ≤ leader) : False := by
  have hleaving := (nextMove_eq_pivot (.exact 0) o hmove).2
  have himproving := improving_of_nextMove hmove
  have hleadercost := (entering_eq_some henters).2
  rw [ho.tolerance_eq] at himproving
  rw [ho.tolerance_eq, neg_zero] at hleadercost
  -- Before the leader, no reduced cost of the second tableau is negative.
  have hnonneg : ∀ j < leader, 0 ≤ S.entry S.rowCount j := by
    intro j hj
    have hle := firstEligible_least ho.column_eq henters hj
    rwa [ho.tolerance_eq, neg_zero] at hle
  rcases exists_gaining_row hT hS himproving.column_lt himproving.cost_neg
    (hnonneg column hbefore) with ⟨i, hi, hgain⟩
  have hbasic : T.basicColumn i ∈ T.basicSet := mem_basicSet.mpr ⟨i, hi, rfl⟩
  have hnotbasic : T.basicColumn i ∉ S.basicSet := by
    intro hmem
    rw [hS.canonical.objective_of_mem hmem, zero_mul] at hgain
    exact lt_irrefl 0 hgain
  rcases Nat.lt_or_eq_of_le (hleader _ hbasic hnotbasic) with hlt | heq
  · -- A column before the leader: its row ties, and would have been preferred.
    have hpositive : 0 < T.entry i column :=
      pos_of_mul_pos_right hgain (hnonneg _ hlt)
    have hconstant : T.constant i = 0 := by
      rw [← hT.canonical.spread_basicColumn T.constant hi, ← basicValue, hvalue]
      exact spread_of_notMem _ hnotbasic
    have hle := basicColumn_le_of_tie ho hleaving hi hpositive (by
      rw [hconstant, hzero, zero_div, zero_div])
    omega
  · -- The leader itself: its entry is positive and its reduced cost negative.
    have hself : i = leaving.row :=
      hT.canonical.basicColumn_injective hi himproving.row_lt (heq.trans hleaves.symm)
    rw [heq, hself] at hgain
    have hproduct := mul_neg_of_neg_of_pos hleadercost (himproving.entry_pos (le_refl 0))
    linarith

-- Of the columns that enter in a return, one is the last in order.
theorem Return.exists_leader {V : Nat → Tableau Rat} {n : Nat} (h : Return o P V n) :
    ∃ a < n, ∃ leader, (V a).entering (.exact 0) o = some leader ∧
      ∀ k < n, ∀ j, (V k).entering (.exact 0) o = some j → j ≤ leader := by
  have hnonempty : (Finset.range n).Nonempty := ⟨0, Finset.mem_range.mpr h.pos⟩
  rcases Finset.exists_max_image (Finset.range n)
    (fun k => ((V k).entering (.exact 0) o).getD 0) hnonempty with ⟨a, ha, hmax⟩
  have ha := Finset.mem_range.mp ha
  rcases h.follows a ha with ⟨leader, leaving, hmove, _⟩
  have hleader := (nextMove_eq_pivot (.exact 0) o hmove).1
  refine ⟨a, ha, leader, hleader, fun k hk j hj => ?_⟩
  have hle := hmax k (Finset.mem_range.mpr hk)
  rwa [hj, hleader] at hle

/-- Under Bland's rule no basis comes back. -/
theorem not_return_of_bland (ho : o.Bland) {V : Nat → Tableau Rat} {n : Nat} :
    ¬ Return o P V n := by
  intro h
  rcases h.exists_leader with ⟨a, ha, leader, henters, hmax⟩
  rcases h.follows a ha with ⟨column, leaving, hmove, _⟩
  have hentering := (nextMove_eq_pivot (.exact 0) o hmove).1
  rw [henters, Option.some.injEq] at hentering
  -- What enters has a negative reduced cost, so it was not basic.
  have hfresh : ∀ k < n, ∀ j, (V k).entering (.exact 0) o = some j → j ∉ (V k).basicSet := by
    intro k hk j hj hmem
    have hcost := (entering_eq_some hj).2
    rw [(h.faithful k (Nat.le_of_lt hk)).canonical.objective_of_mem hmem, ho.tolerance_eq,
      neg_zero] at hcost
    exact lt_irrefl 0 hcost
  -- So the leader is basic after it entered and not before: it also leaves.
  have hafter : leader ∈ (V (a + 1)).basicSet :=
    (h.mem_basicSet_next ha hmove).mpr (Or.inl hentering)
  rcases h.exists_leaving ha (Nat.le_of_lt ha) hafter (hfresh a ha leader henters) with
    ⟨k, hk, entered, left, hmove', hleaves⟩
  have hentered := (nextMove_eq_pivot (.exact 0) o hmove').1
  have hrow := (improving_of_nextMove hmove').row_lt
  have hT := h.faithful k (Nat.le_of_lt hk)
  have hS := h.faithful a (Nat.le_of_lt ha)
  -- What enters then is another column, and the leader is the last that enters.
  have hbefore : entered < leader := by
    refine Nat.lt_of_le_of_ne (hmax k hk entered hentered) fun heq => ?_
    refine hfresh k hk entered hentered ?_
    rw [heq, ← hleaves]
    exact mem_basicSet.mpr ⟨left.row, hrow, rfl⟩
  refine not_bland_conflict ho hT hS hmove' hleaves henters hbefore ?_ (h.degenerate hk hmove') ?_
  · exact (h.basicValue_eq (Nat.le_of_lt hk)).trans (h.basicValue_eq (Nat.le_of_lt ha)).symm
  · intro j hin hout
    rcases h.exists_entering (Nat.le_of_lt hk) (Nat.le_of_lt ha) hin hout with ⟨l, hl, hj⟩
    exact hmax l hl j hj

end Tableau

section Runs

variable {o : Options Rat} {data P : Program Rat}

/-- Under Bland's rule a run never has the same basis twice. -/
theorem Program.trace_nodup_of_bland (ho : o.Bland) (haccept : P.rejection? (.exact 0) = none) :
    ((P.trace (.exact 0) o).path.map Tableau.basicSet).Nodup := by
  refine Trace.nodup_of_stages fun p q hpq hq hbasis => ?_
  exact Tableau.not_return_of_bland ho
    (P.return_of_stages ho.tolerance_eq haccept hpq hq hbasis)

/-- Under Bland's rule an accepted program is solved in fewer pivots than there are
    bases, since none comes back. If the limit leaves room for so many and no check
    interferes, the run ends with a verdict. -/
theorem solve_bland_terminates (ho : o.Bland) (haccept : data.accept (.exact 0) = .ok P) :
    ((P.trace (.exact 0) o).path.map Tableau.basicSet).Nodup ∧
    ∃ report, solve (.exact 0) o data = .ok report ∧
      report.iterations < (P.variableCount + P.rowCount).choose P.rowCount ∧
      (((P.variableCount + P.rowCount).choose P.rowCount : Int) ≤
          o.limit P.rowCount P.variableCount →
        o.checking = .off → report.status = .optimal ∨ report.status = .unbounded) := by
  rcases Program.accept_eq_ok.mp haccept with ⟨hnone, rfl⟩
  have hnodup := P.trace_nodup_of_bland ho hnone
  exact ⟨hnodup, solve_of_nodup (le_of_eq ho.tolerance_eq.symm) haccept hnodup⟩

theorem solve_bland_terminates_beale : ∃ o : Options Rat, o.Bland ∧ ∃ report,
    solve (.exact 0) o beale = .ok report ∧ report.iterations = 7 ∧
      (report.status = .optimal ∨ report.status = .unbounded) := by
  let o : Options Rat := { Options.sharp with
    columnRule := .firstEligible, rowRule := .lowestBasicColumn, maxIterations := some 35 }
  have ho : o.Bland := ⟨rfl, rfl, rfl⟩
  have haccept : beale.accept (.exact 0) = .ok beale :=
    Program.accept_eq_ok.mpr ⟨by decide +kernel, rfl⟩
  rcases (solve_bland_terminates ho haccept).2 with ⟨report, hsolve, _, hstatus⟩
  have hreport := (solve_eq_ok.mp hsolve).2
  refine ⟨o, ho, report, hsolve, ?_, hstatus (by decide +kernel) rfl⟩
  rw [hreport]
  decide +kernel

end Runs

end SimplexMethod
