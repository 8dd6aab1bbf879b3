import SimplexMethod.Proofs.Cycling

/-!
# Progress of the objective

What a single pivot gains, and what that says about runs that go round in
circles.

A pivot brings in a column whose reduced cost is negative and takes it as far as
the least ratio allows. The objective changes by the product of the two, up to
the sign of the sense, and the tableau shows exactly that: the last cell loses
the product when the objective row is cleared. Nothing is gained if and only if
the ratio is zero. The first part needs the last cell and the signs, the second
that the reduced cost is not zero.

Over a whole run the values are therefore in order, and a run that comes back to
a set of basic columns cannot have gained anything on the way. So all of its
pivots have ratio zero, and the point it shows stays where it is while the basis
goes round.

## Main definitions

* `Tableau.Gains`: The gain of a pivot.

## Theorems

* `Tableau.Faithful.gains`: What a pivot of an exact run gains.
* `Tableau.Gains.value_eq_iff`: A pivot gains nothing if and only if its ratio is
  zero.
* `Tableau.Return.point_eq`: The point of a return never moves.
* `Program.stage_gains`, `Program.signed_value_antitone`: Every pivot of a run gains,
  and its values are in order.
* `Program.circle_degenerate`, `Program.circle_still`: A run that goes round has ratio
  zero all the way, and stays where it is.
* `solve_objective_progress`: The gains of a run, and the shape of its circles.
-/

namespace SimplexMethod

namespace Tableau

/-- The gain of a pivot from `T` to `next`: the reduced cost of the entering column is
    negative, the ratio of the leaving row is the least one, and the value changes
    by their product, with the sign of the sense. -/
structure Gains (T next : Tableau Rat) (column : Nat) (leaving : Leaving Rat) : Prop where
  cost_neg : T.entry T.rowCount column < 0
  entry_pos : 0 < T.entry leaving.row column
  ratio_eq : leaving.ratio = T.constant leaving.row / T.entry leaving.row column
  ratio_le : ∀ i < T.rowCount, 0 < T.entry i column →
    leaving.ratio ≤ T.constant i / T.entry i column
  ratio_nonneg : 0 ≤ leaving.ratio
  change : next.value - T.value =
    match T.program.sense with
    | .maximize => -(T.entry T.rowCount column * leaving.ratio)
    | .minimize => T.entry T.rowCount column * leaving.ratio

section Steps

variable {o : Options Rat} {P : Program Rat} {T next : Tableau Rat} {column : Nat}
  {leaving : Leaving Rat}

-- The value after a pivot, before the sense is looked at.
theorem Faithful.value_advance {ε : Rat} (h : T.Faithful P) (hcurrent : T.Current (.exact ε))
    (hrow : leaving.row < T.rowCount) (hpivot : T.entry leaving.row column ≠ 0) :
    (T.advance (.exact ε) leaving.row column).value = T.value +
      T.program.sense.sign * (T.entry T.rowCount column *
        (T.constant leaving.row / T.entry leaving.row column)) := by
  have hafter : (T.advance (.exact ε) leaving.row column).value =
      -(T.program.sense.sign *
        (T.advance (.exact ε) leaving.row column).constant T.rowCount) :=
    Faithful.lastValue_exact _
  rw [hafter, constant_follows h hrow hpivot, hcurrent.value_eq, Faithful.lastValue_exact]
  ring

/-- What a pivot gains in an exact run without tolerance. -/
theorem Faithful.gains (h : T.Faithful P) (hcurrent : T.Current (.exact 0)) (hprimal : T.Primal)
    (htolerance : o.tolerance = 0) (hmove : T.nextMove (.exact 0) o = .pivot column leaving) :
    T.Gains (T.advance (.exact 0) leaving.row column) column leaving := by
  have hleaving := (nextMove_eq_pivot (.exact 0) o hmove).2
  have himproving := improving_of_nextMove hmove
  rw [htolerance] at himproving
  have hentry := himproving.entry_pos (le_refl 0)
  have hratio := leaving_ratio_eq hleaving
  refine ⟨himproving.cost_neg, hentry, hratio, fun i hi hpositive => ?_, ?_, ?_⟩
  · rw [hratio]
    exact leaving_ratio_le hleaving hi (htolerance ▸ hpositive)
  · exact hprimal.ratio_nonneg (le_of_eq htolerance.symm) hmove
  · rw [h.value_advance hcurrent himproving.row_lt (ne_of_gt hentry), ← hratio]
    cases T.program.sense with
    | maximize => simp only [Sense.sign]; ring
    | minimize => simp only [Sense.sign]; ring

/-- A pivot gains nothing if and only if its ratio is zero. -/
theorem Gains.value_eq_iff (h : T.Gains next column leaving) :
    next.value = T.value ↔ leaving.ratio = 0 := by
  have hproduct : T.entry T.rowCount column * leaving.ratio = 0 ↔ leaving.ratio = 0 := by
    rw [mul_eq_zero]
    exact or_iff_right (ne_of_lt h.cost_neg)
  have hchange := h.change
  rw [← sub_eq_zero, hchange, ← hproduct]
  cases T.program.sense with
  | maximize => exact neg_eq_zero
  | minimize => exact Iff.rfl

end Steps

namespace Return

variable {o : Options Rat} {P : Program Rat} {V : Nat → Tableau Rat} {n : Nat}

theorem ratio_eq_zero (h : Return o P V n) {k column : Nat} {leaving : Leaving Rat} (hk : k < n)
    (hmove : (V k).nextMove (.exact 0) o = .pivot column leaving) : leaving.ratio = 0 := by
  rw [leaving_ratio_eq (nextMove_eq_pivot (.exact 0) o hmove).2, h.degenerate hk hmove, zero_div]

/-- The point of a return never moves. -/
theorem point_eq (h : Return o P V n) (hcurrent : ∀ k ≤ n, (V k).Current (.exact 0)) {k : Nat}
    (hk : k ≤ n) : (V k).point = (V 0).point := by
  have hfirst := h.faithful 0 (Nat.zero_le n)
  have hstage := h.faithful k hk
  have hcolumns : (V k).columnCount = (V 0).columnCount :=
    hstage.columnCount_eq.trans hfirst.columnCount_eq.symm
  rw [(hcurrent k hk).point_eq, (hcurrent 0 (Nat.zero_le n)).point_eq]
  refine hstage.canonical.vertex_eq hfirst.canonical 0 hcolumns ?_
  intro j _
  rw [h.basicValue_eq hk]

end Return

end Tableau

open Tableau

section Runs

variable {o : Options Rat} {P : Program Rat}

-- What the stages of an exact run have in common.
theorem Program.stage_sound (htolerance : o.tolerance = 0)
    (haccept : P.rejection? (.exact 0) = none) {k : Nat}
    (hk : k ≤ (P.trace (.exact 0) o).iterations) :
    ((P.trace (.exact 0) o).stage k).Faithful P ∧ ((P.trace (.exact 0) o).stage k).Primal ∧
      ((P.trace (.exact 0) o).stage k).Current (.exact 0) := by
  have hmem := (P.trace (.exact 0) o).stage_mem hk
  have hstage := (P.trace_primal htolerance haccept).1 _ hmem
  exact ⟨hstage.1, hstage.2,
    run_path_current (.exact 0) o (.ofProgram (.exact 0) P) _ hmem⟩

/-- Minimizing, the values of a run never rise; maximizing, they never fall. -/
theorem Program.signed_value_antitone (htolerance : o.tolerance = 0)
    (haccept : P.rejection? (.exact 0) = none) {p q : Nat} (hpq : p ≤ q)
    (hq : q ≤ (P.trace (.exact 0) o).iterations) :
    P.sense.sign * ((P.trace (.exact 0) o).stage q).value ≤
      P.sense.sign * ((P.trace (.exact 0) o).stage p).value := by
  have hsound := fun k => P.stage_sound (k := k) htolerance haccept
  -- The signed value is the last cell, negated.
  have hsigned : ∀ k ≤ (P.trace (.exact 0) o).iterations,
      P.sense.sign * ((P.trace (.exact 0) o).stage k).value =
        -((P.trace (.exact 0) o).stage k).constant P.rowCount := by
    intro k hk
    rw [(hsound k hk).1.sign_mul_value (hsound k hk).2.2, (hsound k hk).1.rowCount_eq]
  have hmono := constant_mono_of_follows (V := (P.trace (.exact 0) o).stage) htolerance
    (fun k hk => follows_stage (.exact 0) o (ofProgram (.exact 0) P) hk)
    (fun k hk => (hsound k hk).1) (fun k hk => (hsound k hk).2.1) hpq hq
  rw [hsigned q hq, hsigned p (Nat.le_trans hpq hq)]
  exact neg_le_neg hmono

-- The step of a run, with what it gains.
theorem Program.stage_gains (htolerance : o.tolerance = 0)
    (haccept : P.rejection? (.exact 0) = none) {k : Nat}
    (hk : k < (P.trace (.exact 0) o).iterations) :
    ∃ column leaving,
      ((P.trace (.exact 0) o).stage k).nextMove (.exact 0) o = .pivot column leaving ∧
      (P.trace (.exact 0) o).stage (k + 1) =
        ((P.trace (.exact 0) o).stage k).advance (.exact 0) leaving.row column ∧
      ((P.trace (.exact 0) o).stage k).Gains ((P.trace (.exact 0) o).stage (k + 1)) column
        leaving := by
  rcases follows_stage (.exact 0) o (ofProgram (.exact 0) P) hk with
    ⟨column, leaving, hmove, hnext⟩
  rcases P.stage_sound htolerance haccept (Nat.le_of_lt hk) with ⟨hfaithful, hprimal, hcurrent⟩
  have hgains := hfaithful.gains hcurrent hprimal htolerance hmove
  exact ⟨column, leaving, hmove, hnext, hnext ▸ hgains⟩

-- Stages of a run between two with the same basic columns are stages of a return,
-- counted from its start.
theorem Program.circle_degenerate (htolerance : o.tolerance = 0)
    (haccept : P.rejection? (.exact 0) = none) {p q : Nat} (hpq : p < q)
    (hq : q ≤ (P.trace (.exact 0) o).iterations)
    (hbasis : ((P.trace (.exact 0) o).stage p).basicSet =
      ((P.trace (.exact 0) o).stage q).basicSet) {k column : Nat} {leaving : Leaving Rat}
    (hpk : p ≤ k) (hkq : k < q)
    (hmove : ((P.trace (.exact 0) o).stage k).nextMove (.exact 0) o = .pivot column leaving) :
    leaving.ratio = 0 := by
  have hreturn := P.return_of_stages htolerance haccept hpq hq hbasis
  obtain ⟨d, rfl⟩ := Nat.exists_eq_add_of_le hpk
  exact hreturn.ratio_eq_zero (by omega) hmove

theorem Program.circle_still (htolerance : o.tolerance = 0)
    (haccept : P.rejection? (.exact 0) = none) {p q : Nat} (hpq : p < q)
    (hq : q ≤ (P.trace (.exact 0) o).iterations)
    (hbasis : ((P.trace (.exact 0) o).stage p).basicSet =
      ((P.trace (.exact 0) o).stage q).basicSet) {k : Nat} (hpk : p ≤ k) (hkq : k ≤ q) :
    ((P.trace (.exact 0) o).stage k).solution = ((P.trace (.exact 0) o).stage p).solution ∧
      ((P.trace (.exact 0) o).stage k).slacks = ((P.trace (.exact 0) o).stage p).slacks := by
  have hreturn := P.return_of_stages htolerance haccept hpq hq hbasis
  have hsound := fun k => P.stage_sound (k := k) htolerance haccept
  obtain ⟨d, rfl⟩ := Nat.exists_eq_add_of_le hpk
  have hpoint := hreturn.point_eq (fun k hk => (hsound (p + k) (by omega)).2.2)
    (show d ≤ q - p by omega)
  rw [Nat.add_zero] at hpoint
  have hprogram := (hsound (p + d) (by omega)).1.program_eq.trans
    (hsound p (by omega)).1.program_eq.symm
  simp only [solution, slacks, hpoint, hprogram, and_self]

-- The values that a run reports are those of its stages after the first.
theorem Trace.objectives_eq_stages (t : Trace Rat) :
    t.objectives = (List.range t.iterations).map fun k => (t.stage (k + 1)).value := by
  refine List.ext_getElem (by rw [t.length_objectives, List.length_map, List.length_range]) ?_
  intro k hk _
  have hlt : k + 1 < t.path.length := by
    rw [t.length_path, ← t.length_objectives]
    omega
  rw [List.getElem_map, List.getElem_range, stage_eq_getElem t hlt]
  simp only [objectives, path, List.getElem_map, List.getElem_cons_succ]

end Runs

/-- Progress in an exact run without tolerance, under any rules, limit and checks.
    Every pivot changes the reported objective by the product of the entering reduced
    cost and the least ratio, up when maximizing and down when minimizing, and leaves
    it as it is exactly when the ratio is zero; so the reported values are in order.
    If two stages have the same basic columns, all pivots between them have ratio
    zero, and all stages between them show the same solution and slacks. -/
theorem solve_objective_progress {o : Options Rat} {data P : Program Rat}
    (htolerance : o.tolerance = 0) (haccept : data.accept (.exact 0) = .ok P) :
    let t := P.trace (.exact 0) o
    (∃ report, solve (.exact 0) o data = .ok report ∧ report.iterations = t.iterations ∧
      report.objectives = (List.range t.iterations).map fun k => (t.stage (k + 1)).value) ∧
    (∀ k < t.iterations, ∃ column leaving,
      (t.stage k).nextMove (.exact 0) o = .pivot column leaving ∧
      t.stage (k + 1) = (t.stage k).advance (.exact 0) leaving.row column ∧
      (t.stage k).Gains (t.stage (k + 1)) column leaving ∧
      ((t.stage (k + 1)).value = (t.stage k).value ↔ leaving.ratio = 0)) ∧
    (∀ p q, p ≤ q → q ≤ t.iterations →
      match P.sense with
      | .maximize => (t.stage p).value ≤ (t.stage q).value
      | .minimize => (t.stage q).value ≤ (t.stage p).value) ∧
    ∀ p q, p < q → q ≤ t.iterations → (t.stage p).basicSet = (t.stage q).basicSet →
      (∀ k, p ≤ k → k < q → ∀ column leaving,
        (t.stage k).nextMove (.exact 0) o = .pivot column leaving → leaving.ratio = 0) ∧
      ∀ k, p ≤ k → k ≤ q → (t.stage k).solution = (t.stage p).solution ∧
        (t.stage k).slacks = (t.stage p).slacks := by
  rcases Program.accept_eq_ok.mp haccept with ⟨hnone, rfl⟩
  intro t
  refine ⟨⟨P.solve (.exact 0) o, solve_eq_ok.mpr ⟨hnone, rfl⟩, rfl, t.objectives_eq_stages⟩,
    fun k hk => ?_, fun p q hpq hq => ?_, fun p q hpq hq hbasis => ⟨?_, ?_⟩⟩
  · rcases P.stage_gains htolerance hnone hk with ⟨column, leaving, hmove, hnext, hgains⟩
    exact ⟨column, leaving, hmove, hnext, hgains, hgains.value_eq_iff⟩
  · have horder := P.signed_value_antitone htolerance hnone hpq hq
    cases hsense : P.sense with
    | maximize =>
        simp only [hsense, Sense.sign, neg_one_mul, neg_le_neg_iff] at horder ⊢
        exact horder
    | minimize =>
        simp only [hsense, Sense.sign, one_mul] at horder ⊢
        exact horder
  · intro k hpk hkq column leaving hmove
    exact P.circle_degenerate htolerance hnone hpq hq hbasis hpk hkq hmove
  · intro k hpk hkq
    exact P.circle_still htolerance hnone hpq hq hbasis hpk hkq

-- The standard choices go round in six pivots without leaving the origin, and the
-- fourth stage has another basis.
theorem solve_objective_progress_beale :
    let o : Options Rat := { Options.sharp with maxIterations := some 7 }
    let t := beale.trace (.exact 0) o
    t.iterations = 7 ∧ (t.stage 0).basicSet = (t.stage 6).basicSet ∧
      (t.stage 3).basicSet ≠ (t.stage 0).basicSet ∧
      (∀ column leaving, (t.stage 3).nextMove (.exact 0) o = .pivot column leaving →
        leaving.ratio = 0) ∧
      (t.stage 3).solution = (t.stage 0).solution := by
  intro o t
  have haccept : beale.accept (.exact 0) = .ok beale :=
    Program.accept_eq_ok.mpr ⟨by decide +kernel, rfl⟩
  have hiterations : t.iterations = 7 := by decide +kernel
  have hreturn : (t.stage 0).basicSet = (t.stage 6).basicSet := by decide +kernel
  have hcircle := (solve_objective_progress (o := o) rfl haccept).2.2.2 0 6 (by omega)
    (hiterations ▸ by omega) hreturn
  exact ⟨hiterations, hreturn, by decide +kernel, hcircle.1 3 (by omega) (by omega),
    (hcircle.2 3 (by omega) (by omega)).1⟩

end SimplexMethod
