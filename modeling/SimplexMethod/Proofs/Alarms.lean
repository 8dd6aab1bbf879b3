import SimplexMethod.Proofs.Checks
import SimplexMethod.Proofs.ObjectiveProgress
import SimplexMethod.Proofs.Verdicts

/-!
# Alarms

When the checks of a run fail, and what may be believed if they do not.

A run that is checked looks at every vertex it reaches, with the objective values up to
it, and once more at the tableau it calls optimal. What it records as found is what the
checks say of these tableaux, and a run that stops at findings fails only if one was
recorded. That much holds for any arithmetic, and comes from the loop alone.

Two statements follow in exact arithmetic, in opposite directions. Without tolerance
the invariants of a run are stronger than anything the checks ask for: the basis is
sound, no right hand side is negative, the objective values are in order, and the
optimum is feasible and has its own value. So no check ever fails. With a tolerance the
signs are lost, and only the invariants that need none remain: rows and objective are
still those of the program. Then it is the checks that bring the signs back, up to
their own tolerance, and an optimum that passed them is one of the program up to that.

## Theorems

* `Tableau.run_visit_finding`, `Tableau.run_finding`: What a run records as found.
* `Tableau.run_status_of_findings`: A run without findings does not fail.
* `Tableau.run_optimum_checked`: A run that stops at findings ends at an optimum only if
  that passes.
* `Tableau.SoundBasis.vertexViolation?_eq_none`,
  `Tableau.Faithful.optimumViolation?_eq_none`: What makes the checks pass.
* `Program.stage_checked`, `Program.last_checked`: Exact runs without tolerance pass them.
* `solve_raises_no_alarm`: Such a run is never stopped by a check.
* `solve_validated_optimum`: An optimum that was checked may be believed at any tolerance.
-/

namespace SimplexMethod

namespace Tableau

section Findings

variable {α : Type} (K : Arithmetic α) (o : Options α)

-- Checks that are not made find nothing either.
theorem findingIf_eq_none {check : Option (Violation α)} (h : check = none) :
    findingIf o check = none := by
  rw [findingIf, h, ite_self]

-- The first of the values to come may as well belong to the history.
theorem append_cons_toArray (history : Array α) (value : α) (rest : List α) :
    history ++ (value :: rest).toArray = history.push value ++ rest.toArray := by
  rw [← Array.append_singleton, Array.append_assoc]
  congr 1
  exact (List.append_toArray [value] rest).symm

-- The loop checks a vertex with the history it was given and the objective values from
-- its start up to that vertex.
theorem visitsFrom_finding (left : Nat) (history : Array α) (T : Tableau α) {k : Nat}
    {v : Visit α} (hv : (T.visitsFrom K o left history).1[k]? = some v) :
    v.finding = findingIf o (v.tableau.vertexViolation? K
      (history ++ (((T.visitsFrom K o left history).1.map
        fun v => v.tableau.value).take (k + 1)).toArray)) := by
  induction left generalizing history T k with
  | zero =>
      rw [visitsFrom] at hv
      split at hv <;> cases hv
  | succ left ih =>
      rw [visitsFrom] at hv ⊢
      cases hmove : T.nextMove K o with
      | optimal => rw [hmove] at hv; cases hv
      | unbounded column => rw [hmove] at hv; cases hv
      | pivot column leaving =>
          simp only [hmove] at hv ⊢
          -- The vertex after the pivot stands first whether or not its check ends the run.
          -- Those after it are checked with a history that has its value.
          split at hv
          · rename_i hends
            rw [if_pos hends]
            cases k with
            | zero =>
                cases hv
                rw [List.map_cons, List.take_succ_cons, append_cons_toArray, List.take_zero,
                  Array.append_empty]
            | succ k => cases hv
          · rename_i hgoes
            rw [if_neg hgoes]
            cases k with
            | zero =>
                cases hv
                rw [List.map_cons, List.take_succ_cons, append_cons_toArray, List.take_zero,
                  Array.append_empty]
            | succ k =>
                rw [List.map_cons, List.take_succ_cons, append_cons_toArray]
                exact ih _ _ hv

-- The loop fails at a vertex whose finding ends the run.
theorem Course.endsRun_of_status {left : Nat} {history : Array α} {T last : Tableau α}
    {visits : List (Visit α)} (h : Course K o left history T visits last)
    (hstatus : last.status = .failedValidation) : ∃ v ∈ visits, endsRun o v.finding = true := by
  induction h with
  | optimal _ => cases hstatus
  | unbounded _ => cases hstatus
  | exhausted _ => cases hstatus
  | refused _ hends => exact ⟨_, List.mem_singleton_self _, hends⟩
  | pivot _ _ _ ih =>
      rcases ih hstatus with ⟨v, hv, hends⟩
      exact ⟨v, List.mem_cons_of_mem _ hv, hends⟩

/-- The vertices of a run are checked with the objective values up to them. -/
theorem run_visit_finding (T : Tableau α) {v : Visit α} (hv : v ∈ (T.run K o).visits) :
    ∃ k < (T.run K o).iterations, v.finding = findingIf o
      (((T.run K o).stage (k + 1)).vertexViolation? K
        ((T.run K o).objectives.take (k + 1)).toArray) := by
  rcases List.getElem?_of_mem hv with ⟨k, hk⟩
  have hlt : k < (T.run K o).iterations := (List.getElem?_eq_some_iff.mp hk).1
  have hstage : (T.run K o).stage (k + 1) = v.tableau := by
    rw [Trace.stage, Trace.path, List.getD_cons_succ, List.getD_eq_getElem?_getD,
      List.getElem?_map, hk]
    rfl
  refine ⟨k, hlt, ?_⟩
  have hfinding := visitsFrom_finding K o (T.pivotsAllowed o) #[] T hk
  rw [hstage, hfinding, Array.empty_append]
  rfl

-- What the check after the loop finds at an optimum.
theorem run_finding_of_optimal {T : Tableau α}
    (hstatus : (T.visitsFrom K o (T.pivotsAllowed o) #[]).2.status = .optimal) :
    (T.run K o).finding = findingIf o
      ((T.visitsFrom K o (T.pivotsAllowed o) #[]).2.optimumViolation? K
        (T.run K o).objectives.toArray) := if_pos hstatus

-- After the loop an optimum is checked once more, with all objective values.
theorem run_finding (T : Tableau α) :
    (T.run K o).finding = none ∨ (T.run K o).last.nextMove K o = .optimal ∧
      (T.run K o).finding = findingIf o
        ((T.run K o).last.optimumViolation? K (T.run K o).objectives.toArray) := by
  have hjustified := (visitsFrom_course K o (T.pivotsAllowed o) #[] T).justified
  by_cases hstatus : (T.visitsFrom K o (T.pivotsAllowed o) #[]).2.status = .optimal
  · rw [Justified, hstatus] at hjustified
    have hfinding := run_finding_of_optimal K o hstatus
    -- The check may rewrite the status, which neither moves nor checks look at.
    rcases run_last K o T with hlast | ⟨_, hlast⟩
    · rw [hlast]
      exact Or.inr ⟨hjustified, hfinding⟩
    · rw [hlast]
      exact Or.inr ⟨hjustified, hfinding⟩
  · exact Or.inl (if_neg hstatus)

theorem endsRun_iff {finding : Option (Violation α)} :
    endsRun o finding = true ↔ o.checking = .stopOnError ∧ finding ≠ none := by
  rw [endsRun, decide_eq_true_iff, Option.isSome_iff_ne_none]

/-- A run without findings does not fail. -/
theorem run_status_of_findings {T : Tableau α}
    (hvisits : ∀ v ∈ (T.run K o).visits, v.finding = none) (hfinding : (T.run K o).finding = none) :
    (T.run K o).last.status ≠ .failedValidation := by
  intro hstatus
  rw [run_last_eq, if_neg fun hends => ((endsRun_iff o).mp hends).2 hfinding] at hstatus
  rcases (visitsFrom_course K o (T.pivotsAllowed o) #[] T).endsRun_of_status K o hstatus with
    ⟨v, hv, hends⟩
  exact ((endsRun_iff o).mp hends).2 (hvisits v hv)

/-- A run that stops at findings calls a tableau optimal only if its check finds
    nothing. -/
theorem run_optimum_checked (hstop : o.checking = .stopOnError) {T : Tableau α}
    (hstatus : (T.run K o).last.status = .optimal) :
    (T.run K o).last.optimumViolation? K (T.run K o).objectives.toArray = none := by
  rw [run_last_eq] at hstatus ⊢
  by_cases hends : endsRun o (T.run K o).finding = true
  · rw [if_pos hends] at hstatus
    cases hstatus
  · rw [if_neg hends] at hstatus ⊢
    have hmade := run_finding_of_optimal K o hstatus
    rw [findingIf, hstop, if_neg (by decide)] at hmade
    rw [endsRun_iff, hmade] at hends
    exact not_not.mp fun hfound => hends ⟨hstop, hfound⟩

end Findings

section Exact

variable {ε : Rat} {P : Program Rat} {T : Tableau Rat} {history : Array Rat}

/-- A vertex with a sound basis and no negative right hand side passes its check, if the
    objective values are in order. -/
theorem SoundBasis.vertexViolation?_eq_none (h : T.SoundBasis P) (hprimal : T.Primal)
    (hprogress : T.progressViolation? (.exact ε) history = none) :
    T.vertexViolation? (.exact ε) history = none := by
  have hconsistent : T.basis.Consistent T.rowCount T.columnCount := by
    rw [rowCount, columnCount, h.program_eq]
    exact h.consistent
  have htolerance : -(1 / 10 ^ 6 : Rat) ≤ 0 := by norm_num
  simp only [vertexViolation?, orElse_eq_none]
  refine ⟨h.canonical.toShaped.shapeViolation?_eq_none, hconsistent.violation?_eq_none,
    h.canonical.unitViolation?_eq_none, ?_, hprogress⟩
  exact primalViolation?_eq_none.mpr fun i hi => le_trans htolerance (hprimal i hi)

/-- An optimum of an exact run passes its check. -/
theorem Faithful.optimumViolation?_eq_none (h : T.Faithful P) (hcurrent : T.Current (.exact ε))
    (hprimal : T.Primal) (hcosts : ∀ j < T.columnCount, 0 ≤ T.entry T.rowCount j)
    (hrows : P.matrix.size = P.rowCount)
    (hvertex : T.vertexViolation? (.exact ε) history = none) :
    T.optimumViolation? (.exact ε) history = none := by
  have hfeasible := h.feasible_solution hcurrent hprimal
  have hvalue := h.objectiveAt_solution hcurrent
  have htolerance : -(1 / 10 ^ 6 : Rat) ≤ 0 := by norm_num
  rcases h.program_eq with rfl
  simp only [optimumViolation?, orElse_eq_none]
  refine ⟨hvertex, ?_, ?_, ?_, ?_⟩
  · exact dualViolation?_eq_none.mpr fun j hj => le_trans htolerance (hcosts j hj)
  · exact signViolation?_eq_none fun j hj => hfeasible.nonneg j (hfeasible.size_eq ▸ hj)
  · exact constraintViolation?_eq_none hfeasible.size_eq fun i hi =>
      hfeasible.usage_le i (hrows ▸ hi)
  · exact objectiveViolation?_eq_none hfeasible.size_eq hvalue

-- A basic value is a right hand side, or zero.
theorem Canonical.le_basicValue (h : T.Canonical) {least : Rat} (hleast : least ≤ 0)
    (hconstants : ∀ i < T.rowCount, least ≤ T.constant i) (j : Nat) : least ≤ T.basicValue j := by
  by_cases hj : j ∈ T.basicSet
  · rcases mem_basicSet.mp hj with ⟨i, hi, rfl⟩
    rw [basicValue, h.spread_basicColumn _ hi]
    exact hconstants i hi
  · rw [basicValue, spread_of_notMem _ hj]
    exact hleast

end Exact

end Tableau

open Tableau

section Runs

variable {o : Options Rat} {P : Program Rat}

-- The last two of some values that are in order.
theorem back_le_of_range {n : Nat} {f : Nat → Rat} {sign before last : Rat}
    (horder : ∀ k, k + 1 < n → sign * f (k + 1) ≤ sign * f k)
    (hbefore : ((List.range n).map f).toArray.pop.back? = some before)
    (hlast : ((List.range n).map f).toArray.back? = some last) : sign * last ≤ sign * before := by
  match n with
  | 0 => cases hlast
  | 1 => cases hbefore
  | n + 2 =>
      have hconcat : ∀ m, (List.range (m + 1)).map f = (List.range m).map f ++ [f m] := fun m => by
        rw [List.range_succ, List.map_append, List.map_singleton]
      rw [hconcat, List.back?_toArray, List.getLast?_concat] at hlast
      rw [hconcat, List.pop_toArray, List.dropLast_concat, hconcat, List.back?_toArray,
        List.getLast?_concat] at hbefore
      cases hlast
      cases hbefore
      exact horder n (by omega)

-- The objective values of a run are in order wherever it is checked.
theorem Program.progress_checked (htolerance : o.tolerance = 0)
    (haccept : P.rejection? (.exact 0) = none) {n : Nat}
    (hn : n ≤ (P.trace (.exact 0) o).iterations) {T : Tableau Rat} (hT : T.program = P) :
    T.progressViolation? (.exact 0) ((P.trace (.exact 0) o).objectives.take n).toArray = none := by
  have hvalues : (P.trace (.exact 0) o).objectives.take n =
      (List.range n).map fun k => ((P.trace (.exact 0) o).stage (k + 1)).value := by
    rw [Trace.objectives_eq_stages, ← List.map_take, List.take_range, Nat.min_eq_left hn]
  refine progressViolation?_eq_none fun before last hbefore hlast => ?_
  rw [hvalues] at hbefore hlast
  rw [hT]
  refine back_le_of_range (fun k hk => ?_) hbefore hlast
  exact P.signed_value_antitone htolerance haccept (by omega) (by omega)

/-- Every vertex of an exact run passes its check. -/
theorem Program.stage_checked (htolerance : o.tolerance = 0)
    (haccept : P.rejection? (.exact 0) = none) {k : Nat}
    (hk : k < (P.trace (.exact 0) o).iterations) :
    ((P.trace (.exact 0) o).stage (k + 1)).vertexViolation? (.exact 0)
      ((P.trace (.exact 0) o).objectives.take (k + 1)).toArray = none := by
  have hmem := (P.trace (.exact 0) o).stage_mem hk
  have hbasis := (P.trace_soundBasis (ε := 0) (le_of_eq htolerance.symm)).1 _ hmem
  have hprimal := ((P.trace_primal htolerance haccept).1 _ hmem).2
  exact hbasis.vertexViolation?_eq_none hprimal
    (P.progress_checked htolerance haccept hk hbasis.program_eq)

-- So does the tableau it ends with, if no column may enter.
theorem Program.last_checked (htolerance : o.tolerance = 0)
    (haccept : P.rejection? (.exact 0) = none)
    (hmove : (P.trace (.exact 0) o).last.nextMove (.exact 0) o = .optimal) :
    (P.trace (.exact 0) o).last.optimumViolation? (.exact 0)
      (P.trace (.exact 0) o).objectives.toArray = none := by
  have hbasis := (P.trace_soundBasis (ε := 0) (le_of_eq htolerance.symm)).2
  rcases (P.trace_primal htolerance haccept).2 with ⟨hfaithful, hprimal⟩
  have hcurrent := run_current (.exact 0) o (.ofProgram (.exact 0) P)
  have hentering := nextMove_eq_optimal _ _ hmove
  have hprogress := P.progress_checked htolerance haccept (Nat.le_refl _) hbasis.program_eq
  rw [← Trace.length_objectives, List.take_length] at hprogress
  refine hfaithful.optimumViolation?_eq_none hcurrent hprimal (fun j hj => ?_)
    (Program.Shaped.of_rejection? haccept).matrix_size
    (hbasis.vertexViolation?_eq_none hprimal hprogress)
  have hcost := entering_eq_none hentering hj
  rwa [htolerance, neg_zero] at hcost

end Runs

/-- In exact arithmetic without tolerance no check of a run ever fails, under any rules
    and limit. The check of a vertex finds nothing, given the objective values up to
    that vertex, nor does the check of an optimum. So nothing is recorded as found, and
    a run that stops at findings is never stopped. -/
theorem solve_raises_no_alarm {o : Options Rat} {data P : Program Rat}
    (htolerance : o.tolerance = 0) (haccept : data.accept (.exact 0) = .ok P) :
    let t := P.trace (.exact 0) o
    (∀ k < t.iterations, (t.stage (k + 1)).vertexViolation? (.exact 0)
      (t.objectives.take (k + 1)).toArray = none) ∧
    (t.last.status = .optimal →
      t.last.optimumViolation? (.exact 0) t.objectives.toArray = none) ∧
    (∀ v ∈ t.visits, v.finding = none) ∧ t.finding = none ∧
    ∃ report, solve (.exact 0) o data = .ok report ∧ report.status = t.last.status ∧
      report.status ≠ .failedValidation := by
  rcases Program.accept_eq_ok.mp haccept with ⟨hnone, rfl⟩
  intro t
  have hvertex : ∀ k < t.iterations, (t.stage (k + 1)).vertexViolation? (.exact 0)
      (t.objectives.take (k + 1)).toArray = none :=
    fun k hk => P.stage_checked htolerance hnone hk
  have hvisits : ∀ v ∈ t.visits, v.finding = none := by
    intro v hv
    rcases run_visit_finding (.exact 0) o _ hv with ⟨k, hk, hfinding⟩
    rw [hfinding]
    exact findingIf_eq_none o (hvertex k hk)
  have hfinding : t.finding = none := by
    rcases run_finding (.exact 0) o (ofProgram (.exact 0) P) with hnothing | ⟨hmove, hfinding⟩
    · exact hnothing
    · exact hfinding.trans (findingIf_eq_none o (P.last_checked htolerance hnone hmove))
  refine ⟨hvertex, fun hstatus => ?_, hvisits, hfinding, P.solve (.exact 0) o,
    solve_eq_ok.mpr ⟨hnone, rfl⟩, rfl, run_status_of_findings (.exact 0) o hvisits hfinding⟩
  exact P.last_checked htolerance hnone (run_optimal (.exact 0) o hstatus)

-- Six of the seven pivots gain nothing, and all vertices pass.
theorem solve_raises_no_alarm_beale :
    let o : Options Rat := { Options.sharp with
      columnRule := .firstEligible, rowRule := .lowestBasicColumn, checking := .stopOnError }
    let t := beale.trace (.exact 0) o
    t.iterations = 7 ∧ t.last.status = .optimal ∧
      (t.stage 7).vertexViolation? (.exact 0) (t.objectives.take 7).toArray = none ∧
      t.last.optimumViolation? (.exact 0) t.objectives.toArray = none ∧
      ∃ report, solve (.exact 0) o beale = .ok report ∧ report.status ≠ .failedValidation := by
  intro o t
  have haccept : beale.accept (.exact 0) = .ok beale :=
    Program.accept_eq_ok.mpr ⟨by decide +kernel, rfl⟩
  have hiterations : t.iterations = 7 := by decide +kernel
  have hstatus : t.last.status = .optimal := by decide +kernel
  rcases solve_raises_no_alarm (o := o) rfl haccept with
    ⟨hvertex, hoptimum, _, _, report, hsolve, _, hfree⟩
  exact ⟨hiterations, hstatus, hvertex 6 (by rw [hiterations]; decide), hoptimum hstatus, report,
    hsolve, hfree⟩

/-- An optimum that has been checked may be believed in exact arithmetic at any tolerance
    that is not negative, under any rules, limit and relative epsilon. No variable and
    no slack is negative by more than the checks allow, so no row is used further
    beyond its bound than that. The value is the objective at the solution. And no
    feasible point beats it by more than its weight times the tolerance of the run or
    that of the checks, whichever is less. -/
theorem solve_validated_optimum {ε : Rat} {o : Options Rat} {data : Program Rat}
    {report : Report Rat} (htolerance : 0 ≤ o.tolerance) (hstop : o.checking = .stopOnError)
    (hsolve : solve (.exact ε) o data = .ok report) (hstatus : report.status = .optimal) :
    (report.solution.size = data.variableCount ∧ report.slacks.size = data.rowCount) ∧
    (∀ j < data.variableCount, -(1 / 10 ^ 6) ≤ report.solution.getD j 0) ∧
    (∀ i < data.rowCount, -(1 / 10 ^ 6) ≤ report.slacks.getD i 0) ∧
    (∀ i < data.rowCount, data.usage report.solution i ≤ data.bound i + 1 / 10 ^ 6) ∧
    report.value = data.objectiveAt report.solution ∧
    ∀ x, data.Feasible x →
      match data.sense with
      | .maximize => data.objectiveAt x ≤
          report.value + min o.tolerance (1 / 10 ^ 6) * data.weight x
      | .minimize =>
          report.value - min o.tolerance (1 / 10 ^ 6) * data.weight x ≤ data.objectiveAt x := by
  rcases solve_eq_ok.mp hsolve with ⟨_, rfl⟩
  have hfaithful := (data.trace_faithful (ε := ε) htolerance).2
  have hcurrent := run_current (.exact ε) o (.ofProgram (.exact ε) data)
  have hshaped := hfaithful.canonical.toShaped
  have hentering := nextMove_eq_optimal _ _ (run_optimal (.exact ε) o hstatus)
  have hchecked := run_optimum_checked (.exact ε) o hstop hstatus
  simp only [optimumViolation?, vertexViolation?, orElse_eq_none] at hchecked
  have hprimal := primalViolation?_eq_none.mp hchecked.1.2.2.2.1
  have hdual := dualViolation?_eq_none.mp hchecked.2.1
  have hbasic := hfaithful.canonical.le_basicValue (by norm_num) hprimal
  have hslacks : ∀ i < data.rowCount,
      -(1 / 10 ^ 6) ≤ (data.trace (.exact ε) o).last.slacks.getD i 0 := by
    intro i hi
    rw [hfaithful.canonical.getD_slacks hcurrent (hfaithful.rowCount_eq.symm ▸ hi)]
    exact hbasic _
  refine ⟨⟨?_, ?_⟩, fun j hj => ?_, hslacks, fun i hi => ?_, ?_, fun x hx => ?_⟩
  · exact hshaped.size_solution.trans (congrArg Program.variableCount hfaithful.program_eq)
  · exact hshaped.size_slacks.trans hfaithful.rowCount_eq
  · show -(1 / 10 ^ 6) ≤ (data.trace (.exact ε) o).last.solution.getD j 0
    rw [hfaithful.solution_eq hcurrent, data.getD_restrict _ hj]
    exact hbasic j
  · have hbalance := hfaithful.usage_add_slack hcurrent hi
    have hslack := hslacks i hi
    show data.usage (data.trace (.exact ε) o).last.solution i ≤ data.bound i + 1 / 10 ^ 6
    linarith
  · exact (hfaithful.objectiveAt_solution hcurrent).symm
  · refine hfaithful.objectiveAt_bound hcurrent (fun j hj => ?_) hx
    have hcost := entering_eq_none hentering hj
    exact neg_le.mpr (le_min (neg_le.mp hcost) (neg_le.mp (hdual j hj)))

/-- The lever with a first limit that is only just the tighter one. -/
def tightLever : Program Rat where
  name := "tight lever"
  sense := .maximize
  objective := #[1]
  matrix := #[#[1 / 4], #[1]]
  bounds := #[1 / 4 - 1 / 10 ^ 7, 1]

-- The tolerance hides the first row as before, and its slack ends below zero, but by so
-- little that the checks let it pass.
theorem solve_validated_optimum_tightLever :
    let o : Options Rat := { Options.sharp with tolerance := 1 / 2, checking := .stopOnError }
    ∃ report, solve (.exact 0) o tightLever = .ok report ∧ report.status = .optimal ∧
      report.slacks = #[-1 / 10 ^ 7, 0] ∧ -(1 / 10 ^ 6) ≤ report.slacks.getD 0 0 ∧
      (∀ x, tightLever.Feasible x →
        tightLever.objectiveAt x ≤ report.value + 1 / 10 ^ 6 * tightLever.weight x) := by
  intro o
  have hsolve : solve (.exact 0) o tightLever = .ok (tightLever.solve (.exact 0) o) :=
    solve_eq_ok.mpr ⟨by decide +kernel, rfl⟩
  have hstatus : (tightLever.solve (.exact 0) o).status = .optimal := by decide +kernel
  rcases solve_validated_optimum (by decide +kernel) rfl hsolve hstatus with
    ⟨_, _, hslacks, _, _, hbound⟩
  have hmin : min o.tolerance (1 / 10 ^ 6) = 1 / 10 ^ 6 := by decide +kernel
  rw [hmin] at hbound
  exact ⟨_, hsolve, hstatus, by decide +kernel, hslacks 0 (by decide), hbound⟩

end SimplexMethod
