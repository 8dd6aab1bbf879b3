import SimplexMethod.Proofs.Limits

/-!
# The bookkeeping of a run

Counters, statuses and values of a report, whatever the arithmetic does.

A run can stop in five ways: no column enters, no row leaves, the limit is reached, a
vertex fails its check, or the optimum does. Point and value are read again after every
pivot and at no other time, and the iterations are counted beside the objective values.
So it has to be said of each way to stop that nothing in the report is stale and that no
count is off by one.

The tableau that a report is about can be named without the run: it is the one that as
many moves as the report counts lead to from the origin. A report is compared with the
cells and the basis of that tableau, never with the point and the value that a tableau
keeps. The moves are those of the course that no limit counts, so a run that is stopped
by a check has its place on the same course.

No law of arithmetic is used anywhere. Comparisons may answer at random.

## Main definitions

* `Report.ReadFrom`: A report that was read from the cells and the basis of a tableau.
* `incomparable`: An arithmetic whose comparisons all fail.

## Theorems

* `Tableau.Course.length_le`: A loop makes no more pivots than it may.
* `Tableau.after_succ`: The course that no limit counts, extended at its end.
* `Tableau.run_after`: A run is on that course at every stage.
* `Tableau.run_status`: The status of a run that no check stops is its verdict.
* `Trace.value_last`: The value of a run is the last one it recorded.
* `solve_bookkeeping`: Counters, values and statuses of every report.
-/

namespace SimplexMethod

variable {α : Type}

/-- The values of a report are those that stand in the cells of a tableau, at the places
    that its basis names. -/
structure Report.ReadFrom (K : Arithmetic α) (r : Report α) (T : Tableau α) : Prop where
  value_eq : r.value = T.lastValue K
  solution_eq : r.solution = (T.vertex K).extract 0 T.program.variableCount
  slacks_eq : r.slacks = (T.vertex K).extract T.program.variableCount T.columnCount
  duals_eq : r.duals = T.duals K

namespace Move

variable {move : Move α}

theorem verdict_optimal : move.verdict = .optimal ↔ move = .optimal := by
  cases move <;> simp [verdict]

theorem verdict_unbounded : move.verdict = .unbounded ↔ ∃ column, move = .unbounded column := by
  cases move <;> simp [verdict]

theorem verdict_pivot :
    move.verdict = .maxIterationsExceeded ↔ ∃ column leaving, move = .pivot column leaving := by
  cases move <;> simp [verdict]

end Move

namespace Tableau

variable (K : Arithmetic α) (o : Options α)

section Moves

variable {K o} {T : Tableau α}

theorem nextMove_optimal_iff : T.nextMove K o = .optimal ↔ T.entering K o = none := by
  refine ⟨nextMove_eq_optimal K o, fun h => ?_⟩
  simp only [nextMove, h]

theorem nextMove_unbounded_iff {column : Nat} :
    T.nextMove K o = .unbounded column ↔
      T.entering K o = some column ∧ T.leaving K o column = none := by
  refine ⟨nextMove_eq_unbounded K o, fun ⟨hentering, hleaving⟩ => ?_⟩
  simp only [nextMove, hentering, hleaving]

theorem nextMove_pivot_iff {column : Nat} {leaving : Leaving α} :
    T.nextMove K o = .pivot column leaving ↔
      T.entering K o = some column ∧ T.leaving K o column = some leaving := by
  refine ⟨nextMove_eq_pivot K o, fun ⟨hentering, hleaving⟩ => ?_⟩
  simp only [nextMove, hentering, hleaving]

theorem next?_of_follows {next : Tableau α} (h : Follows K o T next) :
    T.next? K o = some next := by
  rcases h with ⟨column, leaving, hmove, rfl⟩
  simp only [next?, hmove]

end Moves

theorem Course.length_le {left : Nat} {history : Array α} {T last : Tableau α}
    {visits : List (Visit α)} (h : Course K o left history T visits last) :
    visits.length ≤ left := by
  induction h with
  | optimal _ => exact Nat.zero_le _
  | unbounded _ => exact Nat.zero_le _
  | exhausted _ => exact Nat.zero_le _
  | refused _ _ => simp
  | pivot _ _ _ ih => simpa using ih

theorem run_iterations_le (T : Tableau α) : (T.run K o).iterations ≤ T.pivotsAllowed o :=
  (visitsFrom_course K o (T.pivotsAllowed o) #[] T).length_le

-- The course is defined by its first move, and a run is extended by its last one.
theorem after_succ (n : Nat) (T : Tableau α) :
    T.after K o (n + 1) = (T.after K o n).bind (next? K o) := by
  induction n generalizing T with
  | zero => simp [after]
  | succ n ih =>
      rw [after]
      cases hnext : T.next? K o with
      | none => simp [after, hnext]
      | some next => simp [after, hnext, ← ih]

/-- At every stage a run is where as many moves lead to, whether it is checked or not. -/
theorem run_after (T : Tableau α) {k : Nat} (hk : k ≤ (T.run K o).iterations) :
    T.after K o k = some ((T.run K o).stage k) := by
  induction k with
  | zero => rfl
  | succ k ih =>
      rw [after_succ, ih (by omega), Option.bind_some]
      exact next?_of_follows (follows_stage K o T hk)

variable {o}

/-- The status of a run that no check stops is the verdict on the tableau it ends with. -/
theorem run_status (hfree : o.checking ≠ .stopOnError) (T : Tableau α) :
    (T.run K o).last.status = ((T.run K o).last.nextMove K o).verdict := by
  have hjustified := run_justified K o T
  unfold Justified at hjustified
  cases hstatus : (T.run K o).last.status with
  | optimal =>
      rw [hstatus] at hjustified
      exact (Move.verdict_optimal.mpr hjustified).symm
  | unbounded =>
      rw [hstatus] at hjustified
      exact (Move.verdict_unbounded.mpr hjustified).symm
  | maxIterationsExceeded =>
      rw [hstatus] at hjustified
      exact (Move.verdict_pivot.mpr hjustified.2).symm
  | failedValidation =>
      rw [hstatus] at hjustified
      exact absurd hjustified hfree
  | infeasibleOrigin =>
      rw [hstatus] at hjustified
      exact hjustified.elim
  | unknown =>
      rw [hstatus] at hjustified
      exact hjustified.elim

variable {K}

theorem run_exhausted {T : Tableau α} (h : (T.run K o).last.status = .maxIterationsExceeded) :
    (T.run K o).iterations = T.pivotsAllowed o := by
  have hjustified := run_justified K o T
  rw [Justified, h] at hjustified
  exact hjustified.1

theorem run_status_decided (T : Tableau α) :
    (T.run K o).last.status ≠ .unknown ∧ (T.run K o).last.status ≠ .infeasibleOrigin := by
  have hjustified := run_justified K o T
  unfold Justified at hjustified
  constructor
  · intro hstatus
    rw [hstatus] at hjustified
    exact hjustified
  · intro hstatus
    rw [hstatus] at hjustified
    exact hjustified

/-- A current tableau is reported by what its cells and its basis say. -/
theorem Current.readFrom {T : Tableau α} (hcurrent : T.Current K) (t : Trace α)
    (hlast : ∃ status, t.last = T.withStatus status) : (t.report K o).ReadFrom K T := by
  rcases hlast with ⟨status, hlast⟩
  have hsolution : (t.report K o).solution = T.point.extract 0 T.program.variableCount := by
    rw [Trace.report, hlast]
    rfl
  have hslacks : (t.report K o).slacks =
      T.point.extract T.program.variableCount T.point.size := by
    rw [Trace.report, hlast]
    rfl
  refine ⟨?_, ?_, ?_, ?_⟩
  · rw [Trace.report, hlast]
    exact hcurrent.value_eq
  · rw [hsolution, hcurrent.point_eq]
  · rw [hslacks, hcurrent.point_eq, size_vertex]
  · rw [Trace.report, hlast]
    rfl

end Tableau

-- The value that a run ends with was recorded after its last pivot, or is the one that
-- the run started with.
theorem Trace.value_last {K : Arithmetic α} {o : Options α} {T : Tableau α} :
    (T.run K o).last.value = (T.run K o).objectives.getLast?.getD T.value := by
  rcases Tableau.run_last_stage K o T with ⟨status, hlast⟩
  have hvalue : (T.run K o).last.value = ((T.run K o).stage (T.run K o).iterations).value := by
    rw [hlast]
    rfl
  have hgetLast : (T.run K o).path.getLast? =
      some ((T.run K o).stage (T.run K o).iterations) := by
    have hlt : (T.run K o).iterations < (T.run K o).path.length := by
      rw [length_path]
      omega
    rw [List.getLast?_eq_getElem?, length_path, Nat.add_sub_cancel, stage_eq_getElem _ hlt]
    exact List.getElem?_eq_getElem hlt
  have hvalues : (T.value :: (T.run K o).objectives).getLast? =
      some (T.run K o).last.value := by
    have hpath : T.value :: (T.run K o).objectives = (T.run K o).path.map Tableau.value := by
      rw [objectives_eq_tail]
      rfl
    rw [hpath, List.getLast?_map, hgetLast, hvalue]
    rfl
  rw [List.getLast?_cons, Option.some.injEq] at hvalues
  exact hvalues.symm

/-- The bookkeeping of a run is exact, in any arithmetic. Accepted data are solved after
    at most as many pivots as the limit allows, none if it is negative. The report counts
    as many iterations as it has objective values; its value is the last of these, or the
    one at the origin. There is one tableau that so many moves from the origin lead to, and
    value, solution, slacks and shadow prices are read from its cells and its basis. If no
    check can stop the run, its status tells what the choice of a column and a row finds
    in that tableau, and a run that was stopped by its limit has made as many pivots as
    that allows. No run leaves its status undecided. -/
theorem solve_bookkeeping (K : Arithmetic α) (o : Options α) {data P : Program α}
    (haccept : data.accept K = .ok P) :
    ∃ r final, solve K o data = .ok r ∧
      (Tableau.ofProgram K P).after K o r.iterations = some final ∧
      (r.iterations : Int) ≤ max 0 (o.limit P.rowCount P.variableCount) ∧
      r.iterations = r.objectives.length ∧
      r.value = r.objectives.getLast?.getD (Tableau.ofProgram K P).value ∧
      r.ReadFrom K final ∧
      (o.checking ≠ .stopOnError →
        (r.status = .optimal ↔ final.entering K o = none) ∧
        (r.status = .unbounded ↔ ∃ column,
          final.entering K o = some column ∧ final.leaving K o column = none) ∧
        (r.status = .maxIterationsExceeded ↔ ∃ column leaving,
          final.entering K o = some column ∧ final.leaving K o column = some leaving) ∧
        (r.status = .maxIterationsExceeded →
          (r.iterations : Int) = max 0 (o.limit P.rowCount P.variableCount))) ∧
      r.status ≠ .unknown ∧ r.status ≠ .infeasibleOrigin := by
  rcases Program.accept_eq_ok.mp haccept with ⟨hnone, rfl⟩
  have hallowed : ((Tableau.ofProgram K P).pivotsAllowed o : Int) =
      max 0 (o.limit P.rowCount P.variableCount) := by
    show ((o.limit P.rowCount P.variableCount).toNat : Int) = _
    omega
  have hlast := Tableau.run_last_stage K o (Tableau.ofProgram K P)
  have hcurrent := Tableau.run_path_current K o (.ofProgram K P) _
    ((P.trace K o).stage_mem (Nat.le_refl _))
  refine ⟨P.solve K o, (P.trace K o).stage (P.trace K o).iterations,
    solve_eq_ok.mpr ⟨hnone, rfl⟩, Tableau.run_after K o _ (Nat.le_refl _), ?_,
    (Trace.length_objectives _).symm, Trace.value_last, hcurrent.readFrom _ hlast, ?_,
    Tableau.run_status_decided _⟩
  · rw [← hallowed]
    exact Int.ofNat_le.mpr (Tableau.run_iterations_le K o _)
  · intro hfree
    have hstatus := Tableau.run_status K hfree (Tableau.ofProgram K P)
    rcases hlast with ⟨status, hlast⟩
    -- The choices do not look at the status, in which the two tableaux differ.
    have hmove : (P.trace K o).last.nextMove K o =
        ((P.trace K o).stage (P.trace K o).iterations).nextMove K o := by
      rw [Program.trace, hlast]
      rfl
    have hreport : (P.solve K o).status =
        (((P.trace K o).stage (P.trace K o).iterations).nextMove K o).verdict := by
      rw [← hmove]
      exact hstatus
    refine ⟨?_, ?_, ?_, fun h => ?_⟩
    · rw [hreport, Move.verdict_optimal, Tableau.nextMove_optimal_iff]
    · simp only [hreport, Move.verdict_unbounded, Tableau.nextMove_unbounded_iff]
    · simp only [hreport, Move.verdict_pivot, Tableau.nextMove_pivot_iff]
    · rw [← hallowed]
      exact congrArg Int.ofNat (Tableau.run_exhausted h)

/-- Rational numbers that are compared as if all of them were NaN. -/
def incomparable : Arithmetic Rat :=
  { Arithmetic.exact 0 with lt := fun _ _ => false, le := fun _ _ => false }

-- No cost is large enough to be passed over and no ratio is small enough to replace
-- another, so the first column enters in the first row again and again.
theorem solve_bookkeeping_hoist :
    let o : Options Rat := { Options.sharp with maxIterations := some 2 }
    hoist.accept incomparable = .ok hoist ∧ ∃ r final, solve incomparable o hoist = .ok r ∧
      (Tableau.ofProgram incomparable hoist).after incomparable o 2 = some final ∧
      r.iterations = 2 ∧ r.objectives = [1 / 2, 1 / 2] ∧ r.value = 1 / 2 ∧
      r.ReadFrom incomparable final ∧ r.status = .maxIterationsExceeded ∧
      ∃ column leaving, final.entering incomparable o = some column ∧
        final.leaving incomparable o column = some leaving := by
  intro o
  have haccept : hoist.accept incomparable = .ok hoist :=
    Program.accept_eq_ok.mpr ⟨by decide +kernel, rfl⟩
  rcases solve_bookkeeping incomparable o haccept with
    ⟨r, final, hsolve, hafter, _, _, hvalue, hread, hfree, _⟩
  rcases hfree (by decide) with ⟨_, _, hexhausted, hcount⟩
  have hreport := (solve_eq_ok.mp hsolve).2
  have hstatus : r.status = .maxIterationsExceeded := by rw [hreport]; decide +kernel
  have hobjectives : r.objectives = [1 / 2, 1 / 2] := by rw [hreport]; decide +kernel
  have hiterations : r.iterations = 2 := by
    have hlimit := hcount hstatus
    have htwo : max 0 (o.limit hoist.rowCount hoist.variableCount) = 2 := by decide +kernel
    omega
  rw [hobjectives] at hvalue
  rw [hiterations] at hafter
  exact ⟨haccept, r, final, hsolve, hafter, hiterations, hobjectives, hvalue, hread, hstatus,
    hexhausted.mp hstatus⟩

end SimplexMethod
