import SimplexMethod.Proofs.Agreement
import SimplexMethod.Proofs.SignedZeros

/-!
# Maximizing and minimizing

To maximize an objective is to minimize its negative, step by step.

The tableau of a program is kept in the sense of minimization, so a program and its
mirror image have the same cells, and with them the same pivots, the same vertices
and the same end. Only what is read out for the caller has a sign: the value, the
objective values on the way and the shadow prices. None of this needs any law of
arithmetic, except that each sign is turned exactly once.

Validation is another matter. Whether the objective got worse, and whether the
reported value is the objective at the point, is decided on signed numbers, and a
run can end over it. These two checks agree on mirror images because the arithmetic
is sign symmetric. What they say about a failure differs; that they fail does not.

## Main definitions

* `Program.mirrored`, `Tableau.mirrored`, `Report.mirrored`: The mirror image of a
  program that maximizes, of a tableau of it, and of the report of a run.
* `Trace.Mirrors`: A trace goes through the mirror images of another one's tableaux.

## Theorems

* `Tableau.nextMove_mirrored`, `Tableau.advance_mirrored`: Mirror images ask for the
  same move, and make it.
* `Tableau.isSome_vertexViolation?_mirrored`,
  `Tableau.isSome_optimumViolation?_mirrored`: They fail the same checks.
* `Tableau.visitsFrom_mirrored`, `Tableau.run_mirrors`: They run alike.
* `Tableau.ofProgram_mirrored`: They start alike.
* `solve_mirrored`: Solving a mirror image gives the mirror image of the report.
-/

namespace SimplexMethod

variable {α : Type} (K : Arithmetic α)

namespace Program

/-- The program that minimizes the negated objective. -/
def mirrored (P : Program α) : Program α :=
  { P with sense := .minimize, objective := P.objective.map K.neg }

variable (P : Program α)

@[simp]
theorem rowCount_mirrored : (P.mirrored K).rowCount = P.rowCount := rfl

@[simp]
theorem variableCount_mirrored : (P.mirrored K).variableCount = P.variableCount :=
  Array.size_map

@[simp]
theorem columnCount_mirrored : (P.mirrored K).columnCount = P.columnCount := by
  rw [columnCount, variableCount_mirrored, rowCount_mirrored, columnCount]

theorem rejection?_mirrored : (P.mirrored K).rejection? K = P.rejection? K := by
  simp only [rejection?, mirrored, Array.size_map]

end Program

namespace Tableau

/-- The tableau of the mirrored program with the same cells. -/
def mirrored (T : Tableau α) : Tableau α :=
  { T with program := T.program.mirrored K, value := K.neg T.value }

section Reading

variable (T : Tableau α)

@[simp]
theorem program_mirrored : (T.mirrored K).program = T.program.mirrored K := rfl

@[simp]
theorem rowCount_mirrored : (T.mirrored K).rowCount = T.rowCount := rfl

@[simp]
theorem columnCount_mirrored : (T.mirrored K).columnCount = T.columnCount :=
  T.program.columnCount_mirrored K

@[simp]
theorem cell_mirrored (i j : Nat) : (T.mirrored K).cell K i j = T.cell K i j := rfl

@[simp]
theorem reducedCost_mirrored (j : Nat) :
    (T.mirrored K).reducedCost K j = T.reducedCost K j := rfl

@[simp]
theorem basicColumn_mirrored (i : Nat) : (T.mirrored K).basicColumn i = T.basicColumn i := rfl

@[simp]
theorem rightSide_mirrored (i : Nat) : (T.mirrored K).rightSide K i = T.rightSide K i := by
  rw [rightSide, columnCount_mirrored, cell_mirrored, rightSide]

@[simp]
theorem label_mirrored (j : Nat) : (T.mirrored K).label j = T.label j := by
  simp only [label, Program.columnLabel, mirrored, Program.variableCount_mirrored]

@[simp]
theorem solution_mirrored : (T.mirrored K).solution = T.solution := by
  simp only [solution, mirrored, Program.variableCount_mirrored]

@[simp]
theorem slacks_mirrored : (T.mirrored K).slacks = T.slacks := by
  simp only [slacks, mirrored, Program.variableCount_mirrored]

@[simp]
theorem vertex_mirrored : (T.mirrored K).vertex K = T.vertex K := by
  simp only [vertex, rowCount_mirrored, columnCount_mirrored, basicColumn_mirrored,
    rightSide_mirrored]

theorem lastValue_mirrored {T : Tableau α} (h : T.program.sense = .maximize) :
    (T.mirrored K).lastValue K = K.neg (T.lastValue K) := by
  simp only [lastValue, h, columnCount_mirrored, reducedCost_mirrored]
  rfl

theorem readPoint_mirrored : (T.mirrored K).readPoint K = (T.readPoint K).mirrored K := by
  rw [readPoint, vertex_mirrored]
  rfl

theorem readValue_mirrored {T : Tableau α} (h : T.program.sense = .maximize) :
    (T.mirrored K).readValue K = (T.readValue K).mirrored K := by
  rw [readValue, lastValue_mirrored K h]
  rfl

theorem duals_mirrored {T : Tableau α} (h : T.program.sense = .maximize) :
    (T.mirrored K).duals K = (T.duals K).map K.neg := by
  rw [duals, duals, Array.map_ofFn]
  congr 1
  funext i
  simp only [h, mirrored, Program.variableCount_mirrored]
  rfl

end Reading

section Moving

variable (o : Options α) (T : Tableau α)

theorem entering_mirrored : (T.mirrored K).entering K o = T.entering K o := by
  have hbetter : betterColumn K o.tolerance (T.mirrored K) = betterColumn K o.tolerance T := rfl
  simp only [entering, firstEligible, mostNegative, hbetter, columnCount_mirrored,
    reducedCost_mirrored]

theorem scaledSlacks_mirrored (row column : Nat) :
    (T.mirrored K).scaledSlacks K row column = T.scaledSlacks K row column := by
  simp only [scaledSlacks, rowCount_mirrored, cell_mirrored]
  simp only [mirrored, Program.variableCount_mirrored]

theorem prefers_mirrored (candidate current column : Nat) :
    (T.mirrored K).prefers K o candidate current column =
      T.prefers K o candidate current column := by
  unfold prefers lexSmaller
  rw [scaledSlacks_mirrored, scaledSlacks_mirrored]
  rfl

theorem leaving_mirrored (column : Nat) :
    (T.mirrored K).leaving K o column = T.leaving K o column := by
  have hbetter : betterRow K o (T.mirrored K) column = betterRow K o T column := by
    funext best i
    simp only [betterRow, cell_mirrored, rightSide_mirrored, prefers_mirrored]
  rw [leaving, hbetter, rowCount_mirrored, leaving]

/-- Mirror images ask for the same move. -/
theorem nextMove_mirrored : (T.mirrored K).nextMove K o = T.nextMove K o := by
  simp only [nextMove, entering_mirrored, leaving_mirrored]

/-- A pivot of the mirror image is the mirror image of the pivot. -/
theorem advance_mirrored {T : Tableau α} (h : T.program.sense = .maximize) (row column : Nat) :
    (T.mirrored K).advance K row column = (T.advance K row column).mirrored K := by
  have hpivot : (T.mirrored K).pivot K row column = (T.pivot K row column).mirrored K := rfl
  rw [advance, hpivot, readPoint_mirrored]
  exact readValue_mirrored K h

end Moving

section Origin

variable {P : Program α}

theorem constraintRow_mirrored (i : Nat) :
    constraintRow K (P.mirrored K) i = constraintRow K P i := by
  refine Array.ext ?_ fun j _ _ => ?_
  · simp only [constraintRow, Array.size_ofFn, Program.columnCount_mirrored]
  · simp only [constraintRow, Array.getElem_ofFn, Program.variableCount_mirrored,
      Program.columnCount_mirrored]
    rfl

/-- The objective row is that of the minimization form, in either sense. -/
theorem objectiveRow_mirrored (h : P.sense = .maximize) :
    objectiveRow K (P.mirrored K) = objectiveRow K P := by
  refine Array.ext ?_ fun j _ _ => ?_
  · simp only [objectiveRow, Array.size_ofFn, Program.columnCount_mirrored]
  · simp only [objectiveRow, Array.getElem_ofFn, Program.variableCount_mirrored, h]
    by_cases hj : j < P.variableCount
    · have hsize : j < P.objective.size := hj
      simp only [if_pos hj, Program.mirrored, Array.getD_eq_getD_getElem?, Array.getElem?_map,
        Array.getElem?_eq_getElem hsize, Option.map_some, Option.getD_some]
    · simp only [if_neg hj]

/-- Mirror images start alike. -/
theorem ofProgram_mirrored (h : P.sense = .maximize) :
    ofProgram K (P.mirrored K) = (ofProgram K P).mirrored K := by
  let start : Tableau α :=
    { program := P
      rows := (Array.ofFn fun i : Fin P.rowCount => constraintRow K P i).push (objectiveRow K P)
      basis := Basis.slack P.variableCount P.rowCount
      point := #[]
      value := K.zero
      status := .unknown }
  -- The value that the start is filled with is read again at once.
  have hstart : ofProgram K (P.mirrored K) = ((start.mirrored K).readPoint K).readValue K := by
    simp only [ofProgram, constraintRow_mirrored, objectiveRow_mirrored K h,
      Program.variableCount_mirrored]
    rfl
  rw [hstart, readPoint_mirrored]
  exact readValue_mirrored K h

end Origin

section Checking

variable {same : α → α → Prop} (T : Tableau α)

theorem shapeViolation?_mirrored : (T.mirrored K).shapeViolation? = T.shapeViolation? := by
  simp only [shapeViolation?, rowCount_mirrored, columnCount_mirrored]
  rfl

theorem unitViolation?_mirrored : (T.mirrored K).unitViolation? K = T.unitViolation? K := by
  simp only [unitViolation?, rowCount_mirrored, basicColumn_mirrored, cell_mirrored,
    label_mirrored]

theorem primalViolation?_mirrored :
    (T.mirrored K).primalViolation? K = T.primalViolation? K := by
  simp only [primalViolation?, rowCount_mirrored, rightSide_mirrored, basicColumn_mirrored,
    label_mirrored]

theorem dualViolation?_mirrored : (T.mirrored K).dualViolation? K = T.dualViolation? K := by
  simp only [dualViolation?, columnCount_mirrored, reducedCost_mirrored, label_mirrored]

theorem signViolation?_mirrored : (T.mirrored K).signViolation? K = T.signViolation? K := by
  simp only [signViolation?, solution_mirrored, label_mirrored]

theorem constraintViolation?_mirrored :
    (T.mirrored K).constraintViolation? K = T.constraintViolation? K := by
  simp only [constraintViolation?, solution_mirrored]
  rfl

variable {K}

theorem isSome_progressViolation?_mirrored (hK : K.SignSymmetric same) {T : Tableau α}
    (h : T.program.sense = .maximize) (history : Array α) :
    ((T.mirrored K).progressViolation? K (history.map K.neg)).isSome =
      (T.progressViolation? K history).isSome := by
  have hsense : (T.mirrored K).program.sense = .minimize := rfl
  simp only [progressViolation?, ← Array.map_pop, Array.back?_map, h, hsense]
  cases history.pop.back? with
  | none => rfl
  | some before =>
      cases history.back? with
      | none => rfl
      | some last =>
          have horder := hK.lt_opposite (hK.neg_opposite before) (hK.neg_opposite last)
            K.checkTolerance
          simp only [Option.map_some, horder]
          split <;> rfl

theorem isSome_objectiveViolation?_mirrored (hK : K.SignSymmetric same) :
    ((T.mirrored K).objectiveViolation? K).isSome = (T.objectiveViolation? K).isSome := by
  have hnear := hK.near_opposite (hK.compensatedDot_opposite T.program.objective T.solution)
    (hK.neg_opposite T.value) K.checkTolerance
  simp only [objectiveViolation?, solution_mirrored]
  simp only [mirrored, Program.mirrored, hnear]
  split <;> rfl

/-- Mirror images are both sound vertices, or neither is. -/
theorem isSome_vertexViolation?_mirrored (hK : K.SignSymmetric same) {T : Tableau α}
    (h : T.program.sense = .maximize) (history : Array α) :
    ((T.mirrored K).vertexViolation? K (history.map K.neg)).isSome =
      (T.vertexViolation? K history).isSome := by
  have hbasis : (T.mirrored K).basis = T.basis := rfl
  simp only [vertexViolation?, Option.orElse_eq_orElse, Option.orElse_eq_or, Option.isSome_or,
    shapeViolation?_mirrored, hbasis, rowCount_mirrored, columnCount_mirrored,
    unitViolation?_mirrored, primalViolation?_mirrored,
    isSome_progressViolation?_mirrored hK h history]

/-- Mirror images are both sound optima, or neither is. -/
theorem isSome_optimumViolation?_mirrored (hK : K.SignSymmetric same) {T : Tableau α}
    (h : T.program.sense = .maximize) (history : Array α) :
    ((T.mirrored K).optimumViolation? K (history.map K.neg)).isSome =
      (T.optimumViolation? K history).isSome := by
  simp only [optimumViolation?, Option.orElse_eq_orElse, Option.orElse_eq_or, Option.isSome_or,
    isSome_vertexViolation?_mirrored hK h history, dualViolation?_mirrored,
    signViolation?_mirrored, constraintViolation?_mirrored,
    isSome_objectiveViolation?_mirrored T hK]

end Checking

end Tableau

/-- A trace goes through the mirror images of the tableaux of another one. -/
structure Trace.Mirrors (t' t : Trace α) : Prop where
  /-- They begin with mirror images. -/
  start_eq : t'.start = t.start.mirrored K
  /-- They visit mirror images. -/
  tableaux_eq : t'.visits.map Visit.tableau = t.visits.map fun v => v.tableau.mirrored K
  /-- They end with mirror images. -/
  last_eq : t'.last = t.last.mirrored K

namespace Tableau

section Running

variable {same : α → α → Prop} (o : Options α)

-- Whether a run ends over a check depends on no more than whether it failed.
theorem endsRun_findingIf {check check' : Option (Violation α)}
    (h : check'.isSome = check.isSome) :
    endsRun o (findingIf o check') = endsRun o (findingIf o check) := by
  unfold endsRun findingIf
  split
  · rfl
  · rw [h]

variable {K}

theorem values_mirrored {visits visits' : List (Visit α)}
    (h : visits'.map Visit.tableau = visits.map fun v => v.tableau.mirrored K) :
    visits'.map (fun v => v.tableau.value) = (visits.map fun v => v.tableau.value).map K.neg := by
  have hvalues := congrArg (List.map Tableau.value) h
  rw [List.map_map, List.map_map] at hvalues
  rw [List.map_map]
  exact hvalues

/-- The loop goes through the mirror images of the tableaux. The checks find fault
    with the same vertices, though not in the same words. -/
theorem visitsFrom_mirrored (hK : K.SignSymmetric same) (left : Nat) (history : Array α)
    {T : Tableau α} (h : T.program.sense = .maximize) :
    ((T.mirrored K).visitsFrom K o left (history.map K.neg)).1.map Visit.tableau =
        (T.visitsFrom K o left history).1.map (fun v => v.tableau.mirrored K) ∧
      ((T.mirrored K).visitsFrom K o left (history.map K.neg)).2 =
        (T.visitsFrom K o left history).2.mirrored K := by
  induction left generalizing history T with
  | zero =>
      unfold visitsFrom
      rw [nextMove_mirrored]
      split <;> exact ⟨rfl, rfl⟩
  | succ left ih =>
      unfold visitsFrom
      rw [nextMove_mirrored]
      split
      · exact ⟨rfl, rfl⟩
      · exact ⟨rfl, rfl⟩
      · rename_i column leaving _
        have hadvance := advance_mirrored K h leaving.row column
        have hsense : (T.advance K leaving.row column).program.sense = .maximize := h
        generalize T.advance K leaving.row column = next at hadvance hsense ⊢
        have hhistory : (history.map K.neg).push (next.mirrored K).value =
            (history.push next.value).map K.neg := Array.map_push.symm
        have hends : endsRun o (findingIf o ((next.mirrored K).vertexViolation? K
              ((history.push next.value).map K.neg))) =
            endsRun o (findingIf o (next.vertexViolation? K (history.push next.value))) :=
          endsRun_findingIf o (isSome_vertexViolation?_mirrored hK hsense _)
        simp only [hadvance, hhistory, hends]
        split
        · exact ⟨rfl, rfl⟩
        · have hrest := ih (history.push next.value) hsense
          exact ⟨congrArg (List.cons (next.mirrored K)) hrest.1, hrest.2⟩

-- The loop of a whole run.
theorem loop_mirrored (hK : K.SignSymmetric same) {T : Tableau α}
    (h : T.program.sense = .maximize) :
    ((T.mirrored K).visitsFrom K o ((T.mirrored K).pivotsAllowed o) #[]).1.map Visit.tableau =
        (T.visitsFrom K o (T.pivotsAllowed o) #[]).1.map (fun v => v.tableau.mirrored K) ∧
      ((T.mirrored K).visitsFrom K o ((T.mirrored K).pivotsAllowed o) #[]).2 =
        (T.visitsFrom K o (T.pivotsAllowed o) #[]).2.mirrored K := by
  have hallowed : (T.mirrored K).pivotsAllowed o = T.pivotsAllowed o := by
    simp only [pivotsAllowed, rowCount_mirrored, program_mirrored, Program.variableCount_mirrored]
  have hloop := visitsFrom_mirrored o hK (T.pivotsAllowed o) #[] h
  rw [hallowed]
  rwa [Array.map_empty] at hloop

-- The check after the loop, of an optimum if it ended with one.
theorem endsRun_finding_mirrored (hK : K.SignSymmetric same) {T : Tableau α}
    (h : T.program.sense = .maximize) :
    endsRun o ((T.mirrored K).run K o).finding = endsRun o (T.run K o).finding := by
  rcases loop_mirrored o hK h with ⟨htableaux, hlast⟩
  have hsense := (visitsFrom_invariant K o (I := fun T => T.program.sense = .maximize)
    (fun _ _ _ hT _ => hT) (fun _ _ hT => hT) (T.pivotsAllowed o) #[] T h).2
  unfold run
  dsimp only
  rw [hlast, values_mirrored htableaux]
  generalize T.visitsFrom K o (T.pivotsAllowed o) #[] = loop at hsense ⊢
  by_cases hoptimal : loop.2.status = .optimal
  · have hoptimal' : (loop.2.mirrored K).status = .optimal := hoptimal
    rw [if_pos hoptimal, if_pos hoptimal', ← List.map_toArray]
    exact endsRun_findingIf o (isSome_optimumViolation?_mirrored hK hsense _)
  · have hoptimal' : (loop.2.mirrored K).status ≠ .optimal := hoptimal
    rw [if_neg hoptimal, if_neg hoptimal']

/-- Mirror images run alike. -/
theorem run_mirrors (hK : K.SignSymmetric same) {T : Tableau α}
    (h : T.program.sense = .maximize) :
    ((T.mirrored K).run K o).Mirrors K (T.run K o) := by
  rcases loop_mirrored o hK h with ⟨htableaux, hlast⟩
  refine ⟨rfl, htableaux, ?_⟩
  rw [run_last_eq, run_last_eq, endsRun_finding_mirrored o hK h, hlast]
  split <;> rfl

end Running

end Tableau

/-- The report with the signs of everything that the sense gives a sign turned. -/
def Report.mirrored (r : Report α) : Report α :=
  { r with
    value := K.neg r.value
    duals := r.duals.map K.neg
    objectives := r.objectives.map K.neg }

variable {K}

theorem Trace.Mirrors.report_eq {t' t : Trace α} (h : t'.Mirrors K t) (o : Options α)
    (hsense : t.last.program.sense = .maximize) :
    t'.report K o = (t.report K o).mirrored K := by
  have hobjectives : t'.objectives = t.objectives.map K.neg :=
    Tableau.values_mirrored h.tableaux_eq
  have hiterations : t'.iterations = t.iterations := by
    have hlength := congrArg List.length h.tableaux_eq
    rwa [List.length_map, List.length_map] at hlength
  simp only [report, Report.mirrored, hobjectives, hiterations, h.last_eq, h.start_eq,
    Tableau.solution_mirrored, Tableau.slacks_mirrored, Tableau.duals_mirrored K hsense]
  rfl

theorem Program.report_mirrored {same : α → α → Prop} (hK : K.SignSymmetric same) (o : Options α)
    {P : Program α} (h : P.sense = .maximize) :
    (P.mirrored K).solve K o = (P.solve K o).mirrored K := by
  have hsense : (P.trace K o).last.program.sense = .maximize :=
    (Tableau.run_invariant K o (I := fun T => T.program.sense = .maximize)
      (fun _ _ hT ⟨_, _, _, hnext⟩ => hnext ▸ hT) (fun _ _ hT => hT) h).2
  rw [solve, trace, Tableau.ofProgram_mirrored K h]
  exact (Tableau.run_mirrors o hK h).report_eq o hsense

/-- To maximize is to minimize the negative, in any sign symmetric arithmetic: for
    any data and any options, checks included, both are refused for the same reason,
    or both are solved, with the same status, point, slacks and number of iterations,
    and with the value, the shadow prices and all objective values on the way
    negated. -/
theorem solve_mirrored {same : α → α → Prop} (hK : K.SignSymmetric same) (o : Options α)
    (name : String) (objective : Array α) (matrix : Array (Array α)) (bounds : Array α) :
    solve K o ⟨name, .minimize, objective.map K.neg, matrix, bounds⟩ =
      (solve K o ⟨name, .maximize, objective, matrix, bounds⟩).map (Report.mirrored K) := by
  let P : Program α := ⟨name, .maximize, objective, matrix, bounds⟩
  show solve K o (P.mirrored K) = (solve K o P).map _
  rw [solve, solve, Program.accept, Program.accept, P.rejection?_mirrored K]
  cases P.rejection? K with
  | some cause => rfl
  | none => exact congrArg Except.ok (Program.report_mirrored hK o rfl)

-- The tolerance lets the run step out of the polytope, and the check of the vertex
-- ends it. For doubles the statement holds with nothing to compute.
theorem solve_mirrored_lever :
    let o : Options Rat := { Options.sharp with tolerance := 1 / 2, checking := .stopOnError }
    (∃ report, solve (.exact 0) o { lever with sense := .minimize, objective := #[-1] } =
        .ok report ∧
      report.status = .failedValidation ∧ report.solution = #[1] ∧
      report.slacks = #[-1 / 8, 0] ∧ report.duals = #[0, -1] ∧ report.objectives = [-1]) ∧
    solve .binary64 (.standard .binary64)
        ⟨"lever", .minimize, #[1].map Arithmetic.binary64.neg, #[#[0.25], #[1]], #[0.125, 1]⟩ =
      (solve .binary64 (.standard .binary64)
        ⟨"lever", .maximize, #[1], #[#[0.25], #[1]], #[0.125, 1]⟩).map
          (Report.mirrored .binary64) := by
  intro o
  have hsolve : solve (.exact 0) o lever = .ok (lever.solve (.exact 0) o) :=
    solve_eq_ok.mpr ⟨by decide +kernel, rfl⟩
  have hobjective : lever.objective.map (Arithmetic.exact 0).neg = #[-1] := by decide +kernel
  have hmirrored := (solve_mirrored (Arithmetic.signSymmetric_exact 0) o lever.name
    lever.objective lever.matrix lever.bounds).trans (congrArg (Except.map _) hsolve)
  rw [hobjective] at hmirrored
  exact ⟨⟨_, hmirrored, by decide +kernel⟩,
    solve_mirrored Arithmetic.signSymmetric_binary64 _ _ _ _ _⟩

end SimplexMethod
