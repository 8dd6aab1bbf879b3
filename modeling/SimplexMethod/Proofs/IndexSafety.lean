import SimplexMethod.Proofs.Bookkeeping
import SimplexMethod.Proofs.GuardedChecks
import SimplexMethod.Proofs.GuardedTables

/-!
# Index safety

No run uses an index out of range, and neither does anything that is told about it.

The guarded steps are put together the way the method does it: accept the data, make the
tableau at the origin, follow the moves and check the vertices, report. One move keeps
the shape of a tableau and its program, and given the shape it is in range; so by
induction on the pivots that are left a whole run is. The guarded service therefore always
has a result, and it is that of the service. For data that are refused this is the gate
alone.

What is said about a run depends on how much a reader wants to know, so it is guarded
apart from the run, at every tableau the run comes to: the log of an iteration, the checks
against any objective values, and the tables.

## Main definitions

* `Guarded.attemptEvents`: What is said in an iteration.
* `Guarded.nextMove`, `Guarded.advance`, `Guarded.visitsFrom`, `Guarded.run`: A run.
* `Guarded.solve`: Accepting, running and reporting.

## Theorems

* `Tableau.Fits.follows`: A move keeps shape and program.
* `Guarded.attemptEvents_eq_some`: The log of an iteration is in range.
* `Guarded.visitsFrom_eq_some`: So is a run.
* `solve_in_range`: So is everything.
-/

namespace SimplexMethod

namespace Tableau

variable {α : Type}

/-- A shaped tableau of a given program. -/
structure Fits (P : Program α) (T : Tableau α) : Prop where
  /-- It has its shape. -/
  shaped : T.Shaped
  /-- The program is the given one. -/
  program_eq : T.program = P

theorem Fits.advance (K : Arithmetic α) {P : Program α} {T : Tableau α}
    (h : T.Fits P) {row column : Nat} (hrow : row < T.rowCount)
    (hcolumn : column < T.columnCount) : (T.advance K row column).Fits P :=
  ⟨h.shaped.advance K hrow hcolumn, h.program_eq⟩

theorem Fits.withStatus {P : Program α} {T : Tableau α} (h : T.Fits P)
    (status : Status) : (T.withStatus status).Fits P :=
  ⟨h.shaped.withStatus status, h.program_eq⟩

-- Whatever the comparisons answer, the method chooses a row and a column.
theorem Fits.follows (K : Arithmetic α) (o : Options α) {P : Program α}
    {T next : Tableau α} (h : T.Fits P) (hfollows : Follows K o T next) :
    next.Fits P := by
  rcases hfollows with ⟨column, leaving, hmove, rfl⟩
  rcases nextMove_eq_pivot K o hmove with ⟨hcolumn, hrow⟩
  exact h.advance K (leaving_lt K hrow) (entering_lt K hcolumn)

end Tableau

namespace Guarded

section Log

variable {α : Type} (K : Arithmetic α) (o : Options α) {T : Tableau α}

/-- The columns examined to find the entering one. -/
def choiceEvents (T : Tableau α) : Guarded (List (Event α)) :=
  match o.columnRule with
  | .mostNegative => return []
  | .firstEligible => do
    let examined := match ← entering K o T with
      | some column => column + 1
      | none => T.columnCount
    (List.range examined).mapM fun j => do
      return .examined j (← T.basis.marks[j]?) (← reducedCost T j)

/-- What the tableau asks for next. -/
def nextMove (T : Tableau α) : Guarded (Move α) := do
  match ← entering K o T with
  | none => return .optimal
  | some column =>
    match ← leaving K o T column with
    | none => return .unbounded column
    | some leaving => return .pivot column leaving

/-- What is said of the entering column. -/
def enteringEvent (T : Tableau α) (k : Int) (column : Nat) : Guarded (Event α) := do
  return .entering o.verbose (k + 1) (← label T column) (← reducedCost T column)

/-- What is said when a pivot is made. -/
def pivotEvent (T : Tableau α) (row column : Nat) : Guarded (Event α) := do
  return .pivot (← label T column) row (← label T (← basicColumn T row)) (← cell T row column)

/-- What is said in iteration `k`, the first being zero. -/
def attemptEvents (T : Tableau α) (k : Int) : Guarded (List (Event α)) := do
  let examined ← choiceEvents K o T
  match ← nextMove K o T with
  | .optimal => return examined
  | .unbounded column => return examined ++ [← enteringEvent o T k column]
  | .pivot column leaving =>
    let entering ← enteringEvent o T k column
    if T.limitReached o k then return examined ++ [entering, .limitReached o.algorithm k]
    else
      let leaves ← label T (← basicColumn T leaving.row)
      return examined ++
        [entering, .leaving o.verbose (k + 1) leaves leaving.row leaving.ratio,
          ← pivotEvent T leaving.row column]

theorem nextMove_eq_some (h : T.Shaped) : nextMove K o T = some (T.nextMove K o) := by
  unfold nextMove Tableau.nextMove
  rw [entering_eq_some K h, some_bind]
  cases hcolumn : T.entering K o with
  | none => rfl
  | some column =>
      dsimp only
      rw [leaving_eq_some K h (Tableau.entering_lt K hcolumn), some_bind]
      cases T.leaving K o column <;> rfl

theorem choiceEvents_eq_some (h : T.Shaped) :
    choiceEvents K o T = some (T.choiceEvents K o) := by
  unfold choiceEvents Tableau.choiceEvents
  cases o.columnRule with
  | mostNegative => rfl
  | firstEligible =>
      dsimp only
      rw [entering_eq_some K h, some_bind]
      refine mapM_eq_some fun j hj => ?_
      have hlt : j < T.columnCount := by
        have hj := List.mem_range.mp hj
        cases hcolumn : T.entering K o with
        | none => rwa [hcolumn] at hj
        | some column =>
            rw [hcolumn] at hj
            have := Tableau.entering_lt K hcolumn
            dsimp only at hj
            omega
      rw [read_eq_some (by rw [h.marks_size]; exact hlt) false, some_bind,
        reducedCost_eq_some K h (Nat.le_of_lt hlt), some_bind, Option.pure_def, Basis.marked]

theorem enteringEvent_eq_some (h : T.Shaped) {column : Nat} (hcolumn : column < T.columnCount)
    (k : Int) : enteringEvent o T k column =
      some (.entering o.verbose (k + 1) (T.label column) (T.reducedCost K column)) := by
  rw [enteringEvent, label_eq_some T hcolumn, some_bind,
    reducedCost_eq_some K h (Nat.le_of_lt hcolumn), some_bind, Option.pure_def]

theorem pivotEvent_eq_some (h : T.Shaped) {row column : Nat} (hrow : row < T.rowCount)
    (hcolumn : column < T.columnCount) :
    pivotEvent T row column = some (T.pivotEvent K row column) := by
  rw [pivotEvent, label_eq_some T hcolumn, some_bind, basicColumn_eq_some h hrow, some_bind,
    label_eq_some T (Tableau.basicColumn_lt h hrow), some_bind,
    cell_eq_some K h (Nat.le_of_lt hrow) (Nat.le_of_lt hcolumn), some_bind, Option.pure_def,
    Tableau.pivotEvent]

theorem attemptEvents_eq_some (h : T.Shaped) (k : Int) :
    attemptEvents K o T k = some (T.attemptEvents K o k) := by
  unfold attemptEvents Tableau.attemptEvents
  rw [choiceEvents_eq_some K o h, some_bind, nextMove_eq_some K o h, some_bind]
  cases hmove : T.nextMove K o with
  | optimal => simp
  | unbounded column =>
      have hcolumn := Tableau.entering_lt K (Tableau.nextMove_eq_unbounded K o hmove).1
      dsimp only
      rw [enteringEvent_eq_some K o h hcolumn, some_bind, Option.pure_def]
  | pivot column leaving =>
      rcases Tableau.nextMove_eq_pivot K o hmove with ⟨henters, hleaves⟩
      have hcolumn := Tableau.entering_lt K henters
      have hrow := Tableau.leaving_lt K hleaves
      dsimp only
      rw [enteringEvent_eq_some K o h hcolumn, some_bind, basicColumn_eq_some h hrow, some_bind,
        label_eq_some T (Tableau.basicColumn_lt h hrow), some_bind,
        pivotEvent_eq_some K h hrow hcolumn, some_bind]
      by_cases hlimit : T.limitReached o k = true
      · rw [if_pos hlimit, if_pos hlimit, Option.pure_def]
      · rw [if_neg hlimit, if_neg hlimit, Option.pure_def]

end Log

section Runs

variable {α : Type} (K : Arithmetic α) (o : Options α) {P : Program α} {T : Tableau α}

/-- The vertex after a pivot, with point and value read. -/
def advance (T : Tableau α) (row column : Nat) : Guarded (Tableau α) := do
  readVertex K (← pivot K T row column)

/-- What a check finds, if checks are made. -/
def findingIf (check : Guarded (Option (Violation α))) : Guarded (Option (Violation α)) :=
  if o.checking = .off then return none else check

/-- Follow the moves for at most `left` pivots. -/
def visitsFrom : (left : Nat) → (history : Array α) → Tableau α →
    Guarded (List (Visit α) × Tableau α)
  | left, history, T => do
    match ← nextMove K o T with
    | .optimal => return ([], T.withStatus .optimal)
    | .unbounded _ => return ([], T.withStatus .unbounded)
    | .pivot column leaving =>
      match left with
      | 0 => return ([], T.withStatus .maxIterationsExceeded)
      | left + 1 =>
        let next ← advance K T leaving.row column
        let history := history.push next.value
        let finding ← findingIf o (vertexViolation? K next history)
        if Tableau.endsRun o finding then
          return ([⟨next, finding⟩], next.withStatus .failedValidation)
        else
          let (visits, last) ← visitsFrom left history next
          return (⟨next, finding⟩ :: visits, last)

/-- Run the method. If it ends at an optimum, that is checked once more. -/
def run (T : Tableau α) : Guarded (Trace α) := do
  let (visits, last) ← visitsFrom K o (T.pivotsAllowed o) #[] T
  let history := (visits.map fun v => v.tableau.value).toArray
  let finding ← if last.status = .optimal then findingIf o (optimumViolation? K last history)
    else pure none
  return {
    start := T
    visits := visits
    finding := finding
    last := if Tableau.endsRun o finding then last.withStatus .failedValidation else last }

/-- The report of a trace. -/
def report (t : Trace α) : Guarded (Report α) := do
  return {
    name := o.runName t.start.program
    algorithm := o.algorithm
    status := t.last.status
    value := t.last.value
    solution := ← solution t.last
    slacks := ← slacks t.last
    duals := ← duals K t.last
    iterations := t.iterations
    objectives := t.objectives }

/-- Accept the data as a program and solve it. -/
def solve (data : Program α) : Guarded (Except (Rejection α) (Report α)) := do
  match ← rejection? K data with
  | some cause => return .error cause
  | none => return .ok (← report K o (← run K o (← ofProgram K data)))

theorem advance_eq_some (h : T.Shaped) {row column : Nat} (hrow : row < T.rowCount)
    (hcolumn : column < T.columnCount) :
    advance K T row column = some (T.advance K row column) := by
  rw [advance, pivot_eq_some K h hrow hcolumn, some_bind]
  exact readVertex_eq_some K (h.advance K hrow hcolumn)

theorem findingIf_eq_some {check : Guarded (Option (Violation α))} {found : Option (Violation α)}
    (h : check = some found) : findingIf o check = some (Tableau.findingIf o found) := by
  unfold findingIf Tableau.findingIf
  rw [h, Option.pure_def]
  exact (apply_ite some _ _ _).symm

/-- A run from a shaped tableau uses no index out of range. Each move is in range and leads
    to a shaped tableau again. -/
theorem visitsFrom_eq_some (left : Nat) (history : Array α) {T : Tableau α} (h : T.Shaped) :
    visitsFrom K o left history T = some (T.visitsFrom K o left history) := by
  induction left generalizing history T with
  | zero =>
      rw [visitsFrom, Tableau.visitsFrom, nextMove_eq_some K o h, some_bind]
      cases T.nextMove K o <;> rfl
  | succ left ih =>
      rw [visitsFrom, Tableau.visitsFrom, nextMove_eq_some K o h, some_bind]
      cases hmove : T.nextMove K o with
      | optimal => rfl
      | unbounded column => rfl
      | pivot column leaving =>
          rcases Tableau.nextMove_eq_pivot K o hmove with ⟨henters, hleaves⟩
          have hcolumn := Tableau.entering_lt K henters
          have hrow := Tableau.leaving_lt K hleaves
          have hnext := h.advance K hrow hcolumn
          have hcheck := vertexViolation?_eq_some K hnext.columns_size hnext.marks_size
          dsimp only
          rw [advance_eq_some K h hrow hcolumn, some_bind, findingIf_eq_some o (hcheck _),
            some_bind, ih _ hnext, some_bind]
          exact (apply_ite some _ _ _).symm

theorem run_eq_some (hP : P.Shaped) (h : T.Fits P) : run K o T = some (T.run K o) := by
  have hlast : (T.visitsFrom K o (T.pivotsAllowed o) #[]).2.Fits P :=
    (Tableau.visitsFrom_invariant K o (I := Tableau.Fits P)
      (fun T column leaving hT hmove => hT.follows K o ⟨column, leaving, hmove, rfl⟩)
      (fun T status hT => hT.withStatus status) (T.pivotsAllowed o) #[] T h).2
  have hcheck := optimumViolation?_eq_some K (hlast.program_eq ▸ hP) hlast.shaped.columns_size
    hlast.shaped.marks_size
  unfold run Tableau.run
  rw [visitsFrom_eq_some K o _ _ h.shaped, some_bind]
  dsimp only
  rw [findingIf_eq_some o (hcheck _)]
  by_cases hoptimal : (T.visitsFrom K o (T.pivotsAllowed o) #[]).2.status = .optimal
  · simp only [if_pos hoptimal, some_bind, Option.pure_def]
  · simp only [if_neg hoptimal, some_bind, Option.pure_def]

theorem report_eq_some {t : Trace α} (h : t.last.Shaped) : report K o t = some (t.report K o) := by
  rw [report, solution_eq_some h, some_bind, slacks_eq_some h, some_bind, duals_eq_some K h,
    some_bind, Option.pure_def, Trace.report]

end Runs

end Guarded

section Solve

variable {α : Type}

/-- Every tableau that a run comes to is a shaped tableau of its program. -/
theorem Program.trace_fits (K : Arithmetic α) (o : Options α) (P : Program α) :
    (∀ T ∈ (P.trace K o).path, T.Fits P) ∧ (P.trace K o).last.Fits P :=
  Tableau.run_invariant K o (fun _ _ h hfollows => h.follows K o hfollows)
    (fun _ status h => h.withStatus status) ⟨.ofProgram K P, rfl⟩

theorem Guarded.solve_eq_some (K : Arithmetic α) (o : Options α) (data : Program α) :
    Guarded.solve K o data = some (SimplexMethod.solve K o data) := by
  unfold Guarded.solve SimplexMethod.solve
  rw [rejection?_eq_some, some_bind]
  cases hrejection : data.rejection? K with
  | some cause =>
      rw [Program.accept_eq_error.mpr hrejection]
      rfl
  | none =>
      have haccept := Program.accept_eq_ok.mpr ⟨hrejection, rfl⟩
      have hP := Program.Shaped.of_rejection? hrejection
      have hlast : ((Tableau.ofProgram K data).run K o).last.Shaped :=
        (Program.trace_fits K o data).2.shaped
      dsimp only
      rw [ofProgram_eq_some K hP, some_bind,
        run_eq_some K o hP ⟨.ofProgram K data, rfl⟩, some_bind, report_eq_some K o hlast, some_bind,
        Option.pure_def, haccept]
      rfl

/-- For any arithmetic and any options, solving an accepted program uses no index out of
    range. Every tableau of the run has the shape of the program, with all basic columns
    among its columns. At each of them the log of an iteration with any number, the checks
    against any objective values, and the tables are in range as well, and so are the
    tables of the program. And the service itself, from the gate to the report, is what
    it is with every access guarded. -/
theorem solve_in_range (K : Arithmetic α) (N : NumberText α) (o : Options α)
    {data P : Program α} (haccept : data.accept K = .ok P) :
    (∀ T, T ∈ (P.trace K o).path ∨ T = (P.trace K o).last →
      T.program = P ∧ T.Shaped ∧
        (∀ k, Guarded.attemptEvents K o T k = some (T.attemptEvents K o k)) ∧
        (∀ history, Guarded.vertexViolation? K T history = some (T.vertexViolation? K history) ∧
          Guarded.optimumViolation? K T history = some (T.optimumViolation? K history)) ∧
        Guarded.text K N T = some (T.text K N) ∧
        Guarded.pointText N T = some (T.pointText N)) ∧
      Guarded.programText N P = some (P.text N) ∧
      Guarded.listing K N P = some (P.listing K N) ∧
      Guarded.solve K o data = some (solve K o data) := by
  have hP : P.Shaped := by
    rcases Program.accept_eq_ok.mp haccept with ⟨hnone, rfl⟩
    exact .of_rejection? hnone
  refine ⟨fun T hT => ?_, Guarded.programText_eq_some N hP, Guarded.listing_eq_some K N hP,
    Guarded.solve_eq_some K o data⟩
  have hshaped : T.Fits P := by
    rcases hT with hpath | rfl
    · exact (Program.trace_fits K o P).1 T hpath
    · exact (Program.trace_fits K o P).2
  rcases hshaped with ⟨h, rfl⟩
  exact ⟨rfl, h, Guarded.attemptEvents_eq_some K o h,
    fun history => ⟨Guarded.vertexViolation?_eq_some K h.columns_size h.marks_size history,
      Guarded.optimumViolation?_eq_some K hP h.columns_size h.marks_size history⟩,
    Guarded.text_eq_some K N h, Guarded.pointText_eq_some N h⟩

end Solve

-- With comparisons that answer no to everything, ratios are divided by zero and a column
-- enters that is basic already. The method still finds its way around the tableau, and so
-- do the checks, which are made and find fault.
theorem solve_in_range_hoist :
    let o : Options Rat := { Options.sharp with maxIterations := some 2, checking := .reportOnly }
    let N : NumberText Rat := ⟨toString, toString, toString, toString⟩
    let t := hoist.trace incomparable o
    hoist.accept incomparable = .ok hoist ∧ t.iterations = 2 ∧
      (t.stage 2).Shaped ∧ (t.visits.map fun v => v.finding.isSome) = [true, true] ∧
      Guarded.text incomparable N (t.stage 2) = some ((t.stage 2).text incomparable N) ∧
      Guarded.solve incomparable o hoist = some (solve incomparable o hoist) := by
  intro o N t
  have haccept : hoist.accept incomparable = .ok hoist :=
    Program.accept_eq_ok.mpr ⟨by decide +kernel, rfl⟩
  have hiterations : t.iterations = 2 := by decide +kernel
  rcases solve_in_range incomparable N o haccept with ⟨htableaux, _, _, hsolve⟩
  rcases htableaux (t.stage 2) (Or.inl (t.stage_mem (Nat.le_of_eq hiterations.symm)))
    with ⟨_, hshaped, _, _, htext, _⟩
  exact ⟨haccept, hiterations, hshaped, by decide +kernel, htext, hsolve⟩

end SimplexMethod
