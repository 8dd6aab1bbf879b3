import SimplexMethod.Selection
import SimplexMethod.Validation

/-!
# Runs of the method

What a run does, separated from what is said about it.

`nextMove` looks at a tableau and decides: it is optimal, it is unbounded, or a
certain pivot comes next. The decision is made before the iteration limit is
consulted, so a run that is out of iterations still notices that it has arrived.
A run follows these decisions until one of them ends it, the limit is reached or
a check fails, and keeps every vertex it visits, with what the check found
there. All else that a run tells — statistics, log, tables — is computed from
this trace, so that looking at a run cannot change it.

The loop counts down the iterations that are left, and is structural in them.

## Main definitions

* `Move`, `Tableau.nextMove`: What a tableau asks for.
* `Visit`: A vertex and what its check found.
* `Trace`: The vertices a run visits and the tableau it ends with.
* `Tableau.visitsFrom`: The loop.
* `Tableau.run`: A run with its final check.

## Theorems

* `Tableau.visitsFrom_invariant`: What every move keeps holds throughout a run.
* `Tableau.Shaped.advance`: No pivot breaks the shape.
* `Trace.length_objectives`: There is one objective value per iteration.
-/

namespace SimplexMethod

/-- What a tableau asks for next. -/
inductive Move (α : Type) where
  /-- No column may enter. -/
  | optimal
  /-- The column may enter, and no row bounds it. -/
  | unbounded (column : Nat)
  /-- The column replaces the basic column of the leaving row. -/
  | pivot (column : Nat) (leaving : Leaving α)

/-- A vertex reached by a pivot. -/
structure Visit (α : Type) where
  /-- The tableau, with point and value read. -/
  tableau : Tableau α
  /-- What the check of the vertex found, if it was made and failed. -/
  finding : Option (Violation α)

/-- The course of a run. -/
structure Trace (α : Type) where
  /-- The tableau the run began with. -/
  start : Tableau α
  /-- The vertices, in order. -/
  visits : List (Visit α)
  /-- What the check of the optimum found, if it was made and failed. -/
  finding : Option (Violation α)
  /-- The tableau the run ended with. -/
  last : Tableau α

namespace Tableau

variable {α : Type} (K : Arithmetic α) (o : Options α)

/-- What the tableau asks for next. -/
def nextMove (T : Tableau α) : Move α :=
  match T.entering K o with
  | none => .optimal
  | some column =>
    match T.leaving K o column with
    | none => .unbounded column
    | some leaving => .pivot column leaving

/-- The vertex after a pivot, with point and value read. -/
def advance (T : Tableau α) (row column : Nat) : Tableau α :=
  ((T.pivot K row column).readPoint K).readValue K

/-- What a check finds, if checks are made. -/
def findingIf (check : Option (Violation α)) : Option (Violation α) :=
  if o.checking = .off then none else check

/-- Whether a finding ends the run. -/
def endsRun (finding : Option (Violation α)) : Bool :=
  o.checking = .stopOnError ∧ finding.isSome

/-- Follow the moves for at most `left` pivots. The history holds the objective
    values of the vertices before. -/
def visitsFrom : (left : Nat) → (history : Array α) → Tableau α → List (Visit α) × Tableau α
  | left, history, T =>
    match T.nextMove K o with
    | .optimal => ([], T.withStatus .optimal)
    | .unbounded _ => ([], T.withStatus .unbounded)
    | .pivot column leaving =>
      match left with
      | 0 => ([], T.withStatus .maxIterationsExceeded)
      | left + 1 =>
        let next := T.advance K leaving.row column
        let history := history.push next.value
        let finding := findingIf o (next.vertexViolation? K history)
        if endsRun o finding then ([⟨next, finding⟩], next.withStatus .failedValidation)
        else
          let (visits, last) := visitsFrom left history next
          (⟨next, finding⟩ :: visits, last)

/-- What holds at the start, is kept by every move and does not depend on the
    status holds at every vertex of a run and at its end. -/
theorem visitsFrom_invariant {I : Tableau α → Prop}
    (hmove : ∀ T column leaving, I T → T.nextMove K o = .pivot column leaving →
      I (T.advance K leaving.row column))
    (hstatus : ∀ T status, I T → I (T.withStatus status)) :
    ∀ (left : Nat) (history : Array α) (T : Tableau α), I T →
      (∀ v ∈ (T.visitsFrom K o left history).1, I v.tableau) ∧
        I (T.visitsFrom K o left history).2 := by
  intro left
  induction left with
  | zero =>
      intro history T hT
      rw [visitsFrom]
      split <;> exact ⟨fun _ hv => absurd hv List.not_mem_nil, hstatus T _ hT⟩
  | succ left ih =>
      intro history T hT
      rw [visitsFrom]
      split
      · exact ⟨fun _ hv => absurd hv List.not_mem_nil, hstatus T _ hT⟩
      · exact ⟨fun _ hv => absurd hv List.not_mem_nil, hstatus T _ hT⟩
      · rename_i column leaving hnext
        have hadvance := hmove T column leaving hT hnext
        dsimp only
        split
        · refine ⟨fun v hv => ?_, hstatus _ _ hadvance⟩
          rw [List.mem_singleton.mp hv]
          exact hadvance
        · have hrest := ih (history.push (T.advance K leaving.row column).value) _ hadvance
          refine ⟨fun v hv => ?_, hrest.2⟩
          rcases List.mem_cons.mp hv with rfl | hv
          · exact hadvance
          · exact hrest.1 v hv

theorem nextMove_eq_pivot {T : Tableau α} {column : Nat} {leaving : Leaving α}
    (h : T.nextMove K o = .pivot column leaving) :
    T.entering K o = some column ∧ T.leaving K o column = some leaving := by
  unfold nextMove at h
  grind

theorem Shaped.advance {T : Tableau α} (h : T.Shaped) {row column : Nat}
    (hrow : row < T.rowCount) (hcolumn : column < T.columnCount) :
    (T.advance K row column).Shaped :=
  ((h.pivot K hrow hcolumn).readPoint K).readValue K

/-- The number of pivots a run may make. -/
def pivotsAllowed (T : Tableau α) : Nat :=
  (o.limit T.rowCount T.program.variableCount).toNat

/-- Run the method. If it ends at an optimum, that is checked once more. -/
def run (T : Tableau α) : Trace α :=
  let (visits, last) := T.visitsFrom K o (T.pivotsAllowed o) #[]
  let history := (visits.map fun v => v.tableau.value).toArray
  let finding :=
    if last.status = .optimal then findingIf o (last.optimumViolation? K history) else none
  { start := T
    visits := visits
    finding := finding
    last := if endsRun o finding then last.withStatus .failedValidation else last }

end Tableau

namespace Trace

variable {α : Type}

/-- The number of pivots made. -/
def iterations (t : Trace α) : Nat := t.visits.length

/-- The objective values of the vertices, in order. -/
def objectives (t : Trace α) : List α := t.visits.map fun v => v.tableau.value

theorem length_objectives (t : Trace α) : t.objectives.length = t.iterations :=
  List.length_map _

end Trace

end SimplexMethod
