import SimplexMethod.Trace

/-!
# Reports

What a run tells its caller.

The report is read off the trace: outcome, value and point from the tableau the
run ended with, the iteration count and the consecutive objective values from
the vertices it visited. `solve` is the whole service: accept the data as a
program, start at the origin, run, report.

## Main definitions

* `Report`: The result of a run.
* `Trace.report`: The report of a trace.
* `Program.trace`, `Program.solve`: Running an accepted program.
* `solve`: Accepting and running.
-/

namespace SimplexMethod

/-- The result of a run. -/
structure Report (α : Type) where
  /-- The name the run goes by. -/
  name : String
  /-- The method and its rules. -/
  algorithm : String
  /-- The outcome. -/
  status : Status
  /-- The objective value at the last vertex. -/
  value : α
  /-- The values of the variables. -/
  solution : Array α
  /-- The values of the slacks. -/
  slacks : Array α
  /-- The shadow prices of the rows. -/
  duals : Array α
  /-- The number of pivots. -/
  iterations : Nat
  /-- The objective value after each pivot. -/
  objectives : List α

variable {α : Type}

/-- The name a run is reported under: the one in the options, or else the
    program's own. -/
def Options.runName (o : Options α) (P : Program α) : String :=
  if o.name.isEmpty then P.name else o.name

/-- The report of a trace. -/
def Trace.report (K : Arithmetic α) (o : Options α) (t : Trace α) : Report α where
  name := o.runName t.start.program
  algorithm := o.algorithm
  status := t.last.status
  value := t.last.value
  solution := t.last.solution
  slacks := t.last.slacks
  duals := t.last.duals K
  iterations := t.iterations
  objectives := t.objectives

/-- Run an accepted program from the origin. -/
def Program.trace (K : Arithmetic α) (o : Options α) (P : Program α) : Trace α :=
  (Tableau.ofProgram K P).run K o

/-- Solve an accepted program. -/
def Program.solve (K : Arithmetic α) (o : Options α) (P : Program α) : Report α :=
  (P.trace K o).report K o

/-- Accept the data as a program and solve it. -/
def solve (K : Arithmetic α) (o : Options α) (data : Program α) :
    Except (Rejection α) (Report α) :=
  (data.accept K).map fun P => P.solve K o

end SimplexMethod
