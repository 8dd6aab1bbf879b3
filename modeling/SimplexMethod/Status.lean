/-!
# Outcomes

How a run ends, by name and by number.

## Main definitions

* `Status`: The six outcomes.
* `Status.label`: The name printed for an outcome.
* `Status.ofCode?`: The outcome with a given number.
-/

namespace SimplexMethod

/-- How far a program has been solved. -/
inductive Status where
  /-- No column can improve the objective. -/
  | optimal
  /-- A column improves the objective without end. -/
  | unbounded
  /-- The origin violates a constraint, so there is no slack basis to start at. -/
  | infeasibleOrigin
  /-- The iteration limit was reached first. -/
  | maxIterationsExceeded
  /-- A check of the tableau failed and the run was told to stop there. -/
  | failedValidation
  /-- Nothing has been decided yet. -/
  | unknown
deriving DecidableEq

namespace Status

/-- The name printed for an outcome. -/
def label : Status → String
  | optimal => "OPTIMAL"
  | unbounded => "UNBOUNDED"
  | infeasibleOrigin => "INFEASIBLE_ORIGIN"
  | maxIterationsExceeded => "MAX_ITERATIONS_EXCEEDED"
  | failedValidation => "FAILED_VALIDATION"
  | unknown => "UNKNOWN"

/-- The outcome with a given number, counted from zero. -/
def ofCode? : Int → Option Status
  | 0 => some optimal
  | 1 => some unbounded
  | 2 => some infeasibleOrigin
  | 3 => some maxIterationsExceeded
  | 4 => some failedValidation
  | 5 => some unknown
  | _ => none

/-- The name of an outcome that may be missing: a missing one has none. -/
def labelOf (status : Option Status) : String :=
  (status.map label).getD ""

end Status

end SimplexMethod
