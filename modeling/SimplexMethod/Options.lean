import SimplexMethod.Arithmetic
import SimplexMethod.Rules

/-!
# Options of a run

What a caller may choose about one run of the method.

## Main definitions

* `Options`: The choices.
* `Options.standard`: The choices of a caller who makes none.
* `Options.limit`: The iteration limit in force.
* `Options.algorithm`: The name of the method with its rules.
-/

namespace SimplexMethod

/-- What a caller may choose about one run. -/
structure Options (α : Type) where
  /-- The name the run is reported under; empty for the program's own. -/
  name : String
  /-- Whether each pivot is logged as information rather than for debugging. -/
  verbose : Bool
  /-- The threshold below which a reduced cost or a column entry counts as zero. -/
  tolerance : α
  /-- The most pivots to make, if the caller sets a limit. -/
  maxIterations : Option Int
  /-- Which column enters. -/
  columnRule : ColumnRule
  /-- Which of the tied rows leaves. -/
  rowRule : RowRule
  /-- Whether vertices are validated. -/
  checking : Checking
  /-- The objective value is logged after every so many pivots; zero for never. -/
  logFrequency : Int

namespace Options

variable {α : Type}

/-- The choices of a caller who makes none. -/
def standard (K : Arithmetic α) : Options α where
  name := ""
  verbose := false
  tolerance := K.defaultTolerance
  maxIterations := none
  columnRule := .mostNegative
  rowRule := .lowestRow
  checking := .off
  logFrequency := 0

/-- The iteration limit for a program of a given size: ten per row and variable,
    and at least a thousand, unless the caller sets one. The product is one of
    natural numbers and has no bound. Integers of 32 bits hold it for fewer than
    214748365 rows and variables together; from there on they overflow. -/
def limit (o : Options α) (rows vars : Nat) : Int :=
  o.maxIterations.getD (max (10 * (rows + vars)) 1000 : Nat)

/-- The name of the method with its rules. -/
def algorithm (o : Options α) : String :=
  s!"PRIMAL SIMPLEX TABLEAU ({o.columnRule.label}, {o.rowRule.label})"

end Options

end SimplexMethod
