import SimplexMethod.Proofs.Cycling
import SimplexMethod.Proofs.GuardedAccess

/-!
# Divisors

By what the method divides.

A run divides in three places: a right hand side by the entry of its row in the entering
column, a slack block by the same entry where two rows tie and the lexicographic rule
compares them, and the pivot row by the pivot. A quotient can be given a value whatever
the divisor, and then a division that should not have been made goes unnoticed, the more
so as most ratios are compared once and dropped. So the steps that divide are written once
more, each division *vetted*: it is made only if the divisor is allowed, and otherwise the
whole computation has no result.

Every divisor has passed one test. The ratio test skips a row whose entry does not exceed
the tolerance, it compares a row only with one that was not skipped, and it returns one of
these. So a run divides by nothing that fails the test, in any arithmetic. What this is
worth depends on the tolerance, which is the caller's and is not looked at. If it is not
negative then no divisor is zero. If it is negative a row with a zero can pass, and there
is a program whose run divides by it.

## Main definitions

* `Vetted`: A computation that divides only by what is allowed.
* `Vetted.divide`: A division.
* `Vetted.leaving`, `Vetted.pivot`: The steps that divide.
* `Vetted.trace`: A run.

## Theorems

* `Vetted.leaving_eq_some`, `Vetted.pivot_eq_some`: The steps divide only by what exceeds
  the tolerance.
* `Vetted.trace_eq_some`: So does a run.
* `divisors_nonzero_iff`: No run divides by zero exactly if the tolerance is not negative.
* `divisor_zero_idle`: A run that does.
-/

namespace SimplexMethod

/-- A computation that divides. It has no result if it divides by a number that is not
    allowed. -/
abbrev Vetted (β : Type) : Type := Option β

namespace Vetted

open Guarded (some_bind)

variable {α : Type} (K : Arithmetic α) (allowed : α → Bool) (o : Options α)

section Steps

/-- Divide, if the divisor is allowed. -/
def divide (x divisor : α) : Vetted α := if allowed divisor then some (K.div x divisor) else none

/-- Compare the slack blocks of two rows, each divided by its entry in a column, from the
    given slacks on. Nothing is divided after the first difference. -/
def lexSmallerFrom (tolerance : α) (T : Tableau α) (candidate current column : Nat) :
    List Nat → Vetted Bool
  | [] => return false
  | k :: rest => do
    let slack := T.program.variableCount + k
    let x ← divide K allowed (T.cell K candidate slack) (T.cell K candidate column)
    let y ← divide K allowed (T.cell K current slack) (T.cell K current column)
    if K.lt x (K.sub y tolerance) then return true
    else if K.lt (K.add y tolerance) x then return false
    else lexSmallerFrom tolerance T candidate current column rest

/-- Whether a tie between two rows goes to `candidate`. -/
def prefers (T : Tableau α) (candidate current column : Nat) : Vetted Bool :=
  match o.rowRule with
  | .lexicographic =>
    lexSmallerFrom K allowed o.tolerance T candidate current column (List.range T.rowCount)
  | _ => return T.prefers K o candidate current column

/-- Keep the better of the best row so far and row `i`. -/
def betterRow (T : Tableau α) (column : Nat) (best : Option (Leaving α)) (i : Nat) :
    Vetted (Option (Leaving α)) := do
  let entry := T.cell K i column
  if K.le entry o.tolerance then return best
  else
    let ratio ← divide K allowed (T.rightSide K i) entry
    match best with
    | none => return some ⟨i, ratio⟩
    | some b =>
      if K.near ratio b.ratio K.zero then
        return if ← prefers K allowed o T i b.row column then some ⟨i, ratio⟩ else best
      else return if K.lt ratio b.ratio then some ⟨i, ratio⟩ else best

/-- The row that leaves the basis when `column` enters, if any bounds it. -/
def leaving (T : Tableau α) (column : Nat) : Vetted (Option (Leaving α)) :=
  (List.range T.rowCount).foldlM (betterRow K allowed o T column) none

/-- A row divided by its pivot entry, which becomes one. -/
def normalizeRow (column : Nat) (row : Array α) : Vetted (Array α) := do
  let pivot := row.getD column K.zero
  let cells ← row.toList.mapM fun x => divide K allowed x pivot
  return cells.toArray.setIfInBounds column K.one

/-- Let `column` replace the basic column of `row`. -/
def pivot (T : Tableau α) (row column : Nat) : Vetted (Tableau α) := do
  let pivotRow ← normalizeRow K allowed column (T.rows.getD row #[])
  return { T with
    rows := T.rows.mapIdx fun i cells =>
      if i = row then pivotRow else Tableau.clearRow K pivotRow column cells
    basis := T.basis.exchange row column }

end Steps

section Runs

/-- What the tableau asks for next. -/
def nextMove (T : Tableau α) : Vetted (Move α) :=
  match T.entering K o with
  | none => return .optimal
  | some column => do
    match ← leaving K allowed o T column with
    | none => return .unbounded column
    | some leaving => return .pivot column leaving

/-- The vertex after a pivot, with point and value read. -/
def advance (T : Tableau α) (row column : Nat) : Vetted (Tableau α) := do
  let next ← pivot K allowed T row column
  return (next.readPoint K).readValue K

/-- Follow the moves for at most `left` pivots. -/
def visitsFrom : (left : Nat) → (history : Array α) → Tableau α →
    Vetted (List (Visit α) × Tableau α)
  | left, history, T => do
    match ← nextMove K allowed o T with
    | .optimal => return ([], T.withStatus .optimal)
    | .unbounded _ => return ([], T.withStatus .unbounded)
    | .pivot column leaving =>
      match left with
      | 0 => return ([], T.withStatus .maxIterationsExceeded)
      | left + 1 =>
        let next ← advance K allowed T leaving.row column
        let history := history.push next.value
        let finding := Tableau.findingIf o (next.vertexViolation? K history)
        if Tableau.endsRun o finding then
          return ([⟨next, finding⟩], next.withStatus .failedValidation)
        else
          let (visits, last) ← visitsFrom left history next
          return (⟨next, finding⟩ :: visits, last)

/-- Run the method. The final check divides nothing. -/
def run (T : Tableau α) : Vetted (Trace α) := do
  let (visits, last) ← visitsFrom K allowed o (T.pivotsAllowed o) #[] T
  let history := (visits.map fun v => v.tableau.value).toArray
  let finding :=
    if last.status = .optimal then Tableau.findingIf o (last.optimumViolation? K history)
    else none
  return {
    start := T
    visits := visits
    finding := finding
    last := if Tableau.endsRun o finding then last.withStatus .failedValidation else last }

/-- Run an accepted program from the origin. -/
def trace (P : Program α) : Vetted (Trace α) := run K allowed o (Tableau.ofProgram K P)

end Runs

variable {K allowed o}

theorem divide_eq_some {x divisor : α} (h : allowed divisor = true) :
    divide K allowed x divisor = some (K.div x divisor) := if_pos h

theorem lexSmallerFrom_eq_some {T : Tableau α} {candidate current column : Nat}
    (hcandidate : allowed (T.cell K candidate column) = true)
    (hcurrent : allowed (T.cell K current column) = true) (tolerance : α) (slacks : List Nat) :
    lexSmallerFrom K allowed tolerance T candidate current column slacks =
      some (Tableau.lexLess K tolerance
        ((slacks.map fun k => K.div (T.cell K candidate (T.program.variableCount + k))
          (T.cell K candidate column)).zip
        (slacks.map fun k => K.div (T.cell K current (T.program.variableCount + k))
          (T.cell K current column)))) := by
  induction slacks with
  | nil => rfl
  | cons k rest ih =>
      rw [lexSmallerFrom, divide_eq_some hcandidate, some_bind, divide_eq_some hcurrent, some_bind,
        ih, List.map_cons, List.map_cons, List.zip_cons_cons, Tableau.lexLess]
      simp only [Option.pure_def, apply_ite some]

theorem prefers_eq_some {T : Tableau α} {candidate current column : Nat}
    (hcandidate : allowed (T.cell K candidate column) = true)
    (hcurrent : allowed (T.cell K current column) = true) :
    prefers K allowed o T candidate current column =
      some (T.prefers K o candidate current column) := by
  unfold prefers
  cases hrule : o.rowRule with
  | lowestRow => rfl
  | lowestBasicColumn => rfl
  | lexicographic =>
      dsimp only
      rw [lexSmallerFrom_eq_some hcandidate hcurrent, Tableau.prefers, hrule]
      rfl

section Tested

-- What exceeds the tolerance, in the sense of the one test that is made, is allowed.
variable (hallowed : ∀ divisor, K.le divisor o.tolerance = false → allowed divisor = true)
  {T : Tableau α} {column : Nat}

include hallowed

-- A row is compared with one that was not skipped, and so both may be divided by.
theorem betterRow_eq_some {best : Option (Leaving α)}
    (hbest : ∀ b ∈ best, T.Eligible K o column b.row) (i : Nat) :
    betterRow K allowed o T column best i = some (T.betterRow K o column best i) := by
  unfold betterRow Tableau.betterRow
  dsimp only
  cases hskip : K.le (T.cell K i column) o.tolerance with
  | true => rfl
  | false =>
      have hentry := hallowed _ hskip
      simp only [Bool.false_eq_true, if_false]
      rw [divide_eq_some hentry, some_bind]
      cases best with
      | none => rfl
      | some b =>
          dsimp only
          rw [prefers_eq_some hentry (hallowed _ (hbest b rfl)), some_bind]
          cases K.near (K.div (T.rightSide K i) (T.cell K i column)) b.ratio K.zero <;>
            simp [Option.pure_def]

omit hallowed in
theorem betterRow_eligible {best : Option (Leaving α)}
    (hbest : ∀ b ∈ best, T.Eligible K o column b.row) (i : Nat) :
    ∀ b ∈ T.betterRow K o column best i, T.Eligible K o column b.row := by
  intro b hb
  unfold Tableau.betterRow at hb
  unfold Tableau.Eligible at hbest ⊢
  grind

theorem leaving_eq_some : leaving K allowed o T column = some (T.leaving K o column) :=
  Guarded.foldlM_eq_some (fun best => ∀ b ∈ best, T.Eligible K o column b.row)
    (fun _ hbest i _ => betterRow_eq_some hallowed hbest i)
    (fun _ hbest i _ => betterRow_eligible hbest i) (fun _ hb => nomatch hb)

omit hallowed in
theorem pivot_eq_some {row : Nat} (h : allowed (T.cell K row column) = true) :
    pivot K allowed T row column = some (T.pivot K row column) := by
  have hcells : (T.rows.getD row #[]).toList.mapM
      (fun x => divide K allowed x ((T.rows.getD row #[]).getD column K.zero)) =
        some ((T.rows.getD row #[]).toList.map fun x =>
          K.div x ((T.rows.getD row #[]).getD column K.zero)) :=
    Guarded.mapM_eq_some fun _ _ => divide_eq_some h
  rw [pivot, normalizeRow, hcells, some_bind, Option.pure_def, some_bind, Option.pure_def,
    Tableau.pivot, Tableau.normalizeRow, ← Array.toList_map]

theorem nextMove_eq_some : nextMove K allowed o T = some (T.nextMove K o) := by
  unfold nextMove Tableau.nextMove
  cases T.entering K o with
  | none => rfl
  | some column =>
      dsimp only
      rw [leaving_eq_some hallowed, some_bind]
      cases T.leaving K o column <;> rfl

/-- A run divides only by what exceeds the tolerance. The pivot of each move is the entry of
    a row that was not skipped. -/
theorem visitsFrom_eq_some (left : Nat) (history : Array α) (T : Tableau α) :
    visitsFrom K allowed o left history T = some (T.visitsFrom K o left history) := by
  induction left generalizing history T with
  | zero =>
      rw [visitsFrom, Tableau.visitsFrom, nextMove_eq_some hallowed, some_bind]
      cases T.nextMove K o <;> rfl
  | succ left ih =>
      rw [visitsFrom, Tableau.visitsFrom, nextMove_eq_some hallowed, some_bind]
      cases hmove : T.nextMove K o with
      | optimal => rfl
      | unbounded column => rfl
      | pivot column leaving =>
          have hleaves := (Tableau.nextMove_eq_pivot K o hmove).2
          have hpivot := hallowed _ (Tableau.leaving_outcome hleaves).1
          dsimp only
          rw [advance, pivot_eq_some hpivot, some_bind, Option.pure_def, some_bind, ih, some_bind]
          exact (apply_ite some _ _ _).symm

theorem trace_eq_some (P : Program α) : trace K allowed o P = some (P.trace K o) := by
  rw [trace, run, visitsFrom_eq_some hallowed, some_bind]
  rfl

end Tested

theorem visitsFrom_eq_none {T : Tableau α} (h : nextMove K allowed o T = none) (left : Nat)
    (history : Array α) : visitsFrom K allowed o left history T = none := by
  cases left <;> rw [visitsFrom, h] <;> rfl

end Vetted

/-- A variable that is worth something, and a row that does not use it. -/
def idle : Program Rat where
  name := "idle"
  sense := .maximize
  objective := #[1]
  matrix := #[#[0]]
  bounds := #[1]

section Idle

variable {ε : Rat} {o : Options Rat}

-- Whatever the rules, the variable enters. With a negative tolerance the slack would be
-- eligible as well, but comes after it and costs more.
theorem entering_idle (h : o.tolerance < 0) :
    (Tableau.ofProgram (.exact ε) idle).entering (.exact ε) o = some 0 := by
  have hvariable : (Tableau.ofProgram (.exact ε) idle).reducedCost (.exact ε) 0 = -1 := rfl
  have hslack : (Tableau.ofProgram (.exact ε) idle).reducedCost (.exact ε) 1 = 0 := rfl
  have hcolumns : (Tableau.ofProgram (.exact ε) idle).columnCount = 2 := rfl
  generalize Tableau.ofProgram (.exact ε) idle = T at hvariable hslack hcolumns
  rw [Tableau.reducedCost_exact] at hvariable hslack
  have hbelow : o.tolerance < 1 := by linarith
  unfold Tableau.entering
  cases o.columnRule with
  | firstEligible =>
      simp [Tableau.firstEligible, hcolumns, List.range_succ, hvariable, hbelow]
  | mostNegative =>
      simp [Tableau.mostNegative, hcolumns, List.range_succ, Tableau.betterColumn, hvariable,
        hslack, not_le.mpr hbelow, not_le.mpr h]

-- A zero exceeds a negative tolerance, and the ratio test divides by it.
theorem Vetted.trace_idle (h : o.tolerance < 0) :
    Vetted.trace (.exact ε) (fun divisor => decide (divisor ≠ 0)) o idle = none := by
  have hentry : (Tableau.ofProgram (.exact ε) idle).cell (.exact ε) 0 0 = 0 := rfl
  have hrows : List.range (Tableau.ofProgram (.exact ε) idle).rowCount = [0] := rfl
  have hleaving : Vetted.leaving (.exact ε) (fun divisor => decide (divisor ≠ 0)) o
      (Tableau.ofProgram (.exact ε) idle) 0 = none := by
    simp [Vetted.leaving, hrows, Vetted.betterRow, hentry, h, Vetted.divide]
  have hmove : Vetted.nextMove (.exact ε) (fun divisor => decide (divisor ≠ 0)) o
      (Tableau.ofProgram (.exact ε) idle) = none := by
    rw [Vetted.nextMove, entering_idle h]
    dsimp only
    rw [hleaving]
    rfl
  rw [Vetted.trace, Vetted.run, Vetted.visitsFrom_eq_none hmove]
  rfl

end Idle

/-- With exact arithmetic, for any tolerance and any rules, limits and checks: the run of any
    program divides only by numbers that exceed the tolerance, in the ratio test, in the
    lexicographic comparison and in the pivots. No run of an accepted program divides by
    zero exactly if the tolerance is not negative. -/
theorem divisors_nonzero_iff (ε : Rat) (o : Options Rat) :
    (∀ P, Vetted.trace (.exact ε) (fun divisor => decide (o.tolerance < divisor)) o P =
      some (P.trace (.exact ε) o)) ∧
    ((∀ data P : Program Rat, data.accept (.exact ε) = .ok P →
      Vetted.trace (.exact ε) (fun divisor => decide (divisor ≠ 0)) o P =
        some (P.trace (.exact ε) o)) ↔ 0 ≤ o.tolerance) := by
  have hexceeds : ∀ divisor, (Arithmetic.exact ε).le divisor o.tolerance = false →
      o.tolerance < divisor := by
    intro divisor h
    rw [Arithmetic.exact_le, decide_eq_false_iff_not, not_le] at h
    exact h
  refine ⟨Vetted.trace_eq_some fun divisor h => decide_eq_true (hexceeds divisor h), ?_, ?_⟩
  · intro hall
    by_contra hnegative
    have haccept : idle.accept (.exact ε) = .ok idle := rfl
    have htrace := hall idle idle haccept
    rw [Vetted.trace_idle (not_le.mp hnegative)] at htrace
    exact Option.some_ne_none _ htrace.symm
  · intro htolerance data P _
    refine Vetted.trace_eq_some (fun divisor h => ?_) P
    have hpositive : 0 < divisor := lt_of_le_of_lt htolerance (hexceeds divisor h)
    exact decide_eq_true (ne_of_gt hpositive)

-- Two rows tie at the first vertex, and the rule divides both of their slack blocks.
theorem divisors_nonzero_iff_beale :
    let o : Options Rat := { Options.sharp with rowRule := .lexicographic }
    let trace := beale.trace (.exact 0) o
    beale.accept (.exact 0) = .ok beale ∧ 0 ≤ o.tolerance ∧ trace.iterations = 2 ∧
      Vetted.trace (.exact 0) (fun divisor => decide (divisor ≠ 0)) o beale = some trace := by
  intro o trace
  have haccept : beale.accept (.exact 0) = .ok beale :=
    Program.accept_eq_ok.mpr ⟨by decide +kernel, rfl⟩
  have htolerance : 0 ≤ o.tolerance := le_refl 0
  exact ⟨haccept, htolerance, by decide +kernel,
    (divisors_nonzero_iff 0 o).2.mpr htolerance beale beale haccept⟩

-- The options are the standard ones but for the tolerance. The row with the zero is
-- eligible, and there is no quotient to compare.
theorem divisor_zero_idle :
    let o : Options Rat := { Options.standard (.exact 0) with tolerance := -1 }
    let T := Tableau.ofProgram (.exact 0) idle
    idle.accept (.exact 0) = .ok idle ∧ T.entering (.exact 0) o = some 0 ∧
      T.cell (.exact 0) 0 0 = 0 ∧ T.Eligible (.exact 0) o 0 0 ∧
      Vetted.trace (.exact 0) (fun divisor => decide (divisor ≠ 0)) o idle = none := by
  intro o T
  have hnegative : o.tolerance < 0 := by decide +kernel
  have heligible : T.Eligible (.exact 0) o 0 0 := by
    rw [Tableau.eligible_exact]
    exact hnegative
  exact ⟨rfl, entering_idle hnegative, rfl, heligible, Vetted.trace_idle hnegative⟩

end SimplexMethod
