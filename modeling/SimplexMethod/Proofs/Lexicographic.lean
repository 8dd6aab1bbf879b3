import Mathlib.Algebra.Module.Pi
import Mathlib.Algebra.Order.Field.Basic
import Mathlib.Algebra.Order.Group.PiLex
import Mathlib.Algebra.Order.Module.Defs
import Mathlib.Algebra.Order.Module.Synonym
import SimplexMethod.Proofs.Cycling

/-!
# The lexicographic rule does not cycle

Of the tied rows the one leaves whose slack block, divided by its entry, comes
first in the order of a dictionary. With either column rule no basis comes back.

The right hand side of a row and its slack block together make one vector, and
the ratio test, the test for ties and the comparison of blocks together find the
row whose vector, divided by its entry, is least. It is strictly least. Two rows
with proportional slack blocks would be proportional everywhere, since a row is
the combination of the first rows that its slack block says, and the basic column
of one row is zero in the other.

So a pivot does to whole vectors what the least ratio does to right hand sides:
it keeps them positive. They are positive at the origin, where no right hand side
is negative and the slack blocks are unit vectors. A pivot adds a positive
multiple of a positive vector to the vector of the objective row, which therefore
grows with each of them, the degenerate ones included. Being a function of the
basis, it tells all bases of a run apart.

## Main definitions

* `Tableau.lexRow`: Right hand side and slack block of a row as one vector.
* `Tableau.lexObjective`: The vector of the objective row.
* `Tableau.LexPositive`: The vectors of all constraint rows are positive.

## Theorems

* `Tableau.lexSmaller_iff`: What the comparison of blocks decides.
* `Tableau.lexRow_lt_of_leaving`: The leaving row is strictly least.
* `Tableau.LexPositive.follows`: A pivot keeps the vectors positive.
* `Tableau.lexObjective_lt_of_follows`: The vector of the objective row grows.
* `Program.trace_nodup_of_lexicographic`: No basis comes back.
* `solve_lexicographic_terminates`: The method ends with a verdict.
-/

namespace SimplexMethod

-- Scaling by a positive number keeps the order of a dictionary, place by place.
instance lexPosSMulStrictMono : PosSMulStrictMono Rat (Lex (Nat → Rat)) where
  smul_lt_smul_of_pos_left := by
    rintro a ha v w ⟨k, hbefore, hlt⟩
    refine ⟨k, fun j hj => ?_, ?_⟩
    · exact congrArg (a * ·) (hbefore j hj)
    · exact mul_lt_mul_of_pos_left hlt ha

namespace Tableau

section Vectors

variable {ε : Rat} {T : Tableau Rat}

/-- The slack block of a row, with zeros behind it. -/
def slackBlock (T : Tableau Rat) (i : Nat) : Lex (Nat → Rat) :=
  toLex fun k => if k < T.rowCount then T.entry i (T.program.variableCount + k) else 0

/-- The right hand side of a row, followed by its slack block. -/
def lexRow (T : Tableau Rat) (i : Nat) : Lex (Nat → Rat) :=
  toLex fun
    | 0 => T.constant i
    | k + 1 => T.slackBlock i k

/-- The last cell, followed by the reduced costs of the slacks. -/
def lexObjective (T : Tableau Rat) : Lex (Nat → Rat) := T.lexRow T.rowCount

/-- The vectors of all constraint rows are positive. -/
def LexPositive (T : Tableau Rat) : Prop := ∀ i < T.rowCount, 0 < T.lexRow i

-- A pivot does to the vectors what it does to the rows.
theorem lexRow_advance {row column : Nat} (h : T.Shaped) (hpivot : T.entry row column ≠ 0)
    (i : Nat) : (T.advance (.exact ε) row column).lexRow i =
      T.lexRow i - T.factor row column i • T.lexRow row := by
  funext k
  cases k with
  | zero => exact constant_pivot h hpivot i
  | succ k =>
      show (if k < T.rowCount then
          (T.advance (.exact ε) row column).entry i (T.program.variableCount + k) else 0) =
        (if k < T.rowCount then T.entry i (T.program.variableCount + k) else 0) -
          T.factor row column i *
            (if k < T.rowCount then T.entry row (T.program.variableCount + k) else 0)
      by_cases hk : k < T.rowCount
      · simp only [if_pos hk]
        exact entry_pivot h hpivot i _
      · simp only [if_neg hk, mul_zero, sub_zero]

/-- At the origin the vectors are positive: where the right hand side is zero, the
    slack of the row decides. -/
theorem LexPositive.ofProgram {P : Program Rat} (haccept : P.rejection? (.exact 0) = none) :
    (Tableau.ofProgram (.exact ε) P).LexPositive := by
  intro i (hi : i < P.rowCount)
  have hblock : ∀ k < P.rowCount,
      (Tableau.ofProgram (.exact ε) P).lexRow i (k + 1) = if i = k then 1 else 0 := by
    intro k hk
    refine (if_pos hk).trans ?_
    exact entry_ofProgram_slack hi hk
  have hconstant : (Tableau.ofProgram (.exact ε) P).lexRow i 0 = P.bound i :=
    constant_ofProgram hi
  rcases lt_or_eq_of_le (P.bound_nonneg haccept i) with hpos | hzero
  · refine ⟨0, fun j hj => absurd hj (Nat.not_lt_zero j), ?_⟩
    rw [hconstant]
    exact hpos
  · refine ⟨i + 1, fun j hj => ?_, ?_⟩
    · -- Before the slack of the row stand the right hand side and other slacks.
      cases j with
      | zero => exact hzero.trans hconstant.symm
      | succ j =>
          rw [hblock j (by omega), if_neg (by omega)]
          rfl
    · rw [hblock i hi, if_pos rfl]
      exact one_pos

end Vectors

section Choice

variable {ε : Rat} {o : Options Rat} {P : Program Rat} {T : Tableau Rat} {column : Nat}

-- The comparison finds the first place where the two differ.
theorem lexLess_range (f g : Nat → Rat) (m : Nat) :
    lexLess (.exact ε) 0 ((List.range m).map fun k => (f k, g k)) = true ↔
      ∃ k < m, (∀ j < k, f j = g j) ∧ f k < g k := by
  induction m generalizing f g with
  | zero =>
      rw [List.range_zero, List.map_nil, lexLess]
      simp only [Bool.false_eq_true, Nat.not_lt_zero, false_and, exists_false]
  | succ m ih =>
      have htail : (List.range m).map ((fun k => (f k, g k)) ∘ Nat.succ) =
          (List.range m).map fun k => (f (k + 1), g (k + 1)) := rfl
      rw [List.range_succ_eq_map, List.map_cons, List.map_map, htail, lexLess]
      simp only [Arithmetic.exact_lt, Arithmetic.exact_sub, Arithmetic.exact_add, sub_zero,
        add_zero, decide_eq_true_eq]
      rcases lt_trichotomy (f 0) (g 0) with hlt | heq | hgt
      · rw [if_pos hlt]
        exact ⟨fun _ => ⟨0, Nat.succ_pos m, fun j hj => absurd hj (Nat.not_lt_zero j), hlt⟩,
          fun _ => rfl⟩
      · -- The first places agree, so the rest decides.
        rw [if_neg (not_lt_of_ge (ge_of_eq heq)), if_neg (not_lt_of_ge (le_of_eq heq)), ih]
        constructor
        · rintro ⟨k, hk, hbefore, hat⟩
          refine ⟨k + 1, by omega, fun j hj => ?_, hat⟩
          cases j with
          | zero => exact heq
          | succ j => exact hbefore j (by omega)
        · rintro ⟨k, hk, hbefore, hat⟩
          cases k with
          | zero => exact absurd hat (by rw [heq]; exact lt_irrefl _)
          | succ k =>
              exact ⟨k, by omega, fun j hj => hbefore (j + 1) (by omega), hat⟩
      · rw [if_neg (not_lt_of_gt hgt), if_pos hgt]
        refine ⟨fun h => absurd h Bool.false_ne_true, ?_⟩
        rintro ⟨k, _, hbefore, hat⟩
        cases k with
        | zero => exact absurd hat (not_lt_of_gt hgt)
        | succ k => exact absurd (hbefore 0 (Nat.succ_pos k)) (ne_of_gt hgt)

/-- A tie goes to the row whose slack block, divided by its entry, comes first. -/
theorem lexSmaller_iff {i k : Nat} :
    T.lexSmaller (.exact ε) 0 i k column = true ↔
      (T.entry i column)⁻¹ • T.slackBlock i < (T.entry k column)⁻¹ • T.slackBlock k := by
  have hscaled : ∀ i, T.scaledSlacks (.exact ε) i column =
      (List.range T.rowCount).map (ofLex ((T.entry i column)⁻¹ • T.slackBlock i)) := by
    intro i
    refine List.map_congr_left fun l hl => ?_
    show T.entry i (T.program.variableCount + l) / T.entry i column =
      (T.entry i column)⁻¹ * (if l < T.rowCount then _ else 0)
    rw [if_pos (List.mem_range.mp hl), div_eq_inv_mul]
  rw [lexSmaller, hscaled, hscaled, List.zip_map', lexLess_range]
  constructor
  · rintro ⟨l, _, hbefore, hat⟩
    exact ⟨l, hbefore, hat⟩
  · rintro ⟨l, hbefore, hat⟩
    refine ⟨l, ?_, hbefore, hat⟩
    -- Behind the blocks nothing differs.
    by_contra hbehind
    have hzero : ∀ i, ((T.entry i column)⁻¹ • T.slackBlock i) l = 0 := by
      intro i
      show (T.entry i column)⁻¹ * (if l < T.rowCount then _ else 0) = _
      rw [if_neg hbehind, mul_zero]
    rw [hzero i, hzero k] at hat
    exact lt_irrefl 0 hat

-- Rows whose vectors are proportional are proportional everywhere: a row is what
-- its slack block says of the first rows.
theorem entry_eq_of_slackBlock_eq (hT : T.Faithful P) {i k : Nat} (hi : i < T.rowCount)
    (hk : k < T.rowCount) {a b : Rat} (hblocks : a • T.slackBlock i = b • T.slackBlock k)
    (j : Nat) : a * T.entry i j = b * T.entry k j := by
  rw [hT.equivalent.combination i (Nat.le_of_lt hi) j,
    hT.equivalent.combination k (Nat.le_of_lt hk) j, baseEntry_constraint hi,
    baseEntry_constraint hk, zero_add, zero_add, Finset.mul_sum, Finset.mul_sum]
  refine Finset.sum_congr rfl fun l hl => ?_
  have hplace : a * (if l < T.rowCount then T.entry i (T.program.variableCount + l) else 0) =
      b * (if l < T.rowCount then T.entry k (T.program.variableCount + l) else 0) :=
    congrFun hblocks l
  rw [if_pos (Finset.mem_range.mp hl), if_pos (Finset.mem_range.mp hl)] at hplace
  rw [← mul_assoc, ← mul_assoc, hplace]

/-- Divided by its entry, the vector of the leaving row is strictly less than those
    of all other rows that bound the column. -/
theorem lexRow_lt_of_leaving (hrule : o.rowRule = .lexicographic) (htolerance : o.tolerance = 0)
    (hT : T.Faithful P) {leaving : Leaving Rat}
    (hleaving : T.leaving (.exact 0) o column = some leaving) {i : Nat} (hi : i < T.rowCount)
    (hentry : 0 < T.entry i column) (hother : i ≠ leaving.row) :
    (T.entry leaving.row column)⁻¹ • T.lexRow leaving.row <
      (T.entry i column)⁻¹ • T.lexRow i := by
  rcases leaving_eq_some hleaving with ⟨hrow, hpivot⟩
  rw [htolerance] at hpivot
  have hprefers : ∀ i k, T.prefers (.exact 0) o i k column = true ↔
      (T.entry i column)⁻¹ • T.slackBlock i < (T.entry k column)⁻¹ • T.slackBlock k := by
    intro i k
    rw [prefers, hrule, htolerance]
    exact lexSmaller_iff
  refine lt_of_le_of_ne (not_lt.mp ?_) ?_
  · -- Were the other vector less, the ratio test or the comparison of blocks would
    -- have found it.
    rintro ⟨k, hbefore, hat⟩
    have hratio := leaving_ratio_le hleaving hi (htolerance ▸ hentry)
    rw [div_eq_inv_mul, div_eq_inv_mul] at hratio
    cases k with
    | zero => exact absurd hat (not_lt_of_ge hratio)
    | succ k =>
        have htie := hbefore 0 (Nat.succ_pos k)
        have hnot := leaving_not_preferred hleaving
          (fun i => Bool.eq_false_iff.mpr fun h => lt_irrefl _ ((hprefers i i).mp h))
          (fun i j l hij hjl => (hprefers i l).mpr
            (lt_trans ((hprefers i j).mp hij) ((hprefers j l).mp hjl)))
          hi (htolerance ▸ hentry) (by rw [div_eq_inv_mul, div_eq_inv_mul]; exact htie)
        refine absurd ((hprefers i leaving.row).mpr ?_) (Bool.eq_false_iff.mp hnot)
        exact ⟨k, fun j hj => hbefore (j + 1) (by omega), hat⟩
  · -- Were the two equal, the rows would be proportional, also in the basic column
    -- of the leaving row, which is zero in the other.
    intro heq
    have hblocks : (T.entry leaving.row column)⁻¹ • T.slackBlock leaving.row =
        (T.entry i column)⁻¹ • T.slackBlock i := funext fun k => congrFun heq (k + 1)
    have hproportional := entry_eq_of_slackBlock_eq hT hrow hi hblocks
      (T.basicColumn leaving.row)
    rw [hT.canonical.unit _ hrow _ (Nat.le_of_lt hrow), if_pos rfl,
      hT.canonical.unit _ hrow _ (Nat.le_of_lt hi), if_neg hother, mul_one, mul_zero]
      at hproportional
    exact absurd hproportional (inv_ne_zero (ne_of_gt hpivot))

end Choice

section Steps

variable {o : Options Rat} {P : Program Rat} {T next : Tableau Rat}

/-- A pivot keeps the vectors positive. -/
theorem LexPositive.follows (hrule : o.rowRule = .lexicographic) (htolerance : o.tolerance = 0)
    (hT : T.Faithful P) (h : T.LexPositive) (hfollows : Follows (.exact 0) o T next) :
    next.LexPositive := by
  rcases hfollows with ⟨column, leaving, hmove, rfl⟩
  have hleaving := (nextMove_eq_pivot (.exact 0) o hmove).2
  have hrow := (improving_of_nextMove hmove).row_lt
  have hpivot := (improving_of_nextMove hmove).entry_pos (le_of_eq htolerance.symm)
  have hscaled : 0 < (T.entry leaving.row column)⁻¹ • T.lexRow leaving.row :=
    smul_pos (inv_pos.mpr hpivot) (h leaving.row hrow)
  intro i (hi : i < T.rowCount)
  rw [lexRow_advance hT.canonical.toShaped (ne_of_gt hpivot)]
  by_cases hself : i = leaving.row
  · -- The pivot row is divided by its entry.
    rw [hself, factor_self, sub_smul, one_smul, sub_sub_cancel, one_div]
    exact hscaled
  · rw [factor_other hself, div_eq_mul_inv, mul_smul, sub_pos]
    by_cases hentry : 0 < T.entry i column
    · -- A row that bounds the column: its vector, divided by its entry, is greater.
      have hlt := lexRow_lt_of_leaving hrule htolerance hT hleaving hi hentry hself
      have hback := smul_lt_smul_of_pos_left hlt hentry
      rwa [smul_inv_smul₀ (ne_of_gt hentry)] at hback
    · -- A row that does not: nothing positive is taken away.
      refine lt_of_le_of_lt ?_ (h i hi)
      exact smul_nonpos_of_nonpos_of_nonneg (not_lt.mp hentry) (le_of_lt hscaled)

/-- The vector of the objective row grows with every pivot. -/
theorem lexObjective_lt_of_follows (htolerance : o.tolerance = 0) (hT : T.Faithful P)
    (h : T.LexPositive) (hfollows : Follows (.exact 0) o T next) :
    T.lexObjective < next.lexObjective := by
  rcases hfollows with ⟨column, leaving, hmove, rfl⟩
  have himproving := improving_of_nextMove hmove
  rw [htolerance] at himproving
  have hpivot := himproving.entry_pos (le_refl 0)
  rw [lexObjective, lexObjective, rowCount_advance,
    lexRow_advance hT.canonical.toShaped (ne_of_gt hpivot),
    factor_other (Nat.ne_of_gt himproving.row_lt), sub_eq_add_neg, lt_add_iff_pos_right, ← neg_smul]
  -- What is added is a positive multiple of the pivot row.
  have hmultiple := neg_pos.mpr (div_neg_of_neg_of_pos himproving.cost_neg hpivot)
  exact smul_pos hmultiple (h leaving.row himproving.row_lt)

-- Like the objective row itself, its vector is a function of the basis.
theorem lexObjective_eq_of_basicSet_eq {S T : Tableau Rat} (hS : S.Faithful P)
    (hT : T.Faithful P) (hbasis : S.basicSet = T.basicSet) :
    S.lexObjective = T.lexObjective := by
  have hprogram : S.program = T.program := hS.program_eq.trans hT.program_eq.symm
  have hrows : S.rowCount = T.rowCount := congrArg Program.rowCount hprogram
  rcases hT.canonical.objective_eq_of_basicSet_eq hS.canonical hT.equivalent hS.equivalent
    hprogram hbasis with ⟨hconstant, hentries⟩
  funext k
  cases k with
  | zero => exact hconstant
  | succ k =>
      show (if k < S.rowCount then S.entry S.rowCount (S.program.variableCount + k) else 0) =
        (if k < T.rowCount then T.entry T.rowCount (T.program.variableCount + k) else 0)
      by_cases hk : k < T.rowCount
      · rw [if_pos (hrows ▸ hk), if_pos hk, hprogram]
        exact hentries _ (Nat.add_lt_add_left hk _)
      · rw [if_neg (hrows ▸ hk), if_neg hk]

end Steps

end Tableau

section Runs

variable {o : Options Rat} {data P : Program Rat}

open Tableau

/-- Every tableau of a run has positive vectors. -/
theorem Program.trace_lexPositive (hrule : o.rowRule = .lexicographic)
    (htolerance : o.tolerance = 0) (haccept : P.rejection? (.exact 0) = none) :
    ∀ V ∈ (P.trace (.exact 0) o).path, V.Faithful P ∧ V.LexPositive := by
  have hle : 0 ≤ o.tolerance := le_of_eq htolerance.symm
  refine (run_invariant (.exact 0) o ?_ ?_ ⟨.ofProgram 0 P, .ofProgram haccept⟩).1
  · exact fun T next h hfollows =>
      ⟨h.1.follows hle hfollows, h.2.follows hrule htolerance h.1 hfollows⟩
  · exact fun T status h => ⟨h.1.withStatus status, h.2⟩

/-- From one stage to a later one the vector of the objective row grows. -/
theorem Program.lexObjective_lt_of_lt (hrule : o.rowRule = .lexicographic)
    (htolerance : o.tolerance = 0) (haccept : P.rejection? (.exact 0) = none) {p q : Nat}
    (hpq : p < q) (hq : q ≤ (P.trace (.exact 0) o).iterations) :
    ((P.trace (.exact 0) o).stage p).lexObjective <
      ((P.trace (.exact 0) o).stage q).lexObjective := by
  have hstep : ∀ k < (P.trace (.exact 0) o).iterations,
      ((P.trace (.exact 0) o).stage k).lexObjective <
        ((P.trace (.exact 0) o).stage (k + 1)).lexObjective := by
    intro k hk
    rcases P.trace_lexPositive hrule htolerance haccept _ (Trace.stage_mem _ (Nat.le_of_lt hk))
      with ⟨hfaithful, hpositive⟩
    exact lexObjective_lt_of_follows htolerance hfaithful hpositive
      (follows_stage (.exact 0) o _ hk)
  induction q, hpq using Nat.le_induction with
  | base => exact hstep p hq
  | succ q _ ih => exact lt_trans (ih (by omega)) (hstep q hq)

/-- Under the lexicographic rule a run never has the same basis twice. -/
theorem Program.trace_nodup_of_lexicographic (hrule : o.rowRule = .lexicographic)
    (htolerance : o.tolerance = 0) (haccept : P.rejection? (.exact 0) = none) :
    ((P.trace (.exact 0) o).path.map basicSet).Nodup := by
  refine Trace.nodup_of_stages fun p q hpq hq hbasis => ?_
  have hstages := (P.trace_faithful (ε := 0) (le_of_eq htolerance.symm)).1
  have hgrows := P.lexObjective_lt_of_lt hrule htolerance haccept hpq hq
  -- The vectors differ, so the bases do.
  refine ne_of_lt hgrows (lexObjective_eq_of_basicSet_eq (hstages _ ?_) (hstages _ ?_) hbasis)
  · exact Trace.stage_mem _ (Nat.le_of_lt (Nat.lt_of_lt_of_le hpq hq))
  · exact Trace.stage_mem _ hq

/-- Under the lexicographic rule and either column rule, a run of an accepted program
    keeps the vectors of all constraint rows positive and never has the same basis
    twice. If the limit leaves room for all bases and no check interferes, it ends
    with a verdict. -/
theorem solve_lexicographic_terminates (hrule : o.rowRule = .lexicographic)
    (htolerance : o.tolerance = 0) (haccept : data.accept (.exact 0) = .ok P) :
    (∀ V ∈ (P.trace (.exact 0) o).path, V.LexPositive) ∧
    ((P.trace (.exact 0) o).path.map basicSet).Nodup ∧
    ∃ report, solve (.exact 0) o data = .ok report ∧
      report.iterations < (P.variableCount + P.rowCount).choose P.rowCount ∧
      (((P.variableCount + P.rowCount).choose P.rowCount : Int) ≤
          o.limit P.rowCount P.variableCount →
        o.checking = .off → report.status = .optimal ∨ report.status = .unbounded) := by
  rcases Program.accept_eq_ok.mp haccept with ⟨hnone, rfl⟩
  have hnodup := P.trace_nodup_of_lexicographic hrule htolerance hnone
  refine ⟨fun V hV => ?_, hnodup, ?_⟩
  · exact (P.trace_lexPositive hrule htolerance hnone V hV).2
  · exact solve_of_nodup (le_of_eq htolerance.symm) haccept hnodup

theorem solve_lexicographic_terminates_beale : ∃ o : Options Rat,
    o.rowRule = .lexicographic ∧ o.tolerance = 0 ∧ ∃ report,
      solve (.exact 0) o beale = .ok report ∧ report.iterations = 2 ∧
        (report.status = .optimal ∨ report.status = .unbounded) := by
  let o : Options Rat :=
    { Options.sharp with rowRule := .lexicographic, maxIterations := some 35 }
  have haccept : beale.accept (.exact 0) = .ok beale :=
    Program.accept_eq_ok.mpr ⟨by decide +kernel, rfl⟩
  rcases (solve_lexicographic_terminates (o := o) rfl rfl haccept).2.2 with
    ⟨report, hsolve, _, hstatus⟩
  have hreport := (solve_eq_ok.mp hsolve).2
  refine ⟨o, rfl, rfl, report, hsolve, ?_, hstatus (by decide +kernel) rfl⟩
  rw [hreport]
  decide +kernel

end Runs

end SimplexMethod
