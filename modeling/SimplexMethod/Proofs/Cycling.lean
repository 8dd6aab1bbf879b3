import Mathlib.Data.Finset.Powerset
import SimplexMethod.Proofs.Vertices

/-!
# Cycling

What happens to a run that comes back to a basis, and to one that never does.

A program has finitely many sets of columns that can be a basis, one for each
choice of as many columns as there are rows. A run whose tableaux all have
different bases is therefore short, and if it may make enough pivots and is not
checked, it ends with a verdict. So the question is only whether a basis can
come back.

The objective row is a function of the basis, and the last cell never falls. A
run that comes back to a basis has left the last cell unchanged all the way; so
every pivot on the way was degenerate, with a right hand side of zero, and the
basic solution never moved. Nothing in this depends on the rules. What comes and
goes on the way is the membership of columns in the basis: a column that is
basic at one stage of a return and not at another has entered the basis at some
stage, and left it at some other.

## Main definitions

* `Tableau.Return`: A run that comes back to the basis it started with.

## Theorems

* `Program.iterations_lt_choose`: Different bases bound the number of pivots.
* `Program.status_of_nodup`: And force a verdict.
* `solve_of_nodup`: So that an accepted program is solved.
* `Tableau.constant_follows`: What a pivot adds to the last cell.
* `Tableau.constant_mono_of_follows`: The last cell of a run never falls.
* `Tableau.Return.degenerate`: Every pivot of a return is degenerate.
* `Tableau.Return.basicValue_eq`: The basic solution of a return never moves.
* `Tableau.Return.exists_entering`, `Tableau.Return.exists_leaving`: A column
  that is not always basic comes and goes.
* `Program.return_of_stages`: Where a run has a basis twice, there is a return.
-/

namespace SimplexMethod

section Counting

variable {ε : Rat} {o : Options Rat} {P : Program Rat}

open Tableau

/-- A run through different bases makes fewer pivots than there are bases. -/
theorem Program.iterations_lt_choose (htolerance : 0 ≤ o.tolerance)
    (hnodup : ((P.trace (.exact ε) o).path.map basicSet).Nodup) :
    (P.trace (.exact ε) o).iterations < (P.variableCount + P.rowCount).choose P.rowCount := by
  -- A basis is a set of as many columns as there are rows.
  have hsubset : ((P.trace (.exact ε) o).path.map basicSet).toFinset ⊆
      (Finset.range P.columnCount).powersetCard P.rowCount := by
    intro basis hbasis
    rcases List.mem_map.mp (List.mem_toFinset.mp hbasis) with ⟨V, hV, rfl⟩
    have hfaithful := P.trace_faithful (ε := ε) htolerance |>.1 V hV
    have hprogram := hfaithful.program_eq
    refine Finset.mem_powersetCard.mpr ⟨?_, ?_⟩
    · rw [← hprogram]
      exact hfaithful.canonical.basicSet_subset
    · rw [← hprogram]
      exact hfaithful.canonical.card_basicSet
  -- There is one more tableau than there are pivots, hence the strict inequality.
  have hcard := Finset.card_le_card hsubset
  rw [List.toFinset_card_of_nodup hnodup, List.length_map, Trace.length_path,
    Finset.card_powersetCard, Finset.card_range, Program.columnCount] at hcard
  exact hcard

/-- If no basis comes back, there are enough pivots for all of them and no check
    interferes, the run ends with a verdict. -/
theorem Program.status_of_nodup (htolerance : 0 ≤ o.tolerance)
    (hnodup : ((P.trace (.exact ε) o).path.map basicSet).Nodup)
    (hlimit : ((P.variableCount + P.rowCount).choose P.rowCount : Int) ≤
      o.limit P.rowCount P.variableCount) (hchecking : o.checking = .off) :
    (P.solve (.exact ε) o).status = .optimal ∨ (P.solve (.exact ε) o).status = .unbounded := by
  have hfew := P.iterations_lt_choose htolerance hnodup
  have hallowed : (Tableau.ofProgram (.exact ε) P).pivotsAllowed o =
      (o.limit P.rowCount P.variableCount).toNat := rfl
  rcases run_status_of_unchecked (.exact ε) o (Tableau.ofProgram (.exact ε) P) hchecking with
    hoptimal | hunbounded | hall
  · exact Or.inl hoptimal
  · exact Or.inr hunbounded
  · -- All pivots were made, but they are more than there are bases.
    rw [hallowed, ← Program.trace] at hall
    omega

/-- So an accepted program is solved, in fewer pivots than there are bases. -/
theorem solve_of_nodup {data : Program Rat} (htolerance : 0 ≤ o.tolerance)
    (haccept : data.accept (.exact ε) = .ok P)
    (hnodup : ((P.trace (.exact ε) o).path.map basicSet).Nodup) :
    ∃ report, solve (.exact ε) o data = .ok report ∧
      report.iterations < (P.variableCount + P.rowCount).choose P.rowCount ∧
      (((P.variableCount + P.rowCount).choose P.rowCount : Int) ≤
          o.limit P.rowCount P.variableCount →
        o.checking = .off → report.status = .optimal ∨ report.status = .unbounded) := by
  rcases Program.accept_eq_ok.mp haccept with ⟨hnone, rfl⟩
  refine ⟨P.solve (.exact ε) o, solve_eq_ok.mpr ⟨hnone, rfl⟩, ?_, ?_⟩
  · exact P.iterations_lt_choose htolerance hnodup
  · exact P.status_of_nodup htolerance hnodup

/-- Stages with different bases make a path without repeated bases. -/
theorem Trace.nodup_of_stages {t : Trace Rat}
    (h : ∀ p q, p < q → q ≤ t.iterations → (t.stage p).basicSet ≠ (t.stage q).basicSet) :
    (t.path.map basicSet).Nodup := by
  rw [List.Nodup, List.pairwise_iff_getElem]
  intro p q hp hq hpq
  rw [List.length_map] at hp hq
  have hne := h p q hpq (by rw [Trace.length_path] at hq; omega)
  rw [Trace.stage_eq_getElem t hp, Trace.stage_eq_getElem t hq] at hne
  rw [List.getElem_map, List.getElem_map]
  exact hne

end Counting

namespace Tableau

section Objective

variable {o : Options Rat} {P : Program Rat} {T : Tableau Rat} {column : Nat}
  {leaving : Leaving Rat}

-- A pivot adds to the last cell the reduced cost, negated, times the ratio.
theorem constant_follows {ε : Rat} (hT : T.Faithful P) (hrow : leaving.row < T.rowCount)
    (hpivot : T.entry leaving.row column ≠ 0) :
    (T.advance (.exact ε) leaving.row column).constant T.rowCount =
      T.constant T.rowCount - T.entry T.rowCount column *
        (T.constant leaving.row / T.entry leaving.row column) :=
  constant_advance_other hT.canonical.toShaped hpivot (Nat.ne_of_gt hrow)

/-- The last cell never falls, and stays the same only in degenerate pivots. -/
theorem constant_le_of_follows (htolerance : o.tolerance = 0) (hT : T.Faithful P)
    (hprimal : T.Primal) (hmove : T.nextMove (.exact 0) o = .pivot column leaving) :
    T.constant T.rowCount ≤ (T.advance (.exact 0) leaving.row column).constant T.rowCount ∧
      ((T.advance (.exact 0) leaving.row column).constant T.rowCount = T.constant T.rowCount →
        T.constant leaving.row = 0) := by
  have himproving := improving_of_nextMove hmove
  rw [htolerance] at himproving
  have hcost := himproving.cost_neg
  have hentry := himproving.entry_pos (le_refl 0)
  have hrow := himproving.row_lt
  rw [constant_follows hT hrow (ne_of_gt hentry)]
  have hratio := div_nonneg (hprimal leaving.row hrow) (le_of_lt hentry)
  constructor
  · have hgain := mul_nonneg (neg_nonneg.mpr (le_of_lt hcost)) hratio
    linarith
  · intro heq
    have hproduct : T.entry T.rowCount column *
        (T.constant leaving.row / T.entry leaving.row column) = 0 := by linarith
    rcases mul_eq_zero.mp hproduct with hzero | hzero
    · exact absurd hzero (ne_of_lt hcost)
    · exact (div_eq_zero_iff.mp hzero).resolve_right (ne_of_gt hentry)

/-- The last cell never falls from one stage of a run to a later one. -/
theorem constant_mono_of_follows {V : Nat → Tableau Rat} {n : Nat} (htolerance : o.tolerance = 0)
    (hfollows : ∀ k < n, Follows (.exact 0) o (V k) (V (k + 1)))
    (hfaithful : ∀ k ≤ n, (V k).Faithful P) (hprimal : ∀ k ≤ n, (V k).Primal) {a b : Nat}
    (hab : a ≤ b) (hb : b ≤ n) : (V a).constant P.rowCount ≤ (V b).constant P.rowCount := by
  induction b, hab using Nat.le_induction with
  | base => exact le_refl _
  | succ b _ ih =>
      rcases hfollows b hb with ⟨column, leaving, hmove, hnext⟩
      have hrows := (hfaithful b (by omega)).rowCount_eq
      have hstep := (constant_le_of_follows htolerance (hfaithful b (by omega))
        (hprimal b (by omega)) hmove).1
      rw [hrows, ← hnext] at hstep
      exact le_trans (ih (by omega)) hstep

end Objective

/-- A run of `n` pivots that comes back to the basis it started with. -/
structure Return (o : Options Rat) (P : Program Rat) (V : Nat → Tableau Rat) (n : Nat) :
    Prop where
  /-- Nothing counts as zero that is not. -/
  tolerance_eq : o.tolerance = 0
  /-- There is a pivot. -/
  pos : 0 < n
  /-- Each stage follows the one before. -/
  follows : ∀ k < n, Follows (.exact 0) o (V k) (V (k + 1))
  /-- Each stage is a canonical form of the program. -/
  faithful : ∀ k ≤ n, (V k).Faithful P
  /-- No right hand side is negative at any stage. -/
  primal : ∀ k ≤ n, (V k).Primal
  /-- The last basis is the first one. -/
  returns : (V n).basicSet = (V 0).basicSet

namespace Return

variable {o : Options Rat} {P : Program Rat} {V : Nat → Tableau Rat} {n : Nat}

theorem rowCount_eq (h : Return o P V n) {k : Nat} (hk : k ≤ n) : (V k).rowCount = P.rowCount :=
  (h.faithful k hk).rowCount_eq

-- The pivot a stage asks for is the one that is made.
theorem next_eq (h : Return o P V n) {k column : Nat} {leaving : Leaving Rat} (hk : k < n)
    (hmove : (V k).nextMove (.exact 0) o = .pivot column leaving) :
    V (k + 1) = (V k).advance (.exact 0) leaving.row column := by
  rcases h.follows k hk with ⟨column', leaving', hmove', hnext⟩
  rw [hmove, Move.pivot.injEq] at hmove'
  rcases hmove' with ⟨rfl, rfl⟩
  exact hnext

theorem mem_basicSet_next (h : Return o P V n) {k j column : Nat} {leaving : Leaving Rat}
    (hk : k < n) (hmove : (V k).nextMove (.exact 0) o = .pivot column leaving) :
    j ∈ (V (k + 1)).basicSet ↔
      j = column ∨ j ∈ (V k).basicSet ∧ j ≠ (V k).basicColumn leaving.row := by
  rw [h.next_eq hk hmove]
  exact (h.faithful k (Nat.le_of_lt hk)).canonical.mem_basicSet_pivot (ε := 0)
    (improving_of_nextMove hmove).row_lt

theorem constant_mono (h : Return o P V n) {a b : Nat} (hab : a ≤ b) (hb : b ≤ n) :
    (V a).constant P.rowCount ≤ (V b).constant P.rowCount :=
  constant_mono_of_follows h.tolerance_eq h.follows h.faithful h.primal hab hb

/-- The last cell is the same at all stages: it never falls, and in the end it is
    what it was, because the basis is. -/
theorem constant_eq (h : Return o P V n) {k : Nat} (hk : k ≤ n) :
    (V k).constant P.rowCount = (V 0).constant P.rowCount := by
  have hfirst := h.faithful 0 (Nat.zero_le n)
  have hlast := h.faithful n (Nat.le_refl n)
  have hends := (hfirst.canonical.objective_eq_of_basicSet_eq hlast.canonical hfirst.equivalent
    hlast.equivalent (hlast.program_eq.trans hfirst.program_eq.symm) h.returns).1
  rw [h.rowCount_eq (Nat.le_refl n), h.rowCount_eq (Nat.zero_le n)] at hends
  refine le_antisymm ?_ (h.constant_mono (Nat.zero_le k) hk)
  rw [← hends]
  exact h.constant_mono hk (Nat.le_refl n)

/-- Every pivot of a return is degenerate. -/
theorem degenerate (h : Return o P V n) {k column : Nat} {leaving : Leaving Rat} (hk : k < n)
    (hmove : (V k).nextMove (.exact 0) o = .pivot column leaving) :
    (V k).constant leaving.row = 0 := by
  refine (constant_le_of_follows h.tolerance_eq (h.faithful k (by omega))
    (h.primal k (by omega)) hmove).2 ?_
  rw [← h.next_eq hk hmove, h.rowCount_eq (Nat.le_of_lt hk)]
  exact (h.constant_eq hk).trans (h.constant_eq (Nat.le_of_lt hk)).symm

/-- The basic solution of a return never moves. -/
theorem basicValue_eq (h : Return o P V n) {k : Nat} (hk : k ≤ n) :
    (V k).basicValue = (V 0).basicValue := by
  induction k with
  | zero => rfl
  | succ k ih =>
      rcases h.follows k hk with ⟨column, leaving, hmove, hnext⟩
      have himproving := improving_of_nextMove hmove
      have hentry := himproving.entry_pos (le_of_eq h.tolerance_eq.symm)
      -- A degenerate pivot changes the basis and not the basic solution.
      have hpivot := (h.faithful k (by omega)).canonical.basicValue_pivot (ε := 0)
        himproving.row_lt (ne_of_gt hentry) (h.degenerate hk hmove)
      rw [hnext]
      exact hpivot.trans (ih (by omega))

section Membership

-- Where a property of stages fails and later holds, it comes about in one step.
theorem exists_step {p : Nat → Prop} {a b : Nat} (hab : a ≤ b) (ha : ¬ p a) (hb : p b) :
    ∃ k < b, ¬ p k ∧ p (k + 1) := by
  induction b, hab using Nat.le_induction with
  | base => exact absurd hb ha
  | succ b _ ih =>
      by_cases hp : p b
      · rcases ih hp with ⟨k, hk, hstep⟩
        exact ⟨k, by omega, hstep⟩
      · exact ⟨b, by omega, hp, hb⟩

-- On a circle the order of the two stages does not matter: what fails later came
-- about before, or comes about after the end, which is the start.
theorem exists_step_of_return {p : Nat → Prop} {a b : Nat} (hreturns : p n ↔ p 0) (han : a ≤ n)
    (hbn : b ≤ n) (ha : p a) (hb : ¬ p b) : ∃ k < n, ¬ p k ∧ p (k + 1) := by
  by_cases hn : p n
  · exact exists_step hbn hb hn
  · rcases exists_step (Nat.zero_le a) (fun h0 => hn (hreturns.mpr h0)) ha with ⟨k, hk, hstep⟩
    exact ⟨k, by omega, hstep⟩

variable {a b j : Nat}

-- A column that is basic at one stage and not at another enters at some stage.
theorem exists_entering (h : Return o P V n) (ha : a ≤ n) (hb : b ≤ n)
    (hin : j ∈ (V a).basicSet) (hout : j ∉ (V b).basicSet) :
    ∃ k < n, (V k).entering (.exact 0) o = some j := by
  have hreturns : j ∈ (V n).basicSet ↔ j ∈ (V 0).basicSet := by rw [h.returns]
  rcases exists_step_of_return (p := fun k => j ∈ (V k).basicSet) hreturns ha hb hin hout with
    ⟨k, hk, hbefore, hafter⟩
  refine ⟨k, hk, ?_⟩
  rcases h.follows k hk with ⟨column, leaving, hmove, _⟩
  rcases (h.mem_basicSet_next hk hmove).mp hafter with rfl | ⟨hin, _⟩
  · exact (nextMove_eq_pivot (.exact 0) o hmove).1
  · exact absurd hin hbefore

-- And it leaves at some stage.
theorem exists_leaving (h : Return o P V n) (ha : a ≤ n) (hb : b ≤ n)
    (hin : j ∈ (V a).basicSet) (hout : j ∉ (V b).basicSet) :
    ∃ k < n, ∃ column leaving, (V k).nextMove (.exact 0) o = .pivot column leaving ∧
      (V k).basicColumn leaving.row = j := by
  have hreturns : j ∉ (V n).basicSet ↔ j ∉ (V 0).basicSet := by rw [h.returns]
  rcases exists_step_of_return (p := fun k => j ∉ (V k).basicSet) hreturns hb ha hout
    (not_not.mpr hin) with ⟨k, hk, hbefore, hafter⟩
  rcases h.follows k hk with ⟨column, leaving, hmove, _⟩
  refine ⟨k, hk, column, leaving, hmove, ?_⟩
  -- It was basic before the pivot and is not after, so it is the one that left.
  by_contra hne
  exact hafter ((h.mem_basicSet_next hk hmove).mpr (Or.inr ⟨not_not.mp hbefore, Ne.symm hne⟩))

end Membership

end Return

end Tableau

/-- Two stages of a run with the same basis are the ends of a return. -/
theorem Program.return_of_stages {o : Options Rat} {P : Program Rat}
    (htolerance : o.tolerance = 0) (haccept : P.rejection? (.exact 0) = none) {p q : Nat}
    (hpq : p < q) (hq : q ≤ (P.trace (.exact 0) o).iterations)
    (hbasis : ((P.trace (.exact 0) o).stage p).basicSet =
      ((P.trace (.exact 0) o).stage q).basicSet) :
    Tableau.Return o P (fun k => (P.trace (.exact 0) o).stage (p + k)) (q - p) := by
  have hstages := (P.trace_primal htolerance haccept).1
  have hmem : ∀ k ≤ q - p, (P.trace (.exact 0) o).stage (p + k) ∈ (P.trace (.exact 0) o).path :=
    fun k hk => Trace.stage_mem _ (by omega)
  refine ⟨htolerance, by omega, fun k hk => ?_, fun k hk => (hstages _ (hmem k hk)).1,
    fun k hk => (hstages _ (hmem k hk)).2, ?_⟩
  · exact Tableau.follows_stage (.exact 0) o _ (Nat.lt_of_lt_of_le (by omega) hq)
  · rw [Nat.add_sub_cancel' (Nat.le_of_lt hpq), Nat.add_zero]
    exact hbasis.symm

/-- A program on which the standard choices cycle: six pivots lead back to the
    origin's basis. -/
def beale : Program Rat where
  name := "beale"
  sense := .maximize
  objective := #[10, -57, -9, -24]
  matrix := #[#[1/2, -11/2, -5/2, 9], #[1/2, -3/2, -1/2, 1], #[1, 0, 0, 0]]
  bounds := #[0, 0, 1]

end SimplexMethod
