import Mathlib.Data.Prod.Lex
import SimplexMethod.Proofs.Lexicographic

/-!
# The minimum ratio test

Which row leaves, said without the search for it.

The search goes through the rows once and keeps the better of two. What it compares is
a ratio, then whether two ratios are equal, then one of three orders among rows, and
nothing in it looks back at rows that have lost. That the last winner has beaten all of
them needs the comparison to be one order. It is: each row rule ranks rows by something,
by nothing at all, by the basic column or by the scaled slack block, and a row takes the
place of another exactly when its ratio and its rank, as a pair, come first. Of rows with
equal pairs the one that was met first stays.

So the three rules are one argument with three ranks, and the ranks are what the
statement speaks of. The comparison of slack blocks is an order only without tolerance.
A positive tolerance makes it skip small differences, and skipping is not transitive.

## Main definitions

* `Tableau.Attains`: A row that bounds the column at a given ratio.
* `Foremost`: The first among those of least rank.

## Theorems

* `Tableau.beats_iff_pair`: What a row has to come first in.
* `Tableau.leaving_foremost`: The leaving row does, among all that bound the column.
* `Tableau.leaving_eq_none_iff`: When there is none.
* `leaving_minimum_ratio`: The ratio test, rule by rule.
-/

namespace SimplexMethod

/-- Among the rows with a property, `row` has the least rank and is the first that does. -/
def Foremost {β : Type} [LE β] (rank : Nat → β) (property : Nat → Prop) (row : Nat) : Prop :=
  ∀ i, property i → rank row ≤ rank i ∧ (rank i = rank row → row ≤ i)

namespace Tableau

variable {o : Options Rat} {T : Tableau Rat} {column : Nat} {l : Leaving Rat}

/-- The row bounds the column, and its ratio is the given one. -/
structure Attains (T : Tableau Rat) (o : Options Rat) (column : Nat) (ratio : Rat) (i : Nat) :
    Prop where
  row_lt : i < T.rowCount
  entry_gt : o.tolerance < T.entry i column
  ratio_eq : T.constant i / T.entry i column = ratio

theorem leaving_eq_none_iff :
    T.leaving (.exact 0) o column = none ↔ ∀ i < T.rowCount, T.entry i column ≤ o.tolerance := by
  simp only [leaving_eq_none_iff_eligible, eligible_exact, not_lt]

section Rank

variable {β : Type} [LinearOrder β] {rank : Nat → β}

theorem beats_iff_pair
    (hrank : ∀ i k, T.prefers (.exact 0) o i k column = true ↔ rank i < rank k) {i b : Nat} :
    T.Beats (.exact 0) o column i b ↔
      toLex (T.constant i / T.entry i column, rank i) <
        toLex (T.constant b / T.entry b column, rank b) := by
  rw [beats_exact, Prod.Lex.toLex_lt_toLex, hrank]

/-- If the row rule prefers rows of lower rank, the leaving row comes first in ratio and
    rank, and no row above it has the same ratio and rank. -/
theorem leaving_foremost
    (hrank : ∀ i k, T.prefers (.exact 0) o i k column = true ↔ rank i < rank k)
    (h : T.leaving (.exact 0) o column = some l) :
    Foremost rank (T.Attains o column l.ratio) l.row := by
  let pair : Nat → Lex (Rat × β) := fun i => toLex (T.constant i / T.entry i column, rank i)
  -- The relation of a row to the best so far: that one has the lower pair, or an equal
  -- one and the place above.
  have hleads : ∀ i < T.rowCount, T.Eligible (.exact 0) o column i →
      pair l.row < pair i ∨ pair l.row = pair i ∧ l.row ≤ i := by
    refine leads_leaving (R := fun i b => pair b < pair i ∨ pair b = pair i ∧ b ≤ i)
      (fun i _ => Or.inr ⟨rfl, Nat.le_refl i⟩) ?_ ?_ h
    · intro i b j _ _ _ _ _ hbeats hbest
      have hlt : pair j < pair b := (beats_iff_pair hrank).mp hbeats
      rcases hbest with hless | ⟨heq, _⟩
      · exact Or.inl (lt_trans hlt hless)
      · exact Or.inl (heq ▸ hlt)
    · intro b j _ _ hplace hfails
      have hle : pair b ≤ pair j := not_lt.mp fun hlt => hfails ((beats_iff_pair hrank).mpr hlt)
      rcases lt_or_eq_of_le hle with hlt | heq
      · exact Or.inl hlt
      · exact Or.inr ⟨heq, Nat.le_of_lt hplace⟩
  intro i ⟨hi, hentry, hratio⟩
  have hpair := hleads i hi (eligible_exact.mpr hentry)
  simp only [pair, ← leaving_ratio_eq h, hratio, Prod.Lex.toLex_lt_toLex, lt_irrefl, false_or,
    true_and, EmbeddingLike.apply_eq_iff_eq, Prod.mk.injEq] at hpair
  rcases hpair with hlt | ⟨heq, hplace⟩
  · exact ⟨le_of_lt hlt, fun heq => absurd heq (ne_of_gt hlt)⟩
  · exact ⟨le_of_eq heq, fun _ => hplace⟩

end Rank

end Tableau

open Tableau in
/-- The minimum ratio test in exact arithmetic, for any tableau, column and tolerance. No
    row leaves exactly if no entry of the column exceeds the tolerance. A row that leaves
    has an entry that does, its ratio is its right hand side divided by that entry, and no
    row whose entry exceeds the tolerance has a lower one. Of the rows that attain this
    ratio it is the topmost, or the topmost of those with the lowest basic column, or,
    without tolerance, the topmost of those whose slack block, divided by the entry,
    comes first in the order of a dictionary, as the row rule says. -/
theorem leaving_minimum_ratio (o : Options Rat) (T : Tableau Rat) (column : Nat) :
    (T.leaving (.exact 0) o column = none ↔
      ∀ i < T.rowCount, T.entry i column ≤ o.tolerance) ∧
    ∀ l, T.leaving (.exact 0) o column = some l →
      T.Attains o column l.ratio l.row ∧
      (∀ i < T.rowCount, o.tolerance < T.entry i column →
        l.ratio ≤ T.constant i / T.entry i column) ∧
      (o.rowRule = .lowestRow → ∀ i, T.Attains o column l.ratio i → l.row ≤ i) ∧
      (o.rowRule = .lowestBasicColumn →
        Foremost T.basicColumn (T.Attains o column l.ratio) l.row) ∧
      (o.rowRule = .lexicographic → o.tolerance = 0 →
        Foremost (fun i => (T.entry i column)⁻¹ • T.slackBlock i)
          (T.Attains o column l.ratio) l.row) := by
  refine ⟨leaving_eq_none_iff, fun l h => ?_⟩
  rcases leaving_eq_some h with ⟨hrow, hentry⟩
  refine ⟨⟨hrow, hentry, (leaving_ratio_eq h).symm⟩, ?_, ?_, ?_, ?_⟩
  · intro i hi hi'
    rw [leaving_ratio_eq h]
    exact leaving_ratio_le h hi hi'
  · intro hrule i hi
    -- The rule that prefers no row ranks all of them alike.
    have hrank : ∀ i k, T.prefers (.exact 0) o i k column = true ↔ (0 : Nat) < 0 := by
      simp [prefers, hrule]
    have hforemost : Foremost (fun _ => (0 : Nat)) (T.Attains o column l.ratio) l.row :=
      leaving_foremost hrank h
    exact (hforemost i hi).2 rfl
  · intro hrule
    refine leaving_foremost (fun i k => ?_) h
    simp [prefers, hrule]
  · intro hrule htolerance
    refine leaving_foremost (fun i k => ?_) h
    rw [prefers, hrule, htolerance]
    exact lexSmaller_iff

/-- One variable under three limits, the last of which is as low as the first. -/
def ledge : Program Rat where
  name := "ledge"
  sense := .maximize
  objective := #[1]
  matrix := #[#[2], #[1], #[1]]
  bounds := #[2, 3, 1]

-- Rows 0 and 2 tie. The slack block of the later one begins with a zero, so it leaves,
-- while the other rules stay with the row above.
theorem leaving_minimum_ratio_ledge :
    let T := Tableau.ofProgram (.exact 0) ledge
    let o : Options Rat := { Options.sharp with rowRule := .lexicographic }
    T.leaving (.exact 0) Options.sharp 0 = some ⟨0, 1⟩ ∧ T.leaving (.exact 0) o 0 = some ⟨2, 1⟩ ∧
      T.Attains o 0 1 0 ∧ T.Attains o 0 1 2 ∧
      (T.entry 2 0)⁻¹ • T.slackBlock 2 ≤ (T.entry 0 0)⁻¹ • T.slackBlock 0 ∧
      1 ≤ T.constant 1 / T.entry 1 0 := by
  intro T o
  have hleaving : T.leaving (.exact 0) o 0 = some ⟨2, 1⟩ := by decide +kernel
  have hfirst : T.Attains o 0 1 0 := ⟨by decide +kernel, by decide +kernel, by decide +kernel⟩
  rcases (leaving_minimum_ratio o T 0).2 _ hleaving with ⟨hattains, hleast, _, _, hlex⟩
  exact ⟨by decide +kernel, hleaving, hfirst, hattains, (hlex rfl rfl 0 hfirst).1,
    hleast 1 (by decide +kernel) (by decide +kernel)⟩

end SimplexMethod
