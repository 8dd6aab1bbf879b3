import SimplexMethod.Proofs.RowEquivalence

/-!
# Canonical bases

The basis of a tableau, and what pivots keep of it.

A tableau is *canonical* if the basic column of each row is a unit vector with
its one in that row, the objective row included among the zeros. Two basic
columns are then different, since one column cannot be two unit vectors, so the
basic columns are a set of as many columns as there are rows. A pivot at an
entry that is not zero keeps all this, and exchanges one column of the set.

## Main definitions

* `Tableau.basicSet`: The basic columns as a set.
* `Tableau.Canonical`: Basic columns are unit vectors.

## Theorems

* `Tableau.Canonical.ofProgram`, `Tableau.Canonical.pivot`,
  `Tableau.Canonical.advance`: Canonical form holds at the origin and is kept.
* `Tableau.Canonical.basicColumn_injective`: Basic columns are different.
* `Tableau.Canonical.card_basicSet`: There are as many of them as rows.
* `Tableau.Canonical.mem_basicSet_pivot`: A pivot exchanges one of them.
-/

namespace SimplexMethod

namespace Tableau

/-- The basic columns as a set. -/
def basicSet {α : Type} (T : Tableau α) : Finset Nat :=
  (Finset.range T.rowCount).image T.basicColumn

theorem mem_basicSet {α : Type} {T : Tableau α} {j : Nat} :
    j ∈ T.basicSet ↔ ∃ i < T.rowCount, T.basicColumn i = j := by
  simp only [basicSet, Finset.mem_image, Finset.mem_range]

/-- The basic column of each row is a unit vector with its one in that row. -/
structure Canonical (T : Tableau Rat) : Prop extends T.Shaped where
  /-- One in its own row, zero in all others and in the objective row. -/
  unit : ∀ i < T.rowCount, ∀ k ≤ T.rowCount,
    T.entry k (T.basicColumn i) = if k = i then 1 else 0

namespace Canonical

variable {T : Tableau Rat}

theorem ofProgram (ε : Rat) (P : Program Rat) : (Tableau.ofProgram (.exact ε) P).Canonical where
  toShaped := .ofProgram (.exact ε) P
  unit := by
    intro i (hi : i < P.rowCount) k (hk : k ≤ P.rowCount)
    rw [basicColumn_ofProgram hi]
    by_cases hobjective : k = P.rowCount
    · rw [hobjective, entry_ofProgram_objective (by rw [Program.columnCount]; omega),
        if_neg (by omega), if_neg (by omega)]
    · exact entry_ofProgram_slack (Nat.lt_of_le_of_ne hk hobjective) hi

/-- A pivot at an entry that is not zero keeps basic columns unit vectors: the
    entering one becomes one, and the others have a zero in the pivot row. -/
theorem pivot {ε : Rat} {row column : Nat} (h : T.Canonical) (hrow : row < T.rowCount)
    (hcolumn : column < T.columnCount) (hpivot : T.entry row column ≠ 0) :
    (T.pivot (.exact ε) row column).Canonical where
  toShaped := h.toShaped.pivot (.exact ε) hrow hcolumn
  unit := by
    intro i (hi : i < T.rowCount) k (hk : k ≤ T.rowCount)
    rw [basicColumn_pivot h.toShaped hrow, entry_pivot h.toShaped hpivot]
    by_cases hself : i = row
    · -- The entering column is cleared in all rows but the pivot row.
      rw [if_pos hself, hself]
      by_cases hk : k = row
      · rw [if_pos hk, hk, factor_self, sub_mul, one_mul, div_mul_cancel₀ _ hpivot, sub_sub_cancel]
      · rw [if_neg hk, factor_other hk, div_mul_cancel₀ _ hpivot, sub_self]
    · -- Any other basic column is zero in the pivot row and loses nothing.
      rw [if_neg hself, h.unit i hi row (Nat.le_of_lt hrow), if_neg (Ne.symm hself), mul_zero,
        sub_zero]
      exact h.unit i hi k hk

-- Reading point and value does not change the cells.
theorem advance {ε : Rat} {row column : Nat} (h : T.Canonical) (hrow : row < T.rowCount)
    (hcolumn : column < T.columnCount) (hpivot : T.entry row column ≠ 0) :
    (T.advance (.exact ε) row column).Canonical where
  toShaped := h.toShaped.advance (.exact ε) hrow hcolumn
  unit := (h.pivot hrow hcolumn hpivot).unit

theorem withStatus (h : T.Canonical) (status : Status) : (T.withStatus status).Canonical where
  toShaped := h.toShaped.withStatus status
  unit := h.unit

section Basis

/-- One column cannot be two unit vectors. -/
theorem basicColumn_injective (h : T.Canonical) {i k : Nat} (hi : i < T.rowCount)
    (hk : k < T.rowCount) (heq : T.basicColumn i = T.basicColumn k) : i = k := by
  by_contra hne
  have hone := h.unit i hi i (Nat.le_of_lt hi)
  have hzero := h.unit k hk i (Nat.le_of_lt hi)
  rw [if_pos rfl] at hone
  rw [if_neg hne, ← heq, hone] at hzero
  exact one_ne_zero hzero

theorem card_basicSet (h : T.Canonical) : T.basicSet.card = T.rowCount := by
  rw [basicSet, Finset.card_image_of_injOn, Finset.card_range]
  intro i hi k hk heq
  exact h.basicColumn_injective (Finset.mem_range.mp hi) (Finset.mem_range.mp hk) heq

theorem basicSet_subset (h : T.Canonical) : T.basicSet ⊆ Finset.range T.columnCount := by
  intro j hj
  rcases mem_basicSet.mp hj with ⟨i, hi, rfl⟩
  exact Finset.mem_range.mpr (basicColumn_lt h.toShaped hi)

/-- The reduced cost of a basic column is zero. -/
theorem objective_of_mem (h : T.Canonical) {j : Nat} (hj : j ∈ T.basicSet) :
    T.entry T.rowCount j = 0 := by
  rcases mem_basicSet.mp hj with ⟨i, hi, rfl⟩
  rw [h.unit i hi T.rowCount (Nat.le_refl _), if_neg (Nat.ne_of_gt hi)]

/-- After a pivot the basic columns are the entering one and the old ones without
    the leaving one. -/
theorem mem_basicSet_pivot {ε : Rat} {row column : Nat} (h : T.Canonical)
    (hrow : row < T.rowCount) {j : Nat} :
    j ∈ (T.pivot (.exact ε) row column).basicSet ↔
      j = column ∨ j ∈ T.basicSet ∧ j ≠ T.basicColumn row := by
  rw [mem_basicSet, mem_basicSet]
  constructor
  · rintro ⟨i, hi, rfl⟩
    rw [basicColumn_pivot h.toShaped hrow]
    by_cases hself : i = row
    · exact Or.inl (if_pos hself)
    · rw [if_neg hself]
      exact Or.inr ⟨⟨i, hi, rfl⟩, fun heq => hself (h.basicColumn_injective hi hrow heq)⟩
  · rintro (rfl | ⟨⟨i, hi, rfl⟩, hne⟩)
    · exact ⟨row, hrow, by rw [basicColumn_pivot h.toShaped hrow, if_pos rfl]⟩
    · refine ⟨i, hi, ?_⟩
      rw [basicColumn_pivot h.toShaped hrow, if_neg fun heq => hne (by rw [heq])]

end Basis

end Canonical

end Tableau

end SimplexMethod
