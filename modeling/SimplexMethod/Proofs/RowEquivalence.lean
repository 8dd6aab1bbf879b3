import SimplexMethod.Proofs.Entries

/-!
# Row equivalence

A pivot changes how a system of equations is written and not what it says.

Read as an equation, a constraint row says that the sum of its entries times the
values of the columns is its right hand side. The `residual` of a row is by how
much that fails, and a pivot does to residuals what it does to entries: each
loses a multiple of that of the pivot row. So the solutions stay the same, in
both directions, because the pivot entry can be divided by. On solutions the
residual of the objective row does not change at all, and at the origin it is
the signed objective.

The slack columns keep the record of the row operations. At the origin they are
the unit matrix, so what stands there later are the multiples of the first rows
that were added up.

`Equivalent` collects the three facts. It holds at the origin and is kept by
every pivot at an entry that is not zero, whichever rule chose it.

## Main definitions

* `Tableau.residual`: By how much values fail a row.
* `Tableau.Solves`: Values that satisfy every constraint row.
* `Tableau.baseEntry`: What a row holds besides multiples of the first rows.
* `Tableau.Equivalent`: The tableau says what its program says.

## Theorems

* `Tableau.residual_pivot`: How a pivot changes residuals.
* `Tableau.solves_pivot_iff`: A pivot keeps the solutions.
* `Tableau.Equivalent.ofProgram`, `Tableau.Equivalent.pivot`: Row equivalence
  holds at the origin and is kept.
-/

namespace SimplexMethod

namespace Tableau

/-- By how much the values of the columns fail row `i`. -/
def residual (T : Tableau Rat) (z : Nat → Rat) (i : Nat) : Rat :=
  ∑ j ∈ Finset.range T.columnCount, T.entry i j * z j - T.constant i

/-- Values of the columns that satisfy every constraint row. -/
def Solves (T : Tableau Rat) (z : Nat → Rat) : Prop := ∀ i < T.rowCount, T.residual z i = 0

section Pivot

variable {ε : Rat} {T : Tableau Rat} {row column : Nat}

theorem residual_pivot (h : T.Shaped) (hpivot : T.entry row column ≠ 0) (z : Nat → Rat)
    (i : Nat) :
    (T.pivot (.exact ε) row column).residual z i =
      T.residual z i - T.factor row column i * T.residual z row := by
  have hsum : ∑ j ∈ Finset.range T.columnCount, (T.pivot (.exact ε) row column).entry i j * z j =
      ∑ j ∈ Finset.range T.columnCount, T.entry i j * z j -
        T.factor row column i * ∑ j ∈ Finset.range T.columnCount, T.entry row j * z j := by
    rw [Finset.mul_sum, ← Finset.sum_sub_distrib]
    refine Finset.sum_congr rfl fun j _ => ?_
    rw [entry_pivot h hpivot]
    ring
  rw [residual, columnCount_pivot, hsum, constant_pivot h hpivot, residual, residual]
  ring

-- The residual of the pivot row is divided by the pivot entry.
theorem residual_pivot_self (h : T.Shaped) (hpivot : T.entry row column ≠ 0) (z : Nat → Rat) :
    (T.pivot (.exact ε) row column).residual z row = T.residual z row / T.entry row column := by
  rw [residual_pivot h hpivot, factor_self]
  ring

theorem solves_pivot_iff (h : T.Shaped) (hrow : row < T.rowCount)
    (hpivot : T.entry row column ≠ 0) (z : Nat → Rat) :
    (T.pivot (.exact ε) row column).Solves z ↔ T.Solves z := by
  constructor
  · intro hz i hi
    -- The pivot row first: it was only divided, and the others follow from it.
    have hself : T.residual z row = 0 := by
      have hzero := hz row hrow
      rw [residual_pivot_self h hpivot] at hzero
      exact (div_eq_zero_iff.mp hzero).resolve_right hpivot
    have hzero := hz i hi
    rw [residual_pivot h hpivot, hself, mul_zero, sub_zero] at hzero
    exact hzero
  · intro hz i hi
    rw [residual_pivot h hpivot, hz i hi, hz row hrow, mul_zero, sub_zero]

end Pivot

/-- What a row holds besides multiples of the first constraint rows: nothing, or
    the first objective row. -/
def baseEntry (P : Program Rat) (i j : Nat) : Rat :=
  if i = P.rowCount then (ofProgram (.exact 0) P).entry i j else 0

theorem baseEntry_constraint {P : Program Rat} {i : Nat} (hi : i < P.rowCount) (j : Nat) :
    baseEntry P i j = 0 := if_neg (Nat.ne_of_lt hi)

/-- The tableau says what its program says. -/
structure Equivalent (T : Tableau Rat) : Prop where
  /-- The constraint rows have the solutions of the program. -/
  solves_iff : ∀ z, T.Solves z ↔ T.program.Balances z
  /-- On solutions, the objective row measures the signed objective. -/
  objective_eq : ∀ z, T.Solves z → T.residual z T.rowCount =
    T.program.sense.sign * ∑ j ∈ Finset.range T.program.variableCount, T.program.cost j * z j
  /-- The slack columns are the multiples of the first rows that a row consists
      of. -/
  combination : ∀ i ≤ T.rowCount, ∀ j, T.entry i j = baseEntry T.program i j +
    ∑ k ∈ Finset.range T.rowCount,
      T.entry i (T.program.variableCount + k) * (ofProgram (.exact 0) T.program).entry k j

namespace Equivalent

-- At the origin, the residual of a constraint row is what does not balance.
theorem residual_ofProgram_constraint {ε : Rat} {P : Program Rat} (z : Nat → Rat) {i : Nat}
    (hi : i < P.rowCount) :
    (Tableau.ofProgram (.exact ε) P).residual z i =
      ∑ j ∈ Finset.range P.variableCount, P.coefficient i j * z j + z (P.variableCount + i) -
        P.bound i := by
  have hvariables : ∑ j ∈ Finset.range P.variableCount,
      (Tableau.ofProgram (.exact ε) P).entry i j * z j =
        ∑ j ∈ Finset.range P.variableCount, P.coefficient i j * z j := by
    refine Finset.sum_congr rfl fun j hj => ?_
    rw [entry_ofProgram_variable hi (Finset.mem_range.mp hj)]
  have hslacks : ∑ k ∈ Finset.range P.rowCount,
      (Tableau.ofProgram (.exact ε) P).entry i (P.variableCount + k) * z (P.variableCount + k) =
        z (P.variableCount + i) := by
    rw [Finset.sum_eq_single_of_mem i (Finset.mem_range.mpr hi), entry_ofProgram_slack hi hi,
      if_pos rfl, one_mul]
    intro k hk hne
    rw [entry_ofProgram_slack hi (Finset.mem_range.mp hk), if_neg (Ne.symm hne), zero_mul]
  -- The columns are the variables followed by the slacks.
  show ∑ j ∈ Finset.range (P.variableCount + P.rowCount), _ - _ = _
  rw [Finset.sum_range_add, hvariables, hslacks, constant_ofProgram hi]

theorem solves_ofProgram_iff {ε : Rat} {P : Program Rat} (z : Nat → Rat) :
    (Tableau.ofProgram (.exact ε) P).Solves z ↔ P.Balances z := by
  constructor
  · intro hz i hi
    have hzero := hz i hi
    rw [residual_ofProgram_constraint z hi] at hzero
    exact sub_eq_zero.mp hzero
  · intro hz i (hi : i < P.rowCount)
    rw [residual_ofProgram_constraint z hi]
    exact sub_eq_zero.mpr (hz i hi)

-- At the origin, the residual of the objective row is the signed objective.
theorem residual_ofProgram_objective {ε : Rat} {P : Program Rat} (z : Nat → Rat) :
    (Tableau.ofProgram (.exact ε) P).residual z P.rowCount =
      P.sense.sign * ∑ j ∈ Finset.range P.variableCount, P.cost j * z j := by
  have hvariables : ∑ j ∈ Finset.range P.variableCount,
      (Tableau.ofProgram (.exact ε) P).entry P.rowCount j * z j =
        P.sense.sign * ∑ j ∈ Finset.range P.variableCount, P.cost j * z j := by
    rw [Finset.mul_sum]
    refine Finset.sum_congr rfl fun j hj => ?_
    have hj := Finset.mem_range.mp hj
    rw [entry_ofProgram_objective (by rw [Program.columnCount]; omega), if_pos hj, mul_assoc]
  have hslacks : ∑ k ∈ Finset.range P.rowCount,
      (Tableau.ofProgram (.exact ε) P).entry P.rowCount (P.variableCount + k) *
        z (P.variableCount + k) = 0 := by
    refine Finset.sum_eq_zero fun k hk => ?_
    have hk := Finset.mem_range.mp hk
    rw [entry_ofProgram_objective (by rw [Program.columnCount]; omega), if_neg (by omega),
      zero_mul]
  show ∑ j ∈ Finset.range (P.variableCount + P.rowCount), _ - _ = _
  rw [Finset.sum_range_add, hvariables, hslacks, constant_ofProgram_objective, add_zero, sub_zero]

-- At the origin the slack block is the unit matrix, with zeros below it.
theorem entry_ofProgram_combination {ε : Rat} {P : Program Rat} {i : Nat} (hi : i ≤ P.rowCount)
    (j : Nat) :
    (Tableau.ofProgram (.exact ε) P).entry i j = baseEntry P i j +
      ∑ k ∈ Finset.range P.rowCount,
        (Tableau.ofProgram (.exact ε) P).entry i (P.variableCount + k) *
          (Tableau.ofProgram (.exact 0) P).entry k j := by
  by_cases hobjective : i = P.rowCount
  · -- The objective row has no slacks and is what it holds besides.
    rw [Finset.sum_eq_zero, add_zero, baseEntry, if_pos hobjective]
    · rfl
    · intro k hk
      have hk := Finset.mem_range.mp hk
      rw [hobjective, entry_ofProgram_objective (by rw [Program.columnCount]; omega),
        if_neg (by omega), zero_mul]
  · -- A constraint row has its own slack and is one times itself.
    have hi : i < P.rowCount := Nat.lt_of_le_of_ne hi hobjective
    rw [Finset.sum_eq_single_of_mem i (Finset.mem_range.mpr hi), entry_ofProgram_slack hi hi,
      if_pos rfl, one_mul, baseEntry_constraint hi, zero_add]
    · rfl
    · intro k hk hne
      rw [entry_ofProgram_slack hi (Finset.mem_range.mp hk), if_neg (Ne.symm hne), zero_mul]

theorem ofProgram (ε : Rat) (P : Program Rat) : (Tableau.ofProgram (.exact ε) P).Equivalent where
  solves_iff := solves_ofProgram_iff
  objective_eq := fun z _ => residual_ofProgram_objective z
  combination := fun _ hi j => entry_ofProgram_combination hi j

/-- Every pivot at an entry that is not zero keeps row equivalence. -/
theorem pivot {ε : Rat} {T : Tableau Rat} {row column : Nat} (h : T.Equivalent) (hT : T.Shaped)
    (hrow : row < T.rowCount) (hpivot : T.entry row column ≠ 0) :
    (T.pivot (.exact ε) row column).Equivalent where
  solves_iff := fun z => (solves_pivot_iff hT hrow hpivot z).trans (h.solves_iff z)
  objective_eq := by
    intro z hz
    have hz : T.Solves z := (solves_pivot_iff hT hrow hpivot z).mp hz
    rw [rowCount_pivot, residual_pivot hT hpivot, hz row hrow, mul_zero, sub_zero]
    exact h.objective_eq z hz
  combination := by
    intro i hi j
    have hself := h.combination row (Nat.le_of_lt hrow) j
    rw [baseEntry_constraint hrow, zero_add] at hself
    -- What row `i` loses is a multiple of the pivot row, which is such a sum itself.
    have hsum : ∑ k ∈ Finset.range T.rowCount,
        (T.pivot (.exact ε) row column).entry i (T.program.variableCount + k) *
          (Tableau.ofProgram (.exact 0) T.program).entry k j =
        ∑ k ∈ Finset.range T.rowCount, T.entry i (T.program.variableCount + k) *
          (Tableau.ofProgram (.exact 0) T.program).entry k j -
        T.factor row column i * T.entry row j := by
      rw [hself, Finset.mul_sum, ← Finset.sum_sub_distrib]
      refine Finset.sum_congr rfl fun k _ => ?_
      rw [entry_pivot hT hpivot]
      ring
    rw [rowCount_pivot, program_pivot, hsum, entry_pivot hT hpivot, h.combination i hi j]
    ring

end Equivalent

end Tableau

end SimplexMethod
