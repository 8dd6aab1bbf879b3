import SimplexMethod.Proofs.CanonicalBasis

/-!
# Solutions of a canonical tableau

The solutions that can be read off a basis, and what they say about two tableaux
of one program.

Give the columns outside the basis any values, and each row of a canonical
tableau names the value that its basic column must have. Two families of
solutions are needed. The *basic* one puts zero outside the basis, and is the
vertex that a run reports. A *ray* moves one column by `θ` and lets the basic
columns follow.

Evaluating one tableau at the rays of another compares the two. If both say what
the same program says, their objective rows differ by a combination of
constraint rows, with the entries over the other's basis as multiples; if they
have the same basic columns, the objective rows agree.

## Main definitions

* `Tableau.spread`: Values given to the basic columns, zero elsewhere.
* `Tableau.basicValue`: The basic solution.
* `Tableau.ray`: The solutions that move one column.

## Theorems

* `Tableau.Canonical.solves_basicValue`, `Tableau.Canonical.solves_ray`: Both
  families solve the constraint rows.
* `Tableau.Canonical.getD_vertex`: The vertex that is read is the basic solution.
* `Tableau.Canonical.vertex_eq`: Equal basic solutions are equal vertices.
* `Tableau.Canonical.solution_eq`: The reported solution is part of it.
* `Tableau.Canonical.basicValue_pivot`: A pivot on a zero right hand side does
  not move it.
* `Tableau.Canonical.objective_expansion`: Two objective rows of one program.
* `Tableau.Canonical.objective_eq_of_basicSet_eq`: They agree on equal bases.
-/

namespace SimplexMethod

namespace Tableau

/-- Values given to the basic columns of the rows, zero in all other columns. -/
def spread (T : Tableau Rat) (g : Nat → Rat) (j : Nat) : Rat :=
  ∑ i ∈ Finset.range T.rowCount, if T.basicColumn i = j then g i else 0

/-- The basic solution: each row's right hand side in its basic column. -/
def basicValue (T : Tableau Rat) : Nat → Rat := T.spread T.constant

/-- The solution that gives one column the value `θ`, if that is not basic, and
    lets the basic columns follow. -/
def ray (T : Tableau Rat) (column : Nat) (θ : Rat) (j : Nat) : Rat :=
  (if j = column then θ else 0) + T.spread (fun i => T.constant i - θ * T.entry i column) j

theorem spread_nonneg {T : Tableau Rat} {g : Nat → Rat} (hg : ∀ i < T.rowCount, 0 ≤ g i)
    (j : Nat) : 0 ≤ T.spread g j := by
  refine Finset.sum_nonneg fun i hi => ?_
  split
  · exact hg i (Finset.mem_range.mp hi)
  · exact le_refl 0

theorem spread_of_notMem {T : Tableau Rat} (g : Nat → Rat) {j : Nat} (hj : j ∉ T.basicSet) :
    T.spread g j = 0 := by
  refine Finset.sum_eq_zero fun i hi => if_neg fun hbasic => ?_
  exact hj (mem_basicSet.mpr ⟨i, Finset.mem_range.mp hi, hbasic⟩)

-- A scalar product with spread values is a sum over the rows.
theorem sum_mul_spread {T : Tableau Rat} (h : T.Shaped) (f g : Nat → Rat) :
    ∑ j ∈ Finset.range T.columnCount, f j * T.spread g j =
      ∑ i ∈ Finset.range T.rowCount, f (T.basicColumn i) * g i := by
  simp only [spread, Finset.mul_sum]
  rw [Finset.sum_comm]
  refine Finset.sum_congr rfl fun i hi => ?_
  have hlt := basicColumn_lt h (Finset.mem_range.mp hi)
  rw [Finset.sum_eq_single_of_mem (T.basicColumn i) (Finset.mem_range.mpr hlt), if_pos rfl]
  intro j _ hne
  rw [if_neg (Ne.symm hne), mul_zero]

-- A scalar product with a ray.
theorem sum_mul_ray {T : Tableau Rat} (h : T.Shaped) {column : Nat}
    (hcolumn : column < T.columnCount) (θ : Rat) (f : Nat → Rat) :
    ∑ j ∈ Finset.range T.columnCount, f j * T.ray column θ j =
      f column * θ + ∑ i ∈ Finset.range T.rowCount,
        f (T.basicColumn i) * (T.constant i - θ * T.entry i column) := by
  simp only [ray, mul_add, Finset.sum_add_distrib]
  rw [sum_mul_spread h, Finset.sum_eq_single_of_mem column (Finset.mem_range.mpr hcolumn),
    if_pos rfl]
  intro j _ hne
  rw [if_neg hne, mul_zero]

namespace Canonical

variable {T : Tableau Rat}

theorem spread_basicColumn (h : T.Canonical) (g : Nat → Rat) {i : Nat} (hi : i < T.rowCount) :
    T.spread g (T.basicColumn i) = g i := by
  rw [spread, Finset.sum_eq_single_of_mem i (Finset.mem_range.mpr hi), if_pos rfl]
  intro k hk hne
  exact if_neg fun heq => hne (h.basicColumn_injective (Finset.mem_range.mp hk) hi heq)

section Solutions

-- What a constraint row of a canonical tableau makes of spread values.
theorem sum_constraint_spread (h : T.Canonical) (g : Nat → Rat) {k : Nat} (hk : k < T.rowCount) :
    ∑ i ∈ Finset.range T.rowCount, T.entry k (T.basicColumn i) * g i = g k := by
  rw [Finset.sum_eq_single_of_mem k (Finset.mem_range.mpr hk),
    h.unit k hk k (Nat.le_of_lt hk), if_pos rfl, one_mul]
  intro i hi hne
  rw [h.unit i (Finset.mem_range.mp hi) k (Nat.le_of_lt hk), if_neg (Ne.symm hne), zero_mul]

-- The objective row of a canonical tableau does not see spread values.
theorem sum_objective_spread (h : T.Canonical) (g : Nat → Rat) :
    ∑ i ∈ Finset.range T.rowCount, T.entry T.rowCount (T.basicColumn i) * g i = 0 := by
  refine Finset.sum_eq_zero fun i hi => ?_
  rw [h.objective_of_mem (mem_basicSet.mpr ⟨i, Finset.mem_range.mp hi, rfl⟩), zero_mul]

theorem solves_basicValue (h : T.Canonical) : T.Solves T.basicValue := by
  intro k hk
  rw [residual, basicValue, sum_mul_spread h.toShaped, h.sum_constraint_spread _ hk, sub_self]

theorem residual_basicValue (h : T.Canonical) :
    T.residual T.basicValue T.rowCount = -T.constant T.rowCount := by
  rw [residual, basicValue, sum_mul_spread h.toShaped, h.sum_objective_spread, zero_sub]

theorem solves_ray (h : T.Canonical) {column : Nat} (hcolumn : column < T.columnCount) (θ : Rat) :
    T.Solves (T.ray column θ) := by
  intro k hk
  -- What the moved column adds to a row, the basic column of that row takes away.
  rw [residual, sum_mul_ray h.toShaped hcolumn, h.sum_constraint_spread _ hk]
  ring

theorem residual_ray (h : T.Canonical) {column : Nat} (hcolumn : column < T.columnCount)
    (θ : Rat) :
    T.residual (T.ray column θ) T.rowCount =
      T.entry T.rowCount column * θ - T.constant T.rowCount := by
  rw [residual, sum_mul_ray h.toShaped hcolumn, h.sum_objective_spread, add_zero]

/-- A pivot in a row whose right hand side is zero exchanges two columns that are
    both zero, and does not move the basic solution. -/
theorem basicValue_pivot {ε : Rat} {row column : Nat} (h : T.Canonical) (hrow : row < T.rowCount)
    (hpivot : T.entry row column ≠ 0) (hzero : T.constant row = 0) :
    (T.pivot (.exact ε) row column).basicValue = T.basicValue := by
  funext j
  rw [basicValue, basicValue, spread, spread, rowCount_pivot]
  refine Finset.sum_congr rfl fun i _ => ?_
  rw [constant_pivot h.toShaped hpivot, hzero, mul_zero, sub_zero,
    basicColumn_pivot h.toShaped hrow]
  by_cases hself : i = row
  · -- The pivot row gives zero to whichever column is basic in it.
    rw [if_pos hself, hself, hzero, ite_self, ite_self]
  · rw [if_neg hself]

end Solutions

section Reading

-- The first rows of the vertex, as far as they have been written.
theorem getD_foldl_vertex (h : T.Canonical) (j : Nat) : ∀ n ≤ T.rowCount,
    ((List.range n).foldl (fun x i => x.setIfInBounds (T.basicColumn i) (T.constant i))
      (Array.replicate T.columnCount 0)).getD j 0 =
        ∑ i ∈ Finset.range n, if T.basicColumn i = j then T.constant i else 0 := by
  -- Values are written and none is added, so every basic column can be written.
  have hsize : ∀ rows : List Nat,
      (rows.foldl (fun x i => x.setIfInBounds (T.basicColumn i) (T.constant i))
        (Array.replicate T.columnCount (0 : Rat))).size = T.columnCount := by
    intro rows
    induction rows using List.reverseRecOn with
    | nil => exact Array.size_replicate
    | append_singleton rows i ih =>
        rw [List.foldl_append, List.foldl_cons, List.foldl_nil, Array.size_setIfInBounds, ih]
  intro n
  induction n with
  | zero =>
      intro _
      rw [List.range_zero, List.foldl_nil, Finset.range_zero, Finset.sum_empty,
        Array.getD_eq_getD_getElem?, Array.getElem?_replicate]
      split <;> rfl
  | succ n ih =>
      intro hn
      have hlt := basicColumn_lt h.toShaped hn
      rw [List.range_succ, List.foldl_append, List.foldl_cons, List.foldl_nil,
        Finset.sum_range_succ, Array.getD_eq_getD_getElem?, Array.getElem?_setIfInBounds,
        hsize]
      by_cases hself : T.basicColumn n = j
      · -- The earlier rows have other basic columns, so this value is the only one.
        have hothers : ∑ i ∈ Finset.range n,
            (if T.basicColumn i = j then T.constant i else 0) = 0 := by
          refine Finset.sum_eq_zero fun i hi => if_neg fun heq => ?_
          have hi : i < n := Finset.mem_range.mp hi
          have := h.basicColumn_injective (by omega) hn (heq.trans hself.symm)
          omega
        rw [if_pos hself, if_pos hlt, Option.getD_some, if_pos hself, hothers, zero_add]
      · rw [if_neg hself, if_neg hself, add_zero, ← Array.getD_eq_getD_getElem?, ih (by omega)]

theorem getD_vertex (h : T.Canonical) (ε : Rat) (j : Nat) :
    (T.vertex (.exact ε)).getD j 0 = T.basicValue j :=
  h.getD_foldl_vertex j T.rowCount (Nat.le_refl _)

-- Tableaux with one basic solution show one vertex, whatever their bases.
theorem vertex_eq {S : Tableau Rat} (hS : S.Canonical) (hT : T.Canonical) (ε : Rat)
    (hcolumns : S.columnCount = T.columnCount)
    (hvalues : ∀ j < T.columnCount, S.basicValue j = T.basicValue j) :
    S.vertex (.exact ε) = T.vertex (.exact ε) := by
  refine eq_of_getD_eq 0 (by rw [size_vertex, size_vertex, hcolumns]) ?_
  intro j hj
  rw [size_vertex] at hj
  rw [hS.getD_vertex, hT.getD_vertex]
  exact hvalues j hj

/-- The solution that is reported consists of the variables of the basic one. -/
theorem solution_eq (h : T.Canonical) {ε : Rat} (hcurrent : T.Current (.exact ε)) :
    T.solution = T.program.restrict T.basicValue := by
  have hle : T.program.variableCount ≤ T.point.size := by
    rw [h.point_size]
    exact Nat.le_add_right _ _
  have hsize := h.toShaped.size_solution
  refine Array.ext (hsize.trans Array.size_ofFn.symm) fun j hj _ => ?_
  have hj : j < T.program.variableCount := hsize ▸ hj
  have hget : T.point[j] = T.basicValue j := by
    rw [← h.getD_vertex ε j, ← hcurrent.point_eq, Array.getD_eq_getD_getElem?,
      Array.getElem?_eq_getElem (by omega), Option.getD_some]
  simp only [solution, Array.getElem_extract, Nat.zero_add, hget, Program.restrict,
    Array.getElem_ofFn]

end Reading

section Comparison

variable {S : Tableau Rat}

-- Solutions of one tableau of a program solve every other, and the objective
-- rows agree on them.
theorem residual_eq (hT : T.Equivalent) (hS : S.Equivalent) (hprogram : S.program = T.program)
    {z : Nat → Rat} (hz : T.Solves z) : S.residual z S.rowCount = T.residual z T.rowCount := by
  have hbalances : S.program.Balances z := by
    rw [hprogram]
    exact (hT.solves_iff z).mp hz
  rw [hS.objective_eq z ((hS.solves_iff z).mpr hbalances), hT.objective_eq z hz, hprogram]

-- The last cells of two tableaux of one program.
theorem constant_expansion (hT : T.Canonical) (hTe : T.Equivalent) (hSe : S.Equivalent)
    (hprogram : S.program = T.program) :
    S.constant S.rowCount = T.constant T.rowCount +
      ∑ i ∈ Finset.range T.rowCount, S.entry S.rowCount (T.basicColumn i) * T.constant i := by
  -- Both objective rows are asked about the basic solution of `T`.
  have hvalue := residual_eq hTe hSe hprogram hT.solves_basicValue
  have hcolumns : S.columnCount = T.columnCount := congrArg Program.columnCount hprogram
  rw [hT.residual_basicValue, residual, hcolumns, basicValue, sum_mul_spread hT.toShaped] at hvalue
  linarith

/-- The objective rows of two tableaux of one program differ by a combination of
    constraint rows, whose multiples stand over the basic columns. -/
theorem objective_expansion (hT : T.Canonical) (hTe : T.Equivalent) (hSe : S.Equivalent)
    (hprogram : S.program = T.program) {column : Nat} (hcolumn : column < T.columnCount) :
    S.entry S.rowCount column = T.entry T.rowCount column +
      ∑ i ∈ Finset.range T.rowCount, S.entry S.rowCount (T.basicColumn i) * T.entry i column := by
  -- Both objective rows are asked about the solution one step along the column.
  have hray := residual_eq hTe hSe hprogram (hT.solves_ray hcolumn 1)
  have hconstant := hT.constant_expansion hTe hSe hprogram
  have hcolumns : S.columnCount = T.columnCount := congrArg Program.columnCount hprogram
  rw [hT.residual_ray hcolumn, residual, hcolumns, sum_mul_ray hT.toShaped hcolumn] at hray
  simp only [one_mul, mul_sub, Finset.sum_sub_distrib] at hray
  linarith

/-- The objective row is a function of the basic columns. -/
theorem objective_eq_of_basicSet_eq (hT : T.Canonical) (hS : S.Canonical) (hTe : T.Equivalent)
    (hSe : S.Equivalent) (hprogram : S.program = T.program) (hbasic : S.basicSet = T.basicSet) :
    S.constant S.rowCount = T.constant T.rowCount ∧
      ∀ j < T.columnCount, S.entry S.rowCount j = T.entry T.rowCount j := by
  -- Over the basis of `T`, which is that of `S`, the objective row of `S` is zero.
  have hzero : ∀ i ∈ Finset.range T.rowCount, S.entry S.rowCount (T.basicColumn i) = 0 := by
    intro i hi
    refine hS.objective_of_mem ?_
    rw [hbasic]
    exact mem_basicSet.mpr ⟨i, Finset.mem_range.mp hi, rfl⟩
  constructor
  · rw [hT.constant_expansion hTe hSe hprogram, Finset.sum_eq_zero, add_zero]
    intro i hi
    rw [hzero i hi, zero_mul]
  · intro j hj
    rw [hT.objective_expansion hTe hSe hprogram hj, Finset.sum_eq_zero, add_zero]
    intro i hi
    rw [hzero i hi, zero_mul]

end Comparison

end Canonical

end Tableau

end SimplexMethod
