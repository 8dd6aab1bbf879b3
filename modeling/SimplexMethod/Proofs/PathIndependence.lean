import Mathlib.Data.Fintype.EquivFin
import SimplexMethod.Proofs.ConsistentBasis
import SimplexMethod.Proofs.ExtremePoints

/-!
# Path independence

A tableau is a function of its basis.

Two sequences of pivots from the same start may have nothing in common and still
end with the same basic columns. Their tableaux are then the same, and how they
were reached cannot be seen from them. Keeping invariants along each sequence
does not give this; the two ends have to be compared.

They are compared by what they say. Both are faithful to one program, so what
solves one solves the other. The solutions that can be read off the first are
its basic solution and its rays, and asking a constraint row of the second about
them expands that row over the basis of the first: it is a combination of the
rows of the first, in the multiples that stand over the basic columns. If the
bases agree, the second tableau has a unit vector there, and a row is the row of
the other tableau with the same basic column. The objective rows agree for the
same reason.

The map from rows to columns decides in which order the rows come. So tableaux
with the same map are equal, and tableaux with the same set of basic columns are
equal up to the order of their constraint rows.

## Theorems

* `Tableau.Faithful.constraint_expansion`, `Tableau.Faithful.bound_expansion`: A
  constraint row over the basis of another tableau.
* `Tableau.Faithful.row_eq`, `Tableau.Faithful.objective_row_eq`: Rows with the
  same basic column are the same, and so are objective rows.
* `Tableau.Faithful.exists_matching`: The permutation that matches the maps.
* `Basis.Consistent.marks_eq`: The marks are a function of the set.
* `Tableau.pivots_eq`: Pivots touch rows and basis only.
* `pivots_path_independent`: What two sequences of pivots share that end with the
  same map, or with the same set of basic columns.
-/

namespace SimplexMethod

namespace Tableau

-- Rows with the same entries are the same arrays.
theorem Shaped.row_ext {S T : Tableau Rat} (hS : S.Shaped) (hT : T.Shaped)
    (hcolumns : S.columnCount = T.columnCount) {k i : Nat} (hk : k ≤ S.rowCount)
    (hi : i ≤ T.rowCount) (hentries : ∀ j ≤ T.columnCount, S.entry k j = T.entry i j) :
    S.rows.getD k #[] = T.rows.getD i #[] := by
  have hsizes : (S.rows.getD k #[]).size = (T.rows.getD i #[]).size := by
    rw [hS.size_row hk, hT.size_row hi, hcolumns]
  refine eq_of_getD_eq 0 hsizes fun j hj => ?_
  rw [hT.size_row hi] at hj
  exact hentries j (by omega)

-- Tableaux of one shape with the same rows have the same array of rows.
theorem Shaped.rows_ext {S T : Tableau Rat} (hS : S.Shaped) (hT : T.Shaped)
    (hcount : S.rowCount = T.rowCount)
    (hrows : ∀ i ≤ T.rowCount, S.rows.getD i #[] = T.rows.getD i #[]) : S.rows = T.rows := by
  refine eq_of_getD_eq #[] (by rw [hS.rows_size, hT.rows_size, hcount]) ?_
  intro i hi
  rw [hT.rows_size] at hi
  exact hrows i (by omega)

namespace Faithful

variable {P : Program Rat} {S T : Tableau Rat}

-- Solutions of one tableau of a program solve every other.
theorem solves_of_solves (hS : S.Faithful P) (hT : T.Faithful P) {z : Nat → Rat}
    (hz : T.Solves z) : S.Solves z :=
  (hS.solves_iff z).mpr ((hT.solves_iff z).mp hz)

/-- The right hand side of a constraint row, over the basis of another tableau. -/
theorem bound_expansion (hS : S.Faithful P) (hT : T.Faithful P) {k : Nat} (hk : k < P.rowCount) :
    S.constant k = ∑ i ∈ Finset.range P.rowCount, S.entry k (T.basicColumn i) * T.constant i := by
  -- The row is asked about the basic solution of `T`.
  have hrow := hS.solves_of_solves hT hT.canonical.solves_basicValue k (hS.rowCount_eq.symm ▸ hk)
  rw [residual, hS.columnCount_eq, ← hT.columnCount_eq, basicValue,
    sum_mul_spread hT.canonical.toShaped, hT.rowCount_eq] at hrow
  exact (sub_eq_zero.mp hrow).symm

/-- A constraint row, over the basis of another tableau. -/
theorem constraint_expansion (hS : S.Faithful P) (hT : T.Faithful P) {k : Nat}
    (hk : k < P.rowCount) {j : Nat} (hj : j < P.columnCount) :
    S.entry k j = ∑ i ∈ Finset.range P.rowCount, S.entry k (T.basicColumn i) * T.entry i j := by
  -- The row is asked about the solution of `T` one step along column `j`.
  have hcolumn : j < T.columnCount := hT.columnCount_eq.symm ▸ hj
  have hrow := hS.solves_of_solves hT (hT.canonical.solves_ray hcolumn 1) k
    (hS.rowCount_eq.symm ▸ hk)
  have hbound := hS.bound_expansion hT hk
  rw [residual, hS.columnCount_eq, ← hT.columnCount_eq,
    sum_mul_ray hT.canonical.toShaped hcolumn, hT.rowCount_eq] at hrow
  simp only [one_mul, mul_one, mul_sub, Finset.sum_sub_distrib] at hrow
  linarith

variable {i k : Nat}

-- If the bases agree, a row has a unit vector over the basis of the other tableau.
theorem entry_basicColumn (hS : S.Faithful P) (hT : T.Faithful P)
    (hbasis : S.basicSet = T.basicSet) (hi : i < P.rowCount) (hk : k < P.rowCount)
    (hmatch : S.basicColumn k = T.basicColumn i) {l : Nat} (hl : l < P.rowCount) :
    S.entry k (T.basicColumn l) = if l = i then 1 else 0 := by
  have hmem : T.basicColumn l ∈ S.basicSet := by
    rw [hbasis]
    exact mem_basicSet.mpr ⟨l, hT.rowCount_eq.symm ▸ hl, rfl⟩
  rcases mem_basicSet.mp hmem with ⟨k', hk', hother⟩
  rw [← hS.rowCount_eq] at hk
  rw [← hT.rowCount_eq] at hi hl
  rw [← hother, hS.canonical.unit k' hk' k (Nat.le_of_lt hk)]
  refine if_congr ?_ rfl rfl
  constructor
  · rintro rfl
    exact hT.canonical.basicColumn_injective hl hi (hother.symm.trans hmatch)
  · rintro rfl
    exact hS.canonical.basicColumn_injective hk hk' (hmatch.trans hother.symm)

/-- If the bases agree, a constraint row is the row of the other tableau with the
    same basic column. -/
theorem row_eq (hS : S.Faithful P) (hT : T.Faithful P) (hbasis : S.basicSet = T.basicSet)
    (hi : i < P.rowCount) (hk : k < P.rowCount) (hmatch : S.basicColumn k = T.basicColumn i) :
    S.rows.getD k #[] = T.rows.getD i #[] := by
  -- In every expansion only row `i` is left.
  have hsingle : ∀ f : Nat → Rat,
      ∑ l ∈ Finset.range P.rowCount, S.entry k (T.basicColumn l) * f l = f i := by
    intro f
    rw [Finset.sum_eq_single_of_mem i (Finset.mem_range.mpr hi),
      hS.entry_basicColumn hT hbasis hi hk hmatch hi, if_pos rfl, one_mul]
    intro l hl hne
    rw [hS.entry_basicColumn hT hbasis hi hk hmatch (Finset.mem_range.mp hl), if_neg hne,
      zero_mul]
  have hcolumns : S.columnCount = T.columnCount := hS.columnCount_eq.trans hT.columnCount_eq.symm
  refine hS.canonical.toShaped.row_ext hT.canonical.toShaped hcolumns
    (Nat.le_of_lt (hS.rowCount_eq.symm ▸ hk)) (Nat.le_of_lt (hT.rowCount_eq.symm ▸ hi)) ?_
  intro j hj
  by_cases hlast : j = T.columnCount
  · have hbound := hS.bound_expansion hT hk
    rw [hsingle, constant, constant, hcolumns] at hbound
    rw [hlast]
    exact hbound
  · have hlt : j < P.columnCount := by
      rw [← hT.columnCount_eq]
      omega
    rw [hS.constraint_expansion hT hk hlt, hsingle]

/-- If the bases agree, the objective rows do. -/
theorem objective_row_eq (hS : S.Faithful P) (hT : T.Faithful P)
    (hbasis : S.basicSet = T.basicSet) :
    S.rows.getD P.rowCount #[] = T.rows.getD P.rowCount #[] := by
  have hcolumns : S.columnCount = T.columnCount := hS.columnCount_eq.trans hT.columnCount_eq.symm
  have hobjective := hT.canonical.objective_eq_of_basicSet_eq hS.canonical hT.equivalent
    hS.equivalent (hS.program_eq.trans hT.program_eq.symm) hbasis
  rw [hS.rowCount_eq, hT.rowCount_eq] at hobjective
  refine hS.canonical.toShaped.row_ext hT.canonical.toShaped hcolumns
    (Nat.le_of_eq hS.rowCount_eq.symm) (Nat.le_of_eq hT.rowCount_eq.symm) ?_
  intro j hj
  by_cases hlast : j = T.columnCount
  · rw [hlast]
    have hvalue := hobjective.1
    rw [constant, constant, hcolumns] at hvalue
    exact hvalue
  · exact hobjective.2 j (by omega)

theorem objective_entry_eq (hS : S.Faithful P) (hT : T.Faithful P)
    (hbasis : S.basicSet = T.basicSet) (j : Nat) :
    S.entry P.rowCount j = T.entry P.rowCount j := by
  rw [entry, entry, hS.objective_row_eq hT hbasis]

/-- Tableaux with the same map have the same rows. -/
theorem rows_eq (hS : S.Faithful P) (hT : T.Faithful P) (hbasis : S.basicSet = T.basicSet)
    (hmap : ∀ i < P.rowCount, S.basicColumn i = T.basicColumn i) : S.rows = T.rows := by
  refine hS.canonical.toShaped.rows_ext hT.canonical.toShaped
    (hS.rowCount_eq.trans hT.rowCount_eq.symm) fun i hi => ?_
  rw [hT.rowCount_eq] at hi
  by_cases hobjective : i = P.rowCount
  · rw [hobjective]
    exact hS.objective_row_eq hT hbasis
  · have hlt : i < P.rowCount := by omega
    exact hS.row_eq hT hbasis hlt hlt (hmap i hlt)

/-- If the bases agree, the rows of the two tableaux are matched one to one. -/
theorem exists_matching (hS : S.Faithful P) (hT : T.Faithful P)
    (hbasis : S.basicSet = T.basicSet) :
    ∃ σ : Equiv.Perm (Fin P.rowCount), ∀ i, S.basicColumn (σ i) = T.basicColumn i := by
  have hpartner : ∀ i : Fin P.rowCount, ∃ k : Fin P.rowCount,
      S.basicColumn k = T.basicColumn i := by
    intro i
    have hmem : T.basicColumn i ∈ S.basicSet := by
      rw [hbasis]
      exact mem_basicSet.mpr ⟨i, hT.rowCount_eq.symm ▸ i.isLt, rfl⟩
    rcases mem_basicSet.mp hmem with ⟨k, hk, hmatch⟩
    exact ⟨⟨k, hS.rowCount_eq ▸ hk⟩, hmatch⟩
  choose f hf using hpartner
  have hinjective : Function.Injective f := by
    intro i k heq
    have hcolumns : T.basicColumn i = T.basicColumn k := by rw [← hf i, ← hf k, heq]
    exact Fin.ext (hT.canonical.basicColumn_injective (hT.rowCount_eq.symm ▸ i.isLt)
      (hT.rowCount_eq.symm ▸ k.isLt) hcolumns)
  exact ⟨Equiv.ofBijective f (Finite.injective_iff_bijective.mp hinjective), hf⟩

-- If the bases agree, the basic solutions do: one is a solution of the other's rows
-- that is zero outside the basis.
theorem vertex_eq_of_basicSet_eq (hS : S.Faithful P) (hT : T.Faithful P)
    (hbasis : S.basicSet = T.basicSet) (ε : Rat) :
    S.vertex (.exact ε) = T.vertex (.exact ε) := by
  refine hS.canonical.vertex_eq hT.canonical ε (hS.columnCount_eq.trans hT.columnCount_eq.symm) ?_
  intro j hj
  refine hT.canonical.eq_basicValue (hT.solves_of_solves hS hS.canonical.solves_basicValue)
    (fun j _ hnot => ?_) hj
  rw [basicValue, spread_of_notMem _ (hbasis ▸ hnot)]

-- Value and duals are read from the objective row.
theorem lastValue_eq_of_basicSet_eq (hS : S.Faithful P) (hT : T.Faithful P)
    (hbasis : S.basicSet = T.basicSet) (ε : Rat) :
    S.lastValue (.exact ε) = T.lastValue (.exact ε) := by
  rw [lastValue_exact, lastValue_exact, constant, constant, hS.program_eq, hT.program_eq,
    hS.rowCount_eq, hT.rowCount_eq, hS.columnCount_eq, hT.columnCount_eq,
    hS.objective_entry_eq hT hbasis]

theorem duals_eq_of_basicSet_eq (hS : S.Faithful P) (hT : T.Faithful P)
    (hbasis : S.basicSet = T.basicSet) (ε : Rat) :
    S.duals (.exact ε) = T.duals (.exact ε) := by
  refine eq_of_getD_eq 0 ?_ fun i hi => ?_
  · rw [size_duals, size_duals, hS.rowCount_eq, hT.rowCount_eq]
  · rw [size_duals] at hi
    rw [getD_duals hi, getD_duals (by rwa [hS.rowCount_eq, ← hT.rowCount_eq]), hS.program_eq,
      hT.program_eq, hS.rowCount_eq, hT.rowCount_eq, hS.objective_entry_eq hT hbasis]

end Faithful

end Tableau

/-- The marks of a basis are a function of its set of columns. -/
theorem Basis.Consistent.marks_eq {B C : Basis} {rows columns : Nat}
    (hB : B.Consistent rows columns) (hC : C.Consistent rows columns)
    (hcolumns : ∀ j, (∃ i < rows, B.column i = j) ↔ ∃ i < rows, C.column i = j) :
    B.marks = C.marks := by
  -- The stored integers are columns, so nothing is lost in reading them as such.
  have hstored : ∀ {D : Basis}, D.Consistent rows columns → ∀ j : Nat,
      D.marked j = true ↔ ∃ i < rows, D.column i = j := by
    intro D hD j
    rw [hD.marked_iff]
    refine exists_congr fun i => and_congr_right fun hi => ?_
    have hrange := hD.range i hi
    rw [column]
    omega
  refine eq_of_getD_eq false (hB.marks_size.trans hC.marks_size.symm) fun j _ => ?_
  exact Bool.eq_iff_iff.mpr ((hstored hB j).trans ((hcolumns j).trans (hstored hC j).symm))

namespace Tableau

theorem SoundBasis.marks_eq {P : Program Rat} {S T : Tableau Rat} (hS : S.SoundBasis P)
    (hT : T.SoundBasis P) (hbasis : S.basicSet = T.basicSet) :
    S.basis.marks = T.basis.marks := by
  refine hS.consistent.marks_eq hT.consistent fun j => ?_
  have hmem : j ∈ S.basicSet ↔ j ∈ T.basicSet := by rw [hbasis]
  rw [mem_basicSet, mem_basicSet, rowCount, rowCount, hS.program_eq, hT.program_eq] at hmem
  exact hmem

-- Pivots touch rows and basis only.
theorem pivots_eq {α : Type} (K : Arithmetic α) (T : Tableau α) (places : List (Nat × Nat)) :
    T.pivots K places =
      { T with rows := (T.pivots K places).rows, basis := (T.pivots K places).basis } := by
  induction places generalizing T with
  | nil => rfl
  | cons place rest ih =>
      rw [pivots, ih (T.pivot K place.1 place.2)]
      rfl

end Tableau

open Tableau in
/-- Two sequences of pivots from the tableau of a program, in any number and order, at
    entries that are not zero. If they end with the same map from rows to basic columns,
    they end with the same tableau, and so with the same values in all that is read from
    it. If they end with the same set of basic columns, the tableaux are the same up to
    the permutation of their constraint rows that matches the maps: objective row and
    marks agree, and so do the vertex, with solution and slacks, the objective value and
    the duals. -/
theorem pivots_path_independent {ε : Rat} {P : Program Rat} {places places' : List (Nat × Nat)}
    (hadmits : (ofProgram (.exact ε) P).Admits ε places)
    (hadmits' : (ofProgram (.exact ε) P).Admits ε places') :
    let first := ofProgram (.exact ε) P
    let S := first.pivots (.exact ε) places
    let T := first.pivots (.exact ε) places'
    (S.basis.columns = T.basis.columns → S = T) ∧
    (S.basicSet = T.basicSet →
      (∃ σ : Equiv.Perm (Fin P.rowCount), ∀ i,
        S.basicColumn (σ i) = T.basicColumn i ∧
          S.rows.getD (σ i) #[] = T.rows.getD i #[]) ∧
      S.rows.getD P.rowCount #[] = T.rows.getD P.rowCount #[] ∧
      S.basis.marks = T.basis.marks ∧ S.vertex (.exact ε) = T.vertex (.exact ε) ∧
      S.lastValue (.exact ε) = T.lastValue (.exact ε) ∧
      S.duals (.exact ε) = T.duals (.exact ε)) := by
  intro first S T
  have hS : S.Faithful P := pivots_faithful (.ofProgram ε P) hadmits
  have hT : T.Faithful P := pivots_faithful (.ofProgram ε P) hadmits'
  have hmarks : S.basicSet = T.basicSet → S.basis.marks = T.basis.marks :=
    SoundBasis.marks_eq
      (pivots_invariant (fun _ _ _ h hplace => h.pivot hplace) hadmits (.ofProgram ε P))
      (pivots_invariant (fun _ _ _ h hplace => h.pivot hplace) hadmits' (.ofProgram ε P))
  constructor
  · intro hcolumns
    have hmap : ∀ i, S.basicColumn i = T.basicColumn i := by
      intro i
      rw [basicColumn, basicColumn, Basis.column, Basis.column, hcolumns]
    have hbasis : S.basicSet = T.basicSet := by
      rw [basicSet, basicSet, hS.rowCount_eq, hT.rowCount_eq, funext hmap]
    have hrows : S.rows = T.rows := hS.rows_eq hT hbasis fun i _ => hmap i
    have hsame : S.basis = T.basis := by
      rw [show S.basis = ⟨S.basis.columns, S.basis.marks⟩ from rfl, hcolumns, hmarks hbasis]
    -- All else in a tableau is what it was at the start.
    calc S = { first with rows := S.rows, basis := S.basis } := pivots_eq _ _ places
      _ = { first with rows := T.rows, basis := T.basis } := by rw [hrows, hsame]
      _ = T := (pivots_eq _ _ places').symm
  · intro hbasis
    rcases hS.exists_matching hT hbasis with ⟨σ, hσ⟩
    exact ⟨⟨σ, fun i => ⟨hσ i, hS.row_eq hT hbasis i.isLt (σ i).isLt (hσ i)⟩⟩,
      hS.objective_row_eq hT hbasis, hmarks hbasis, hS.vertex_eq_of_basicSet_eq hT hbasis ε,
      hS.lastValue_eq_of_basicSet_eq hT hbasis ε, hS.duals_eq_of_basicSet_eq hT hbasis ε⟩

-- The first two sequences end with the same map after one pivot and after three. The
-- last two end with the same columns in exchanged rows.
theorem pivots_path_independent_blend :
    let first := Tableau.ofProgram (.exact 0) blend
    first.Admits 0 [(0, 0)] ∧ first.Admits 0 [(2, 1), (0, 0), (2, 4)] ∧
      first.pivots (.exact 0) [(0, 0)] = first.pivots (.exact 0) [(2, 1), (0, 0), (2, 4)] ∧
      (first.pivots (.exact 0) [(0, 0), (1, 1)]).basis.columns = #[0, 1, 4] ∧
      (first.pivots (.exact 0) [(0, 1), (1, 0)]).basis.columns = #[1, 0, 4] ∧
      (first.pivots (.exact 0) [(0, 0), (1, 1)]).vertex (.exact 0) =
        (first.pivots (.exact 0) [(0, 1), (1, 0)]).vertex (.exact 0) := by
  intro first
  have hshort : first.Admits 0 [(0, 0)] := by decide +kernel
  have hlong : first.Admits 0 [(2, 1), (0, 0), (2, 4)] := by decide +kernel
  have hstraight : first.Admits 0 [(0, 0), (1, 1)] := by decide +kernel
  have hcrossed : first.Admits 0 [(0, 1), (1, 0)] := by decide +kernel
  have hbasis : (first.pivots (.exact 0) [(0, 0), (1, 1)]).basicSet =
      (first.pivots (.exact 0) [(0, 1), (1, 0)]).basicSet := by decide +kernel
  exact ⟨hshort, hlong, (pivots_path_independent hshort hlong).1 (by decide +kernel),
    by decide +kernel, by decide +kernel,
    ((pivots_path_independent hstraight hcrossed).2 hbasis).2.2.2.1⟩

end SimplexMethod
