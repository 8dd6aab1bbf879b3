import SimplexMethod.Proofs.PivotSequences

/-!
# Consistent bases

The three records of a basis, and why they never disagree.

Which columns are basic is written down three times. The map sends each row to
its basic column, the marks say of each column whether it is basic, and the
cells of a basic column are those of a unit vector. A pivot updates each of them
on its own, and none is ever computed from another. Map and marks need one thing
to stay together: the entering column must not be basic in another row, since
two rows would then share a column with a single mark. The cells supply it. A
column that is basic in another row has a zero in the pivot row, and zero is no
entry to pivot at. A column that is basic in the pivot row itself may enter; its
mark is removed and set again.

Map and marks are compared as they are stored, integers and truth values, so
that the comparison makes sense for any basis at all.

## Main definitions

* `Basis.Consistent`: Map and marks describe one basis.
* `Tableau.SoundBasis`: Map, marks and unit vectors agree.

## Theorems

* `Basis.Consistent.slack`: The slack basis is consistent.
* `Basis.Consistent.exchange`: So is a basis after an exchange with a column
  that is not basic in another row.
* `Tableau.SoundBasis.pivot`: Pivots keep the records together.
* `Program.trace_soundBasis`: So does any run.
* `basis_sound_throughout`: So does any sequence of pivots, and any run.
-/

namespace SimplexMethod

namespace Basis

/-- Map and marks describe one basis of `rows` among `columns` columns. -/
structure Consistent (B : Basis) (rows columns : Nat) : Prop where
  columns_size : B.columns.size = rows
  marks_size : B.marks.size = columns
  /-- The map sends rows to columns. -/
  range : ∀ i < rows, 0 ≤ B.columns.getD i 0 ∧ B.columns.getD i 0 < columns
  /-- It sends different rows to different columns. -/
  injective : ∀ i < rows, ∀ k < rows, B.columns.getD i 0 = B.columns.getD k 0 → i = k
  /-- The marks are on the columns it sends a row to, and on no others. -/
  marked_iff : ∀ j, B.marked j = true ↔ ∃ i < rows, B.columns.getD i 0 = j

theorem Consistent.slack (vars rows : Nat) : (slack vars rows).Consistent rows (vars + rows) where
  columns_size := Array.size_ofFn
  marks_size := Array.size_ofFn
  range := by
    intro i hi
    rw [getD_columns_slack hi]
    omega
  injective := by
    intro i hi k hk heq
    rw [getD_columns_slack hi, getD_columns_slack hk] at heq
    omega
  marked_iff := by
    intro j
    rw [marked_slack]
    constructor
    · intro hj
      have hi : j - vars < rows := by omega
      refine ⟨j - vars, hi, ?_⟩
      rw [getD_columns_slack hi]
      omega
    · rintro ⟨i, hi, heq⟩
      rw [getD_columns_slack hi] at heq
      omega

/-- An exchange keeps map and marks together if the entering column is not basic in
    another row. -/
theorem Consistent.exchange {B : Basis} {row entering rows columns : Nat}
    (h : B.Consistent rows columns) (hrow : row < rows) (hentering : entering < columns)
    (hfresh : ∀ i < rows, i ≠ row → B.columns.getD i 0 ≠ entering) :
    (B.exchange row entering).Consistent rows columns := by
  have hsize : row < B.columns.size := by rw [h.columns_size]; exact hrow
  have hmarks : entering < B.marks.size := by rw [h.marks_size]; exact hentering
  have hleaving : (B.column row : Int) = B.columns.getD row 0 :=
    Int.toNat_of_nonneg (h.range row hrow).1
  refine ⟨?_, ?_, ?_, ?_, ?_⟩
  · rw [Basis.exchange, Array.size_setIfInBounds, h.columns_size]
  · rw [Basis.exchange, Array.size_setIfInBounds, Array.size_setIfInBounds, h.marks_size]
  · intro i hi
    rw [getD_columns_exchange hsize]
    by_cases hself : i = row
    · rw [if_pos hself]
      omega
    · rw [if_neg hself]
      exact h.range i hi
  · -- Two rows could share only the entering column, and no other row has it.
    intro i hi k hk heq
    rw [getD_columns_exchange hsize, getD_columns_exchange hsize] at heq
    by_cases hself : i = row
    · by_cases hother : k = row
      · rw [hself, hother]
      · rw [if_pos hself, if_neg hother] at heq
        exact absurd heq.symm (hfresh k hk hother)
    · by_cases hother : k = row
      · rw [if_neg hself, if_pos hother] at heq
        exact absurd heq (hfresh i hi hself)
      · rw [if_neg hself, if_neg hother] at heq
        exact h.injective i hi k hk heq
  · -- The leaving column loses its mark, and was basic in this row only.
    intro j
    rw [marked_exchange hmarks, h.marked_iff]
    constructor
    · rintro (rfl | ⟨hstays, i, hi, heq⟩)
      · exact ⟨row, hrow, by rw [getD_columns_exchange hsize, if_pos rfl]⟩
      · refine ⟨i, hi, ?_⟩
        rw [getD_columns_exchange hsize, if_neg, heq]
        rintro rfl
        omega
    · rintro ⟨i, hi, heq⟩
      rw [getD_columns_exchange hsize] at heq
      by_cases hself : i = row
      · rw [if_pos hself] at heq
        exact Or.inl (by omega)
      · rw [if_neg hself] at heq
        refine Or.inr ⟨?_, i, hi, heq⟩
        rintro rfl
        exact hself (h.injective i hi row hrow (heq.trans hleaving))

end Basis

namespace Tableau

/-- Map, marks and unit vectors of a tableau of the program agree. -/
structure SoundBasis (P : Program Rat) (T : Tableau Rat) : Prop where
  program_eq : T.program = P
  /-- The columns that the map names are unit vectors. -/
  canonical : T.Canonical
  /-- Map and marks describe one basis. -/
  consistent : T.basis.Consistent P.rowCount P.columnCount

-- A column that is basic in another row has no entry in this one.
theorem Canonical.not_basic_of_pivotable {T : Tableau Rat} {row column : Nat} (h : T.Canonical)
    (hplace : T.Pivotable row column) {i : Nat} (hi : i < T.rowCount) (hne : i ≠ row) :
    T.basis.columns.getD i 0 ≠ column := by
  intro heq
  have hbasic : T.basicColumn i = column := by
    rw [basicColumn, Basis.column, heq, Int.toNat_natCast]
  have hzero := h.unit i hi row (Nat.le_of_lt hplace.row_lt)
  rw [if_neg (Ne.symm hne), hbasic] at hzero
  exact hplace.entry_ne_zero hzero

namespace SoundBasis

variable {ε : Rat} {o : Options Rat} {P : Program Rat} {T next : Tableau Rat}

theorem ofProgram (ε : Rat) (P : Program Rat) : (Tableau.ofProgram (.exact ε) P).SoundBasis P :=
  ⟨rfl, .ofProgram ε P, .slack P.variableCount P.rowCount⟩

/-- A pivot at an entry that is not zero keeps the records of the basis together. -/
theorem pivot {row column : Nat} (h : T.SoundBasis P) (hplace : T.Pivotable row column) :
    (T.pivot (.exact ε) row column).SoundBasis P := by
  rcases h with ⟨rfl, hcanonical, hconsistent⟩
  exact ⟨rfl, hcanonical.pivot hplace.row_lt hplace.column_lt hplace.entry_ne_zero,
    hconsistent.exchange hplace.row_lt hplace.column_lt fun i hi hne =>
      hcanonical.not_basic_of_pivotable hplace hi hne⟩

theorem withStatus (h : T.SoundBasis P) (status : Status) : (T.withStatus status).SoundBasis P :=
  ⟨h.program_eq, h.canonical.withStatus status, h.consistent⟩

-- Reading point and value touches neither cells nor basis.
theorem follows (htolerance : 0 ≤ o.tolerance) (h : T.SoundBasis P)
    (hfollows : Follows (.exact ε) o T next) : next.SoundBasis P := by
  rcases hfollows with ⟨column, leaving, hmove, rfl⟩
  have hplace := (improving_of_nextMove hmove).pivotable htolerance
  exact ⟨h.program_eq,
    h.canonical.advance hplace.row_lt hplace.column_lt hplace.entry_ne_zero,
    (h.pivot (ε := ε) hplace).consistent⟩

end SoundBasis

end Tableau

open Tableau in
/-- The records agree at every vertex of a run and where it ends. -/
theorem Program.trace_soundBasis {ε : Rat} {o : Options Rat} (P : Program Rat)
    (htolerance : 0 ≤ o.tolerance) :
    (∀ V ∈ (P.trace (.exact ε) o).path, V.SoundBasis P) ∧
      (P.trace (.exact ε) o).last.SoundBasis P :=
  run_invariant (.exact ε) o (fun _ _ h hfollows => h.follows htolerance hfollows)
    (fun _ status h => h.withStatus status) (.ofProgram ε P)

open Tableau in
/-- After pivots in any number and order, at entries that are not zero, the map
    from rows to columns is injective and stays among the columns, the marks are on
    its image, and the columns in its image are unit vectors, objective row
    included. The same holds at every vertex of a run and where it ends, under
    any rules and any tolerance that is not negative. -/
theorem basis_sound_throughout (ε : Rat) (P : Program Rat) :
    (∀ places, (ofProgram (.exact ε) P).Admits ε places →
      ((ofProgram (.exact ε) P).pivots (.exact ε) places).SoundBasis P) ∧
    ∀ o : Options Rat, 0 ≤ o.tolerance →
      (∀ V ∈ (P.trace (.exact ε) o).path, V.SoundBasis P) ∧
        (P.trace (.exact ε) o).last.SoundBasis P := by
  constructor
  · intro places hadmits
    exact pivots_invariant (fun _ _ _ h hplace => h.pivot hplace) hadmits (.ofProgram ε P)
  · intro o htolerance
    exact P.trace_soundBasis htolerance

-- The second pivot is made at a basic column and its own row, and changes nothing.
theorem basis_sound_throughout_blend :
    let last := (Tableau.ofProgram (.exact 0) blend).pivots (.exact 0) [(1, 1), (1, 1), (0, 3)]
    (Tableau.ofProgram (.exact 0) blend).Admits 0 [(1, 1), (1, 1), (0, 3)] ∧
      last.basis = ⟨#[3, 1, 4], #[false, true, false, true, true]⟩ ∧ last.SoundBasis blend ∧
        (blend.trace (.exact 0) .sharp).last.SoundBasis blend := by
  have hadmits : (Tableau.ofProgram (.exact 0) blend).Admits 0 [(1, 1), (1, 1), (0, 3)] := by
    decide +kernel
  exact ⟨hadmits, by decide +kernel, (basis_sound_throughout 0 blend).1 _ hadmits,
    ((basis_sound_throughout 0 blend).2 .sharp (le_refl 0)).2⟩

end SimplexMethod
