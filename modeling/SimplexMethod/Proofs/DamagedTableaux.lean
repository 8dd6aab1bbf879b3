import Mathlib.Data.List.Perm.Subperm
import SimplexMethod.Proofs.Checks
import SimplexMethod.Proofs.GuardedChecks
import SimplexMethod.Proofs.Observation

/-!
# Damaged tableaux

What the checks make of a tableau in which anything may have been overwritten.

The first two checks look at shape and basis, and all others rely on them. So the first
two must refuse whatever the others could not read, and must do so without reading it
themselves. That they are in range is known; here it is shown what they let pass. The
check of the basis goes through the map once, looks up the mark of every column it comes
by, and then only counts: the columns are different, and there are as many marks as rows.
Counting is enough. As many different columns with marks as there are marks leave no mark
for any other column. So a basis passes exactly if map and marks describe one basis, and a
tableau passes both checks exactly if it is shaped and has such a basis.

Nothing else about a tableau matters for this, neither its cells nor its point nor the
objective values that were recorded. Damage of this kind is therefore found in every
tableau that has it, and both chains of checks find the same.

## Theorems

* `Basis.Consistent.of_violation?`: A basis that passes its check is consistent.
* `basis_check_exact`: The check of a basis passes exactly the consistent ones.
* `Tableau.structure_checks_iff`: What passes the first two checks.
* `checks_total_on_damage`: The checks have a verdict on every tableau, and it is a finding
  where the structure is damaged.
-/

namespace SimplexMethod

namespace Basis

variable {α : Type} {B : Basis} {rows columns : Nat}

theorem lt_of_marked {j : Nat} (h : B.marked j = true) : j < B.marks.size := by
  by_contra hj
  rw [marked, Array.getD_eq_getD_getElem?, Array.getElem?_eq_none (Nat.le_of_not_lt hj),
    Option.getD_none] at h
  exact Bool.false_ne_true h

/-- A basis that passes its check is consistent, if map and marks have their sizes. -/
theorem Consistent.of_violation? (hcolumns : B.columns.size = rows)
    (hmarks : B.marks.size = columns) (h : B.violation? (α := α) rows columns = none) :
    B.Consistent rows columns := by
  rcases violation?_eq_none_iff.mp h with ⟨hrows, hnodup, hcount⟩
  have hrange := fun i hi => (rowViolation?_eq_none_iff.mp (hrows i hi)).1
  have hmark := fun i hi => (rowViolation?_eq_none_iff.mp (hrows i hi)).2
  have hcast : ∀ i < rows, (B.column i : Int) = B.columns.getD i 0 :=
    fun i hi => Int.toNat_of_nonneg (hrange i hi).1
  -- The columns of the map are among those with marks, and there are as many of both.
  have hsubset : (List.range rows).map B.column ⊆ (List.range B.marks.size).filter B.marked := by
    intro j hj
    rcases List.mem_map.mp hj with ⟨i, hi, rfl⟩
    have hmark := hmark i (List.mem_range.mp hi)
    exact List.mem_filter.mpr ⟨List.mem_range.mpr (lt_of_marked hmark), hmark⟩
  have hlength : ((List.range B.marks.size).filter B.marked).length ≤
      ((List.range rows).map B.column).length := by
    rw [← count_marks, hcount, List.length_map, List.length_range]
  have hperm :=
    (List.subperm_of_subset (nodup_column hcast hnodup) hsubset).perm_of_length_le hlength
  refine ⟨hcolumns, hmarks, hrange, fun i hi k hk heq => ?_, fun j => ⟨fun hj => ?_, ?_⟩⟩
  · exact List.inj_on_of_nodup_map hnodup (List.mem_range.mpr hi) (List.mem_range.mpr hk) heq
  · have hmem := List.mem_filter.mpr ⟨List.mem_range.mpr (lt_of_marked hj), hj⟩
    rcases List.mem_map.mp (hperm.mem_iff.mpr hmem) with ⟨i, hi, rfl⟩
    have hi := List.mem_range.mp hi
    exact ⟨i, hi, (hcast i hi).symm⟩
  · rintro ⟨i, hi, heq⟩
    have hmark := hmark i hi
    have hcolumn := hcast i hi
    rwa [show B.column i = j by omega] at hmark

end Basis

/-- For any numbers of rows and variables, any map with one integer per row and any marks,
    one per column: the check of the basis finds nothing exactly if the map sends rows to
    columns and no two rows to the same one, and the columns with marks are those in its
    image. -/
theorem basis_check_exact {α : Type} {B : Basis} {rows vars : Nat}
    (hcolumns : B.columns.size = rows) (hmarks : B.marks.size = vars + rows) :
    B.violation? (α := α) rows (vars + rows) = none ↔
      (∀ i < rows, 0 ≤ B.columns.getD i 0 ∧ B.columns.getD i 0 < (vars + rows : Nat)) ∧
      (∀ i < rows, ∀ k < rows, B.columns.getD i 0 = B.columns.getD k 0 → i = k) ∧
      ∀ j < vars + rows, B.marked j = true ↔ ∃ i < rows, B.columns.getD i 0 = j := by
  constructor
  · intro h
    have hconsistent := Basis.Consistent.of_violation? hcolumns hmarks h
    exact ⟨hconsistent.range, hconsistent.injective, fun j _ => hconsistent.marked_iff j⟩
  · rintro ⟨hrange, hinjective, himage⟩
    -- Beyond the columns there are neither marks nor entries of the map.
    have hmarked : ∀ j, B.marked j = true ↔ ∃ i < rows, B.columns.getD i 0 = j := by
      intro j
      by_cases hj : j < vars + rows
      · exact himage j hj
      · constructor
        · intro hmark
          have hlt := Basis.lt_of_marked hmark
          omega
        · rintro ⟨i, hi, heq⟩
          have hlt := (hrange i hi).2
          omega
    have hconsistent : B.Consistent rows (vars + rows) :=
      ⟨hcolumns, hmarks, hrange, hinjective, hmarked⟩
    exact hconsistent.violation?_eq_none

-- A basis in no particular order passes. With two rows at one column the marks are as many
-- as they should be, and all on columns of the map but one.
theorem basis_check_exact_shuffled :
    let B : Basis := ⟨#[4, 0, 2], #[true, false, true, false, true]⟩
    let C : Basis := ⟨#[4, 4, 2], #[true, false, true, false, true]⟩
    (B.columns.size = 3 ∧ B.marks.size = 2 + 3 ∧ B.violation? (α := Rat) 3 (2 + 3) = none ∧
      ∀ j < 5, B.marked j = true ↔ ∃ i < 3, B.columns.getD i 0 = j) ∧
    C.columns.size = 3 ∧ C.marks.size = 2 + 3 ∧ C.violation? (α := Rat) 3 (2 + 3) ≠ none := by
  intro B C
  have hB : B.violation? (α := Rat) 3 (2 + 3) = none :=
    (basis_check_exact rfl rfl).mpr ⟨by decide, by decide, by decide⟩
  refine ⟨⟨rfl, rfl, hB, ((basis_check_exact rfl rfl).mp hB).2.2⟩, rfl, rfl, fun hC => ?_⟩
  exact absurd (((basis_check_exact rfl rfl).mp hC).2.1 0 (by decide) 1 (by decide) rfl) (by decide)

namespace Tableau

variable {α : Type} {T : Tableau α}

/-- Shape and basis pass their checks exactly if the tableau is shaped and its map and
    marks describe one basis, where these two have their sizes. -/
theorem structure_checks_iff (hcolumns : T.basis.columns.size = T.rowCount)
    (hmarks : T.basis.marks.size = T.columnCount) :
    (T.shapeViolation? <|> T.basis.violation? T.rowCount T.columnCount) = none ↔
      T.Shaped ∧ T.basis.Consistent T.rowCount T.columnCount := by
  rw [orElse_eq_none]
  constructor
  · rintro ⟨hshape, hbasis⟩
    exact ⟨shaped_of_checks hcolumns hmarks hshape hbasis,
      .of_violation? hcolumns hmarks hbasis⟩
  · rintro ⟨hshaped, hconsistent⟩
    exact ⟨hshaped.shapeViolation?_eq_none, hconsistent.violation?_eq_none⟩

-- What the first two checks find is what both chains find.
theorem chains_of_structure (K : Arithmetic α) {v : Violation α}
    (h : (T.shapeViolation? <|> T.basis.violation? T.rowCount T.columnCount) = some v)
    (history : Array α) :
    T.vertexViolation? K history = some v ∧ T.optimumViolation? K history = some v := by
  have hvertex : T.vertexViolation? K history = some v := by
    unfold vertexViolation?
    cases hshape : T.shapeViolation? with
    | some found =>
        rw [hshape] at h
        exact h
    | none =>
        rw [hshape] at h
        have hbasis : T.basis.violation? T.rowCount T.columnCount = some v := h
        rw [hbasis]
        rfl
  refine ⟨hvertex, ?_⟩
  unfold optimumViolation?
  rw [hvertex]
  rfl

end Tableau

open Tableau in
/-- For any arithmetic, any accepted program and any tableau of it, with one map entry per row
    and one mark per column but otherwise anything in its rows, its map, its marks, its
    point and its values, and for any record of objective values: both chains of checks use
    no index out of range and have a verdict. If the tableau is not shaped, or map and marks
    do not describe one basis, the verdict is a finding, the same for both chains and
    whatever was recorded. -/
theorem checks_total_on_damage {α : Type} {K : Arithmetic α} {data P : Program α}
    (haccept : data.accept K = .ok P) {T : Tableau α} (hprogram : T.program = P)
    (hcolumns : T.basis.columns.size = P.rowCount) (hmarks : T.basis.marks.size = P.columnCount) :
    (∀ history, Guarded.vertexViolation? K T history = some (T.vertexViolation? K history) ∧
      Guarded.optimumViolation? K T history = some (T.optimumViolation? K history)) ∧
    (¬ (T.Shaped ∧ T.basis.Consistent P.rowCount P.columnCount) →
      ∃ v, ∀ history, Guarded.vertexViolation? K T history = some (some v) ∧
        Guarded.optimumViolation? K T history = some (some v)) := by
  rcases hprogram with rfl
  rcases Program.accept_eq_ok.mp haccept with ⟨hnone, rfl⟩
  have hshaped := Program.Shaped.of_rejection? hnone
  have hrange : ∀ history,
      Guarded.vertexViolation? K T history = some (T.vertexViolation? K history) ∧
        Guarded.optimumViolation? K T history = some (T.optimumViolation? K history) :=
    fun history => ⟨Guarded.vertexViolation?_eq_some K hcolumns hmarks history,
      Guarded.optimumViolation?_eq_some K hshaped hcolumns hmarks history⟩
  refine ⟨hrange, fun hdamaged => ?_⟩
  have hfound := mt (structure_checks_iff hcolumns hmarks).mp hdamaged
  rcases Option.ne_none_iff_exists'.mp hfound with ⟨v, hv⟩
  refine ⟨v, fun history => ?_⟩
  rcases chains_of_structure K hv history with ⟨hvertex, hoptimum⟩
  rw [(hrange history).1, (hrange history).2, hvertex, hoptimum]
  exact ⟨rfl, rfl⟩

/-- The tableau of `hoist` with one row missing, ragged rows, an empty point and a map that
    leads far away. -/
def wreck : Tableau Rat where
  program := hoist
  rows := #[#[1], #[], #[2, 3, 5, 7, 11, 13, 17]]
  basis := ⟨#[-7, 10 ^ 20, 0], #[true, true, true, true, true]⟩
  point := #[]
  value := -1
  status := .optimal

/-- The tableau of `hoist` at the origin, where two rows have one basic column. -/
def tangle : Tableau Rat :=
  { Tableau.ofProgram (.exact 0) hoist with
    basis := ⟨#[2, 3, 3], #[false, false, true, true, true]⟩ }

theorem checks_total_on_damage_wreck :
    let K := Arithmetic.exact 0
    (∀ history, Guarded.vertexViolation? K wreck history = some (wreck.vertexViolation? K history) ∧
      Guarded.optimumViolation? K wreck history = some (wreck.optimumViolation? K history)) ∧
    (∃ v, ∀ history, Guarded.vertexViolation? K wreck history = some (some v) ∧
      Guarded.optimumViolation? K wreck history = some (some v)) ∧
    tangle.Shaped ∧
    ∃ v, ∀ history, Guarded.vertexViolation? K tangle history = some (some v) ∧
      Guarded.optimumViolation? K tangle history = some (some v) := by
  intro K
  have haccept : hoist.accept K = .ok hoist := Program.accept_eq_ok.mpr ⟨by decide +kernel, rfl⟩
  rcases checks_total_on_damage haccept (T := wreck) rfl rfl rfl with ⟨hrange, hwreck⟩
  rcases checks_total_on_damage haccept (T := tangle) rfl rfl rfl with ⟨_, htangle⟩
  refine ⟨hrange, hwreck fun h => ?_, by decide +kernel, htangle fun h => ?_⟩
  · exact absurd h.1 (by decide +kernel)
  · exact absurd (h.2.injective 1 (by decide) 2 (by decide) rfl) (by decide)

end SimplexMethod
