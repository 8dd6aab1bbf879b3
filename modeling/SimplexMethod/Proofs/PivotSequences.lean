import SimplexMethod.Proofs.Vertices

/-!
# Sequences of pivots

Pivots that nobody chose.

A run pivots where its rules tell it to, but most of what pivots keep has
nothing to do with rules. It needs a row, a column and an entry that can be
divided by. A tableau `Admits` a list of places if each pivot of the list finds
such an entry when its turn comes; the entry is looked up in the tableau that
the earlier pivots have left, so whether a place is admitted depends on the
places before it. Right hand sides may turn negative on the way, and a place may
come twice.

What one such pivot keeps, a sequence of them keeps, and the first thing to say
this of is faithfulness. Read out for the tableau at the origin it says that
pivots rewrite the equations of a program without changing what they say, and
that the slack columns remember how.

## Main definitions

* `Tableau.pivots`: Pivots at several places, one after another.
* `Tableau.Pivotable`: A place with an entry that is not zero.
* `Tableau.Admits`: Places that are pivotable in their turn.

## Theorems

* `Tableau.pivots_invariant`: What every pivot keeps, a sequence keeps.
* `Tableau.pivots_faithful`: A sequence keeps faithfulness.
* `Tableau.Faithful.solves_iff`, `Tableau.Faithful.residual_objective`: What the
  rows of a faithful tableau say of columns.
* `Tableau.Faithful.constraint_combination`,
  `Tableau.Faithful.objective_combination`: What they are made of.
* `pivots_preserve_meaning`: Solutions, objective and row combinations after any
  sequence of pivots.
-/

namespace SimplexMethod

namespace Tableau

/-- The tableau after pivots at the given rows and columns, one after another. -/
def pivots {α : Type} (K : Arithmetic α) : Tableau α → List (Nat × Nat) → Tableau α
  | T, [] => T
  | T, (row, column) :: rest => (T.pivot K row column).pivots K rest

/-- A place at which a tableau can be pivoted. -/
structure Pivotable (T : Tableau Rat) (row column : Nat) : Prop where
  row_lt : row < T.rowCount
  column_lt : column < T.columnCount
  entry_ne_zero : T.entry row column ≠ 0

instance (T : Tableau Rat) (row column : Nat) : Decidable (T.Pivotable row column) :=
  decidable_of_iff (row < T.rowCount ∧ column < T.columnCount ∧ T.entry row column ≠ 0)
    ⟨fun ⟨h₁, h₂, h₃⟩ => ⟨h₁, h₂, h₃⟩, fun ⟨h₁, h₂, h₃⟩ => ⟨h₁, h₂, h₃⟩⟩

/-- Each place is pivotable in the tableau that the places before it lead to. -/
def Admits (ε : Rat) : Tableau Rat → List (Nat × Nat) → Prop
  | _, [] => True
  | T, (row, column) :: rest =>
    T.Pivotable row column ∧ (T.pivot (.exact ε) row column).Admits ε rest

instance decidableAdmits (ε : Rat) :
    (T : Tableau Rat) → (places : List (Nat × Nat)) → Decidable (T.Admits ε places)
  | _, [] => .isTrue trivial
  | T, (row, column) :: rest =>
    have := decidableAdmits ε (T.pivot (.exact ε) row column) rest
    inferInstanceAs (Decidable (T.Pivotable row column ∧ _))

section Invariants

variable {ε : Rat} {P : Program Rat} {T : Tableau Rat} {places : List (Nat × Nat)}

/-- What holds at the start and is kept by every pivot at a pivotable place holds
    after any admitted sequence of them. -/
theorem pivots_invariant {I : Tableau Rat → Prop}
    (hpivot : ∀ T row column, I T → T.Pivotable row column → I (T.pivot (.exact ε) row column))
    (hadmits : T.Admits ε places) (hT : I T) : I (T.pivots (.exact ε) places) := by
  induction places generalizing T with
  | nil => exact hT
  | cons place rest ih =>
      rcases hadmits with ⟨hplace, hrest⟩
      exact ih hrest (hpivot T place.1 place.2 hT hplace)

-- The places a run pivots at are pivotable, whichever rule chose them.
theorem Improving.pivotable {tolerance : Rat} {row column : Nat} (htolerance : 0 ≤ tolerance)
    (h : T.Improving tolerance row column) : T.Pivotable row column :=
  ⟨h.row_lt, h.column_lt, ne_of_gt (h.entry_pos htolerance)⟩

theorem Faithful.pivot {row column : Nat} (h : T.Faithful P) (hplace : T.Pivotable row column) :
    (T.pivot (.exact ε) row column).Faithful P where
  program_eq := h.program_eq
  canonical := h.canonical.pivot hplace.row_lt hplace.column_lt hplace.entry_ne_zero
  equivalent := h.equivalent.pivot h.canonical.toShaped hplace.row_lt hplace.entry_ne_zero

theorem pivots_faithful (h : T.Faithful P) (hadmits : T.Admits ε places) :
    (T.pivots (.exact ε) places).Faithful P :=
  pivots_invariant (fun _ _ _ h hplace => h.pivot hplace) hadmits h

end Invariants

namespace Faithful

variable {ε : Rat} {P : Program Rat} {T : Tableau Rat}

theorem solves_iff (h : T.Faithful P) (z : Nat → Rat) : T.Solves z ↔ P.Balances z := by
  rcases h with ⟨rfl, _, hequivalent⟩
  exact hequivalent.solves_iff z

-- A constraint row is made of first constraint rows.
theorem constraint_combination (h : T.Faithful P) {i : Nat} (hi : i < P.rowCount)
    (j : Nat) :
    T.entry i j = ∑ k ∈ Finset.range P.rowCount,
      T.entry i (P.variableCount + k) * (Tableau.ofProgram (.exact ε) P).entry k j := by
  rcases h with ⟨rfl, _, hequivalent⟩
  have hrow := hequivalent.combination i (Nat.le_of_lt hi) j
  rw [baseEntry_constraint hi, zero_add] at hrow
  exact hrow

-- The objective row is the first one and multiples of first constraint rows.
theorem objective_combination (h : T.Faithful P) (j : Nat) :
    T.entry P.rowCount j = (Tableau.ofProgram (.exact ε) P).entry P.rowCount j +
      ∑ k ∈ Finset.range P.rowCount,
        T.entry P.rowCount (P.variableCount + k) * (Tableau.ofProgram (.exact ε) P).entry k j := by
  rcases h with ⟨rfl, _, hequivalent⟩
  have hrow := hequivalent.combination T.rowCount (Nat.le_refl _) j
  rw [baseEntry, if_pos (show T.rowCount = T.program.rowCount from rfl)] at hrow
  exact hrow

-- On solutions, every objective row of a program measures what the first one
-- does, whose last cell is zero.
theorem residual_objective (h : T.Faithful P) {z : Nat → Rat} (hz : P.Balances z) :
    T.residual z P.rowCount = ∑ j ∈ Finset.range P.columnCount,
      (Tableau.ofProgram (.exact ε) P).entry P.rowCount j * z j := by
  have hfirst := Equivalent.residual_ofProgram_objective (ε := ε) (P := P) z
  rw [residual, constant_ofProgram_objective, sub_zero] at hfirst
  have hsolves := (h.solves_iff z).mpr hz
  rcases h with ⟨rfl, _, hequivalent⟩
  exact (hequivalent.objective_eq z hsolves).trans hfirst.symm

end Faithful

end Tableau

open Tableau in
/-- Pivots in any number and order, at entries that are not zero, do not change
    what the tableau of a program says. Its constraint rows have the solutions of
    `[A | I] z = b`. On these, the objective row less its last cell measures what
    the first objective row does. And every constraint row is a sum of first
    constraint rows, in the multiples that stand in its slack columns; the objective
    row is the first objective row and such a sum. -/
theorem pivots_preserve_meaning {ε : Rat} {P : Program Rat} {places : List (Nat × Nat)}
    (hadmits : (ofProgram (.exact ε) P).Admits ε places) :
    let first := ofProgram (.exact ε) P
    let last := first.pivots (.exact ε) places
    (∀ z, last.Solves z ↔ P.Balances z) ∧
    (∀ z, P.Balances z →
      ∑ j ∈ Finset.range P.columnCount, last.entry P.rowCount j * z j - last.constant P.rowCount =
        ∑ j ∈ Finset.range P.columnCount, first.entry P.rowCount j * z j) ∧
    (∀ i < P.rowCount, ∀ j, last.entry i j =
      ∑ k ∈ Finset.range P.rowCount, last.entry i (P.variableCount + k) * first.entry k j) ∧
    (∀ j, last.entry P.rowCount j = first.entry P.rowCount j +
      ∑ k ∈ Finset.range P.rowCount,
        last.entry P.rowCount (P.variableCount + k) * first.entry k j) := by
  intro first last
  have hfaithful : last.Faithful P := pivots_faithful (.ofProgram ε P) hadmits
  refine ⟨hfaithful.solves_iff, ?_, ?_, hfaithful.objective_combination⟩
  · intro z hz
    have hresidual := hfaithful.residual_objective (ε := ε) hz
    rw [Tableau.residual, columnCount, hfaithful.program_eq] at hresidual
    exact hresidual
  · intro i hi
    exact hfaithful.constraint_combination hi

/-- Two ingredients under three limits, one of which the second ingredient eases. -/
def blend : Program Rat where
  name := "blend"
  sense := .minimize
  objective := #[2, -3]
  matrix := #[#[1, 2], #[0, -1], #[3, 1]]
  bounds := #[4, 1, 6]

-- The second place has a negative entry, which no rule would choose, and the
-- fourth is the second once more.
theorem pivots_preserve_meaning_blend :
    let first := Tableau.ofProgram (.exact 0) blend
    let last := first.pivots (.exact 0) [(0, 0), (1, 1), (2, 2), (1, 1)]
    first.Admits 0 [(0, 0), (1, 1), (2, 2), (1, 1)] ∧ last.constant 1 < 0 ∧
      (∀ z, last.Solves z ↔ blend.Balances z) ∧
      ∀ j, last.entry 3 j = first.entry 3 j +
        ∑ k ∈ Finset.range 3, last.entry 3 (2 + k) * first.entry k j := by
  have hadmits : (Tableau.ofProgram (.exact 0) blend).Admits 0
      [(0, 0), (1, 1), (2, 2), (1, 1)] := by decide +kernel
  have hmeaning := pivots_preserve_meaning hadmits
  exact ⟨hadmits, by decide +kernel, hmeaning.1, hmeaning.2.2.2⟩

end SimplexMethod
