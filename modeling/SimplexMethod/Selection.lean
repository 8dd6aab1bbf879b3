import SimplexMethod.Options
import SimplexMethod.Tableau

/-!
# Choosing a pivot

Which column enters the basis, and which row leaves it.

A column may enter if its reduced cost is negative beyond the tolerance. One
rule takes the first such column, the other the one with the most negative cost,
the first of equals. The first rule asks whether a cost *is* below the threshold
and the second whether it is *not* above it; on ordered numbers these agree.

The row to leave is the one whose right hand side, divided by its entry in the
entering column, is least, among the rows whose entry exceeds the tolerance.
Ratios that differ by no more than rounding tie, and the row rule decides.

## Main definitions

* `Tableau.entering`: The entering column.
* `Tableau.leaving`: The leaving row and its ratio.
* `Tableau.prefers`: Whether a tie goes to the later row.
* `Tableau.lexSmaller`: Whether a scaled slack block comes first.

## Theorems

* `Tableau.entering_lt`: The entering column is a column.
* `Tableau.leaving_lt`: The leaving row is a row.
-/

namespace SimplexMethod

/-- A row that may leave the basis, and its ratio. -/
structure Leaving (α : Type) where
  /-- The row. -/
  row : Nat
  /-- Its right hand side divided by its entry in the entering column. -/
  ratio : α
deriving DecidableEq

namespace Tableau

variable {α : Type} (K : Arithmetic α)

/-- The first column whose reduced cost is below the threshold. -/
def firstEligible (tolerance : α) (T : Tableau α) : Option Nat :=
  (List.range T.columnCount).find? fun j => K.lt (T.reducedCost K j) (K.neg tolerance)

/-- Keep the better of the best column so far and column `j`. -/
def betterColumn (tolerance : α) (T : Tableau α) (best : Option Nat) (j : Nat) : Option Nat :=
  let cost := T.reducedCost K j
  if K.le (K.neg tolerance) cost then best
  else
    match best with
    | none => some j
    | some b => if K.lt cost (T.reducedCost K b) then some j else best

/-- The column whose reduced cost is most negative, the first of equals. -/
def mostNegative (tolerance : α) (T : Tableau α) : Option Nat :=
  (List.range T.columnCount).foldl (betterColumn K tolerance T) none

/-- The column that enters the basis, if any may. -/
def entering (o : Options α) (T : Tableau α) : Option Nat :=
  match o.columnRule with
  | .firstEligible => firstEligible K o.tolerance T
  | .mostNegative => mostNegative K o.tolerance T

-- The better column is the best so far or column `i`.
theorem betterColumn_lt {tolerance : α} {T : Tableau α} {best : Option Nat}
    (hbest : ∀ j ∈ best, j < T.columnCount) {i : Nat} (hi : i < T.columnCount) :
    ∀ j ∈ betterColumn K tolerance T best i, j < T.columnCount := by
  intro j hj
  unfold betterColumn at hj
  grind

theorem mostNegative_lt {tolerance : α} {T : Tableau α} {column : Nat}
    (h : mostNegative K tolerance T = some column) : column < T.columnCount := by
  have hfold : ∀ (columns : List Nat) (best : Option Nat),
      (∀ j ∈ columns, j < T.columnCount) → (∀ j ∈ best, j < T.columnCount) →
      ∀ j ∈ columns.foldl (betterColumn K tolerance T) best, j < T.columnCount := by
    intro columns
    induction columns with
    | nil => intro best _ hbest; exact hbest
    | cons i rest ih =>
        intro best hcolumns hbest
        rw [List.foldl_cons]
        exact ih _ (fun j hj => hcolumns j (List.mem_cons_of_mem i hj))
          (betterColumn_lt K hbest (hcolumns i List.mem_cons_self))
  exact hfold _ none (fun j hj => List.mem_range.mp hj) (fun j hj => nomatch hj) column h

theorem entering_lt {o : Options α} {T : Tableau α} {column : Nat}
    (h : T.entering K o = some column) : column < T.columnCount := by
  rw [entering] at h
  split at h
  · exact List.mem_range.mp (List.mem_of_find?_eq_some h)
  · exact mostNegative_lt K h

/-- Whether a list of pairs decides for its first components: the first pair that
    differs by more than the tolerance decides, and none decides against. -/
def lexLess (tolerance : α) : List (α × α) → Bool
  | [] => false
  | (x, y) :: rest =>
    if K.lt x (K.sub y tolerance) then true
    else if K.lt (K.add y tolerance) x then false
    else lexLess tolerance rest

/-- The slack block of a row divided by its entry in a column. -/
def scaledSlacks (T : Tableau α) (row column : Nat) : List α :=
  (List.range T.rowCount).map fun k =>
    K.div (T.cell K row (T.program.variableCount + k)) (T.cell K row column)

/-- Whether the scaled slack block of `candidate` comes before that of `current`. -/
def lexSmaller (tolerance : α) (T : Tableau α) (candidate current column : Nat) : Bool :=
  lexLess K tolerance
    ((T.scaledSlacks K candidate column).zip (T.scaledSlacks K current column))

/-- Whether a tie between two rows goes to `candidate`. -/
def prefers (o : Options α) (T : Tableau α) (candidate current column : Nat) : Bool :=
  match o.rowRule with
  | .lowestRow => false
  | .lowestBasicColumn => decide (T.basicColumn candidate < T.basicColumn current)
  | .lexicographic => lexSmaller K o.tolerance T candidate current column

/-- Keep the better of the best row so far and row `i`. -/
def betterRow (o : Options α) (T : Tableau α) (column : Nat) (best : Option (Leaving α))
    (i : Nat) : Option (Leaving α) :=
  let entry := T.cell K i column
  if K.le entry o.tolerance then best
  else
    let ratio := K.div (T.rightSide K i) entry
    match best with
    | none => some ⟨i, ratio⟩
    | some b =>
      let tie := K.near ratio b.ratio K.zero
      if (!tie && K.lt ratio b.ratio) || (tie && T.prefers K o i b.row column) then
        some ⟨i, ratio⟩
      else best

/-- The row that leaves the basis when `column` enters, if any bounds it. -/
def leaving (o : Options α) (T : Tableau α) (column : Nat) : Option (Leaving α) :=
  (List.range T.rowCount).foldl (betterRow K o T column) none

-- The better row is the best so far or row `i`.
theorem betterRow_lt {o : Options α} {T : Tableau α} {column : Nat} {best : Option (Leaving α)}
    (hbest : ∀ b ∈ best, b.row < T.rowCount) {i : Nat} (hi : i < T.rowCount) :
    ∀ b ∈ betterRow K o T column best i, b.row < T.rowCount := by
  intro b hb
  unfold betterRow at hb
  grind

theorem leaving_lt {o : Options α} {T : Tableau α} {column : Nat} {l : Leaving α}
    (h : T.leaving K o column = some l) : l.row < T.rowCount := by
  have hfold : ∀ (rows : List Nat) (best : Option (Leaving α)),
      (∀ i ∈ rows, i < T.rowCount) → (∀ b ∈ best, b.row < T.rowCount) →
      ∀ b ∈ rows.foldl (betterRow K o T column) best, b.row < T.rowCount := by
    intro rows
    induction rows with
    | nil => intro best _ hbest; exact hbest
    | cons i rest ih =>
        intro best hrows hbest
        rw [List.foldl_cons]
        exact ih _ (fun j hj => hrows j (List.mem_cons_of_mem i hj))
          (betterRow_lt K hbest (hrows i List.mem_cons_self))
  exact hfold _ none (fun i hi => List.mem_range.mp hi) (fun b hb => nomatch hb) l h

end Tableau

end SimplexMethod
