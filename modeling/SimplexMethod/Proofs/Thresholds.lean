import SimplexMethod.Proofs.InfiniteRatios

/-!
# Thresholds

What the tests of the pivot choice let through that is not a number.

There are three tests. The first column rule takes a column whose reduced cost is below
the threshold. The second skips a column whose cost is not. The ratio test skips a row
whose entry does not exceed the tolerance. Among numbers to skip and to take are
opposites, and the two column rules see the same columns. A value that is not a number
fails every comparison, so a test that takes never takes it, and a test that skips never
skips it.

So each of the two column rules keeps half of what is said of both. The first lets no
column enter without a cost below the threshold, but may find a tableau optimal that has
a cost which is not a number. The second never does that, but may let such a column
enter. The ratio test is of the second sort. Once a value that is not a number is the best
so far nothing is less than it, and it is less than nothing itself, so it is chosen
exactly where it comes before all the others.

## Theorems

* `Tableau.firstEligible_eq_none_iff`, `Tableau.mostNegative_eq_none_iff`: When the rules
  find no column.
* `Tableau.mostNegative_nan_first`, `Tableau.leaving_nan_first`: What is not a number is
  chosen only if it comes first.
* `selection_thresholds`: What is known of the choices.
* `selection_misled_torrent`: Finite data can lead there.
-/

namespace SimplexMethod

namespace Tableau

variable {α : Type} {K : Arithmetic α} {kind : α → NumberKind}

section Columns

variable {tolerance : α} {T : Tableau α}

theorem firstEligible_eq_none_iff (hK : K.Extended kind) (htolerance : kind tolerance ≠ .nan) :
    firstEligible K tolerance T = none ↔ ∀ j < T.columnCount,
      kind (T.reducedCost K j) = .nan ∨ K.le (K.neg tolerance) (T.reducedCost K j) = true := by
  have hneg : kind (K.neg tolerance) ≠ .nan := mt hK.neg_nan htolerance
  rw [firstEligible, List.find?_eq_none]
  simp only [List.mem_range, Bool.not_eq_true]
  refine forall₂_congr fun j _ => ?_
  by_cases hnan : kind (T.reducedCost K j) = .nan
  · simp only [hnan, true_or, iff_true]
    exact hK.lt_eq_false_of_nan (Or.inl hnan)
  · simp only [hnan, false_or]
    exact (hK.le_iff hneg hnan).symm

theorem firstEligible_eq_some {column : Nat} (h : firstEligible K tolerance T = some column) :
    K.lt (T.reducedCost K column) (K.neg tolerance) = true := by
  unfold firstEligible at h
  have hfound := List.find?_some h
  exact hfound

-- The second rule skips, and so it stops at everything it cannot compare.
theorem mostNegative_eq_none_iff :
    mostNegative K tolerance T = none ↔
      ∀ j < T.columnCount, K.le (K.neg tolerance) (T.reducedCost K j) = true := by
  have hsearch := mostNegative_search K tolerance T T.columnCount
  rw [← mostNegative] at hsearch
  cases hbest : mostNegative K tolerance T with
  | none =>
      rw [hbest] at hsearch
      exact ⟨fun _ => hsearch, fun _ => rfl⟩
  | some b =>
      rw [hbest] at hsearch
      dsimp only at hsearch
      refine ⟨fun h => absurd h (Option.some_ne_none b), fun h => ?_⟩
      rw [h b (mostNegative_lt K hbest)] at hsearch
      exact absurd hsearch (by decide)

theorem mostNegative_eq_some {column : Nat} (h : mostNegative K tolerance T = some column) :
    K.le (K.neg tolerance) (T.reducedCost K column) = false := by
  have hsearch := mostNegative_search K tolerance T T.columnCount
  rwa [← mostNegative, h] at hsearch

-- The search so far ends at a value that is not a number only if it began there.
theorem mostNegative_search_nan (hK : K.Extended kind) (n : Nat) :
    ∀ b, (List.range n).foldl (betterColumn K tolerance T) none = some b →
      kind (T.reducedCost K b) = .nan →
      ∀ j < b, K.le (K.neg tolerance) (T.reducedCost K j) = true := by
  induction n with
  | zero => intro b h; exact absurd h (by simp)
  | succ n ih =>
      intro b h hnan
      have hsearch := mostNegative_search K tolerance T n
      rw [List.range_succ, List.foldl_append, List.foldl_cons, List.foldl_nil] at h
      generalize (List.range n).foldl (betterColumn K tolerance T) none = best at h hsearch ih
      unfold betterColumn at h
      dsimp only at h
      by_cases hskip : K.le (K.neg tolerance) (T.reducedCost K n) = true
      · rw [if_pos hskip] at h
        exact ih b h hnan
      · rw [if_neg hskip] at h
        cases best with
        | none =>
            rw [← Option.some.inj h]
            exact hsearch
        | some c =>
            dsimp only at h
            by_cases hless : K.lt (T.reducedCost K n) (T.reducedCost K c) = true
            · -- What is less than something is a number.
              rw [if_pos hless] at h
              rw [← Option.some.inj h] at hnan
              exact absurd hnan (hK.lt_number hless).1
            · rw [if_neg hless] at h
              exact ih b h hnan

theorem mostNegative_nan_first (hK : K.Extended kind) {column : Nat}
    (h : mostNegative K tolerance T = some column)
    (hnan : kind (T.reducedCost K column) = .nan) :
    ∀ j < column, K.le (K.neg tolerance) (T.reducedCost K j) = true :=
  mostNegative_search_nan hK T.columnCount column h hnan

end Columns

section Rows

variable {o : Options α} {T : Tableau α} {column : Nat}

theorem leaving_eq_none_iff_le :
    T.leaving K o column = none ↔
      ∀ i < T.rowCount, K.le (T.cell K i column) o.tolerance = true := by
  simp only [leaving_eq_none_iff_eligible, Eligible, Bool.not_eq_false]

-- A row whose ratio is not a number takes no other row's place.
theorem leaving_nan_first (hK : K.Extended kind) {l : Leaving α}
    (h : T.leaving K o column = some l) (hnan : kind (T.cell K l.row column) = .nan) :
    ∀ i < l.row, K.le (T.cell K i column) o.tolerance = true := by
  have hfirst : ∀ i < T.rowCount, T.Eligible K o column i →
      kind (T.cell K l.row column) = .nan → l.row ≤ i := by
    refine leads_leaving (R := fun i b => kind (T.cell K b column) = .nan → b ≤ i)
      (fun i _ _ => Nat.le_refl i) ?_ (fun b j _ _ hplace _ _ => Nat.le_of_lt hplace) h
    intro i b j _ _ _ _ _ hbeats _ hnan
    exact absurd hbeats (not_beats_of_nan hK (Or.inl (hK.div_nan hnan)))
  intro i hi
  have hrow := leaving_lt K h
  by_contra hle
  have heligible : T.Eligible K o column i := Bool.eq_false_iff.mpr hle
  have hplace := hfirst i (by omega) heligible hnan
  omega

end Rows

end Tableau

open Tableau in
/-- The tests of the pivot choice, in an arithmetic with values that are not numbers and
    for a tolerance that is not negative. By the first column rule no column enters exactly
    if every reduced cost that is a number reaches the threshold, and the cost of a column
    that enters is below it. By the second no column enters exactly if every cost reaches
    the threshold, and the cost of a column that enters is below it or is not a number and
    the first that does not reach it. No row leaves exactly if no entry of the column fails
    to stay within the tolerance, and the entry of a row that leaves exceeds it or is not a
    number and the first that does not stay within it. -/
theorem selection_thresholds {α : Type} {K : Arithmetic α} {kind : α → NumberKind}
    (hK : K.Extended kind) {o : Options α} (htolerance : K.le K.zero o.tolerance = true)
    (T : Tableau α) (column : Nat) :
    (o.columnRule = .firstEligible →
      (T.entering K o = none ↔ ∀ j < T.columnCount, kind (T.reducedCost K j) = .nan ∨
        K.le (K.neg o.tolerance) (T.reducedCost K j) = true) ∧
      ∀ j, T.entering K o = some j → K.lt (T.reducedCost K j) (K.neg o.tolerance) = true) ∧
    (o.columnRule = .mostNegative →
      (T.entering K o = none ↔ ∀ j < T.columnCount,
        K.le (K.neg o.tolerance) (T.reducedCost K j) = true) ∧
      ∀ j, T.entering K o = some j → K.lt (T.reducedCost K j) (K.neg o.tolerance) = true ∨
        kind (T.reducedCost K j) = .nan ∧
          ∀ k < j, K.le (K.neg o.tolerance) (T.reducedCost K k) = true) ∧
    (T.leaving K o column = none ↔ ∀ i < T.rowCount,
      K.le (T.cell K i column) o.tolerance = true) ∧
    ∀ l, T.leaving K o column = some l → K.lt o.tolerance (T.cell K l.row column) = true ∨
      kind (T.cell K l.row column) = .nan ∧
        ∀ i < l.row, K.le (T.cell K i column) o.tolerance = true := by
  have hnumber : kind o.tolerance ≠ .nan := (hK.le_number htolerance).2
  have hneg : kind (K.neg o.tolerance) ≠ .nan := mt hK.neg_nan hnumber
  refine ⟨fun hrule => ?_, fun hrule => ?_, leaving_eq_none_iff_le, fun l h => ?_⟩
  · simp only [entering, hrule]
    exact ⟨firstEligible_eq_none_iff hK hnumber, fun j => firstEligible_eq_some⟩
  · simp only [entering, hrule]
    refine ⟨mostNegative_eq_none_iff, fun j h => ?_⟩
    rcases hK.lt_of_not_le (mostNegative_eq_some h) with hlt | hnan | hnan
    · exact Or.inl hlt
    · exact absurd hnan hneg
    · exact Or.inr ⟨hnan, mostNegative_nan_first hK h hnan⟩
  · rcases hK.lt_of_not_le (leaving_outcome h).1 with hlt | hnan | hnan
    · exact Or.inl hlt
    · exact Or.inr ⟨hnan, leaving_nan_first hK h hnan⟩
    · exact absurd hnan hnumber

open Binary64

/-- A sheet on which the first cost and the first entry cannot be read. -/
def blot : Program Float where
  name := "blot"
  sense := .maximize
  objective := #[0 / 0, 1]
  matrix := #[#[0 / 0, 1], #[1, 1]]
  bounds := #[1, 1]

-- The first rule passes over the column, the second stops at it, and so does the ratio
-- test at its row.
theorem selection_thresholds_blot :
    let K := Arithmetic.binary64
    let o := Options.standard K
    let first : Options Float := { o with columnRule := .firstEligible }
    let T := Tableau.ofProgram K blot
    K.le K.zero o.tolerance = true ∧
      T.entering K first = some 1 ∧ K.lt (T.reducedCost K 1) (K.neg o.tolerance) = true ∧
      T.entering K o ≠ none ∧ kindOf (T.reducedCost K 0) = .nan ∧
      (∃ l, T.leaving K o 1 = some l ∧ K.lt o.tolerance (T.cell K l.row 1) = true) ∧
      T.leaving K o 0 ≠ none ∧ kindOf (T.cell K 0 0) = .nan := by
  intro K o first T
  have htolerance : K.le K.zero o.tolerance = true := by decide +kernel
  have hentering : T.entering K first = some 1 := by decide +kernel
  have hleaving : (T.leaving K o 1).isSome := by decide +kernel
  rcases Option.isSome_iff_exists.mp hleaving with ⟨l, hl⟩
  rcases selection_thresholds Arithmetic.extended_binary64 (o := first) htolerance T 0
    with ⟨hfirst, _⟩
  rcases selection_thresholds Arithmetic.extended_binary64 htolerance T 0
    with ⟨_, hmost, hnone, _⟩
  rcases selection_thresholds Arithmetic.extended_binary64 htolerance T 1 with ⟨_, _, _, hrow⟩
  -- No column and no row would mean that every cost and every entry compares.
  refine ⟨htolerance, hentering, (hfirst rfl).2 1 hentering,
    fun h => absurd ((hmost rfl).1.mp h) (by decide +kernel), by decide +kernel, ⟨l, hl, ?_⟩,
    fun h => absurd (hnone.mp h) (by decide +kernel), by decide +kernel⟩
  rcases hrow l hl with hlt | ⟨hnan, _⟩
  · exact hlt
  · have hnumbers : ∀ i < 2, kindOf (T.cell K i 1) ≠ .nan := by decide +kernel
    exact absurd hnan (hnumbers l.row (Tableau.leaving_lt K hl))

/-- The first variable is held at zero, and large numbers multiply once it has entered. -/
def torrent : Program Float where
  name := "torrent"
  sense := .maximize
  objective := #[1, 1e200]
  matrix := #[#[1, 0], #[1e200, 1]]
  bounds := #[0, 1]

-- On the sheet a column enters and a row leaves that pass neither test, though others do.
-- And where all data are finite, three pivots overflow: a cost is no number in the end,
-- which the first rule calls optimal and the second would not.
theorem selection_misled_torrent :
    let K := Arithmetic.binary64
    let o := Options.standard K
    let first : Options Float := { o with columnRule := .firstEligible }
    let T := Tableau.ofProgram K blot
    let S := (torrent.trace K first).last
    blot.accept K = .ok blot ∧ torrent.accept K = .ok torrent ∧
      T.entering K o = some 0 ∧ K.lt (T.reducedCost K 0) (K.neg o.tolerance) = false ∧
      K.lt (T.reducedCost K 1) (K.neg o.tolerance) = true ∧
      (T.leaving K o 0).map (·.row) = some 0 ∧ K.lt o.tolerance (T.cell K 0 0) = false ∧
      K.lt o.tolerance (T.cell K 1 0) = true ∧
      (∀ i < 3, ∀ j < 5, kindOf ((Tableau.ofProgram K torrent).cell K i j) = .finite) ∧
      S.status = .optimal ∧ S.entering K first = none ∧ S.entering K o = some 1 ∧
      K.le (K.neg o.tolerance) (S.reducedCost K 1) = false ∧ kindOf S.value = .nan := by
  intro K o first T S
  have hblot : blot.accept K = .ok blot :=
    Program.accept_eq_ok.mpr ⟨Option.isNone_iff_eq_none.mp (by decide +kernel), rfl⟩
  have htorrent : torrent.accept K = .ok torrent :=
    Program.accept_eq_ok.mpr ⟨Option.isNone_iff_eq_none.mp (by decide +kernel), rfl⟩
  exact ⟨hblot, htorrent, by decide +kernel, by decide +kernel, by decide +kernel,
    by decide +kernel, by decide +kernel, by decide +kernel, by decide +kernel,
    by decide +kernel, by decide +kernel, by decide +kernel, by decide +kernel,
    by decide +kernel⟩

end SimplexMethod
