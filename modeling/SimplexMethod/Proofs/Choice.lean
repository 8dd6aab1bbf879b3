import SimplexMethod.Proofs.Entries

/-!
# What the choices guarantee

The entering column and the leaving row, described by what is true of them.

Both are found by a search through all candidates that keeps the best so far, and
nothing is assumed of the numbers at first: a comparison is any Boolean function.
What the search for the leaving row can promise is then whatever relation of a
row to the best one survives its two steps, a row taking the place of the best
and a row failing to. `Leads` is the invariant with that relation as a
parameter, and `leads_search` the induction.

In exact arithmetic without relative epsilon a tie is an equality, and the
relation can be chosen. Taking the order of the ratios shows that the ratio of
the leaving row is least. Taking "does not beat" shows that no row with the same
ratio is preferred to it, provided the preference of the row rule is an order.

## Main definitions

* `Tableau.Eligible`: A row that may leave the basis.
* `Tableau.ratioOf`: Its right hand side divided by its entry.
* `Tableau.Beats`: A row that takes the place of another.
* `Tableau.Leads`: What is known of the best row so far.

## Theorems

* `Tableau.leads_search`: The search keeps what its two steps keep.
* `Tableau.leaving_outcome`, `Tableau.leaving_eq_none_iff_eligible`: What is known of the
  outcome in any case.
* `Tableau.entering_eq_none`, `Tableau.entering_eq_some`: Reduced costs.
* `Tableau.firstEligible_least`: The first rule skips no candidate.
* `Tableau.leaving_eq_none`, `Tableau.leaving_eq_some`: Column entries.
* `Tableau.leaving_ratio_eq`, `Tableau.leaving_ratio_le`: The ratio of the leaving
  row is its own, and least.
* `Tableau.leaving_not_preferred`: No tied row is preferred to it.
-/

namespace SimplexMethod

theorem Arithmetic.abs_exact {ε : Rat} (x : Rat) : (Arithmetic.exact ε).abs x = |x| := by
  by_cases hneg : x < 0
  · exact (if_pos hneg).trans (abs_of_neg hneg).symm
  · exact (if_neg hneg).trans (abs_of_nonneg (not_lt.mp hneg)).symm

namespace Tableau

section Search

variable {α : Type} (K : Arithmetic α) (o : Options α) (T : Tableau α) (column : Nat)

/-- A row whose entry in the entering column does not count as zero or less. -/
def Eligible (i : Nat) : Prop := K.le (T.cell K i column) o.tolerance = false

/-- The right hand side of a row divided by its entry in the entering column. -/
def ratioOf (i : Nat) : α := K.div (T.rightSide K i) (T.cell K i column)

/-- Row `i` takes the place of row `b`: its ratio is smaller, or ties and the row
    rule prefers it. -/
def Beats (i b : Nat) : Prop :=
  let tie := K.near (T.ratioOf K column i) (T.ratioOf K column b) K.zero
  ((!tie && K.lt (T.ratioOf K column i) (T.ratioOf K column b)) ||
    (tie && T.prefers K o i b column)) = true

/-- What is known of the best row after the rows below `n` have been seen: all of
    them stand in the relation `R` to it. -/
def Leads (R : Nat → Nat → Prop) (n : Nat) : Option (Leaving α) → Prop
  | none => ∀ i < n, ¬ T.Eligible K o column i
  | some b => b.row < n ∧ T.Eligible K o column b.row ∧ b.ratio = T.ratioOf K column b.row ∧
      ∀ i < n, T.Eligible K o column i → R i b.row

variable {K o T column}

theorem betterRow_of_not_eligible {best : Option (Leaving α)} {i : Nat}
    (hi : ¬ T.Eligible K o column i) : betterRow K o T column best i = best := by
  have hle : K.le (T.cell K i column) o.tolerance = true := Bool.not_eq_false _ ▸ hi
  simp only [betterRow, hle, if_true]

theorem betterRow_none {i : Nat} (hi : T.Eligible K o column i) :
    betterRow K o T column none i = some ⟨i, T.ratioOf K column i⟩ := by
  have hle : K.le (T.cell K i column) o.tolerance = false := hi
  simp only [betterRow, hle, Bool.false_eq_true, if_false, ratioOf]

theorem betterRow_of_beats {b : Leaving α} {i : Nat} (hi : T.Eligible K o column i)
    (hb : b.ratio = T.ratioOf K column b.row) (hbeats : T.Beats K o column i b.row) :
    betterRow K o T column (some b) i = some ⟨i, T.ratioOf K column i⟩ := by
  have hle : K.le (T.cell K i column) o.tolerance = false := hi
  simp only [betterRow, hle, Bool.false_eq_true, if_false, hb]
  exact if_pos hbeats

theorem betterRow_of_not_beats {b : Leaving α} {i : Nat} (hi : T.Eligible K o column i)
    (hb : b.ratio = T.ratioOf K column b.row) (hbeats : ¬ T.Beats K o column i b.row) :
    betterRow K o T column (some b) i = some b := by
  have hle : K.le (T.cell K i column) o.tolerance = false := hi
  simp only [betterRow, hle, Bool.false_eq_true, if_false, hb]
  exact if_neg hbeats

-- The search keeps what its two steps keep. Rows are seen in order, so a row that
-- takes the place of the best comes after all that were compared with it.
theorem leads_search {R : Nat → Nat → Prop}
    (hself : ∀ i, T.Eligible K o column i → R i i)
    (hbeats : ∀ i b j, T.Eligible K o column i → T.Eligible K o column b →
      T.Eligible K o column j → i < j → b < j → T.Beats K o column j b → R i b → R i j)
    (hfails : ∀ b j, T.Eligible K o column b → T.Eligible K o column j → b < j →
      ¬ T.Beats K o column j b → R j b) (n : Nat) :
    T.Leads K o column R n ((List.range n).foldl (betterRow K o T column) none) := by
  induction n with
  | zero => intro i hi; omega
  | succ n ih =>
      rw [List.range_succ, List.foldl_append, List.foldl_cons, List.foldl_nil]
      by_cases hn : T.Eligible K o column n
      · cases hbest : (List.range n).foldl (betterRow K o T column) none with
        | none =>
            -- The first eligible row: none before it has to be compared.
            rw [hbest] at ih
            rw [betterRow_none hn]
            refine ⟨Nat.lt_succ_self n, hn, rfl, fun i hi heligible => ?_⟩
            by_cases hin : i = n
            · rw [hin]
              exact hself n hn
            · exact absurd heligible (ih i (by omega))
        | some b =>
            rw [hbest] at ih
            rcases ih with ⟨hrow, hb, hratio, hall⟩
            by_cases hwins : T.Beats K o column n b.row
            · -- The new row wins, and what stood in relation to the old one passes on.
              rw [betterRow_of_beats hn hratio hwins]
              refine ⟨Nat.lt_succ_self n, hn, rfl, fun i hi heligible => ?_⟩
              by_cases hin : i = n
              · rw [hin]
                exact hself n hn
              · have hlt : i < n := by omega
                exact hbeats i b.row n heligible hb hn hlt hrow hwins (hall i hlt heligible)
            · -- The old row stays, and only the new one is to be compared with it.
              rw [betterRow_of_not_beats hn hratio hwins]
              refine ⟨Nat.lt_succ_of_lt hrow, hb, hratio, fun i hi heligible => ?_⟩
              by_cases hin : i = n
              · rw [hin]
                exact hfails b.row n hb hn hrow hwins
              · exact hall i (by omega) heligible
      · rw [betterRow_of_not_eligible hn]
        -- A row that is not eligible extends every statement about eligible ones.
        have hlt : ∀ i < n + 1, T.Eligible K o column i → i < n := by
          intro i hi heligible
          rcases Nat.lt_or_eq_of_le (Nat.le_of_lt_succ hi) with hlt | heq
          · exact hlt
          · exact absurd (heq ▸ heligible) hn
        cases hbest : (List.range n).foldl (betterRow K o T column) none with
        | none =>
            rw [hbest] at ih
            exact fun i hi heligible => ih i (hlt i hi heligible) heligible
        | some b =>
            rw [hbest] at ih
            rcases ih with ⟨hrow, hb, hratio, hall⟩
            exact ⟨Nat.lt_succ_of_lt hrow, hb, hratio,
              fun i hi heligible => hall i (hlt i hi heligible) heligible⟩

-- What the search says of the leaving row, if there is one.
theorem leads_leaving {R : Nat → Nat → Prop} {l : Leaving α}
    (hself : ∀ i, T.Eligible K o column i → R i i)
    (hbeats : ∀ i b j, T.Eligible K o column i → T.Eligible K o column b →
      T.Eligible K o column j → i < j → b < j → T.Beats K o column j b → R i b → R i j)
    (hfails : ∀ b j, T.Eligible K o column b → T.Eligible K o column j → b < j →
      ¬ T.Beats K o column j b → R j b) (h : T.leaving K o column = some l) :
    ∀ i < T.rowCount, T.Eligible K o column i → R i l.row := by
  have hleads := leads_search hself hbeats hfails T.rowCount
  rw [← leaving, h] at hleads
  exact hleads.2.2.2

-- The search itself, with no row compared to another: none is eligible, or the
-- leaving row is, and its ratio is kept with it.
variable (K o T column) in
theorem leads_outcome : T.Leads K o column (fun _ _ => True) T.rowCount (T.leaving K o column) :=
  leads_search (fun _ _ => trivial) (fun _ _ _ _ _ _ _ _ _ _ => trivial)
    (fun _ _ _ _ _ _ => trivial) T.rowCount

theorem leaving_outcome {l : Leaving α} (h : T.leaving K o column = some l) :
    T.Eligible K o column l.row ∧ l.ratio = T.ratioOf K column l.row := by
  have hleads := leads_outcome K o T column
  rw [h] at hleads
  exact ⟨hleads.2.1, hleads.2.2.1⟩

theorem leaving_eq_none_iff_eligible :
    T.leaving K o column = none ↔ ∀ i < T.rowCount, ¬ T.Eligible K o column i := by
  constructor
  · intro h
    have hleads := leads_outcome K o T column
    rwa [h] at hleads
  · intro h
    cases hleaving : T.leaving K o column with
    | none => rfl
    | some l => exact absurd (leaving_outcome hleaving).1 (h l.row (leaving_lt K hleaving))

end Search

section Entering

variable {α : Type} (K : Arithmetic α) (tolerance : α) (T : Tableau α)

-- The most negative column so far, or that all columns so far are too large.
theorem mostNegative_search (n : Nat) :
    match (List.range n).foldl (betterColumn K tolerance T) none with
    | none => ∀ j < n, K.le (K.neg tolerance) (T.reducedCost K j) = true
    | some b => K.le (K.neg tolerance) (T.reducedCost K b) = false := by
  induction n with
  | zero => intro j hj; omega
  | succ n ih =>
      rw [List.range_succ, List.foldl_append, List.foldl_cons, List.foldl_nil]
      cases hle : K.le (K.neg tolerance) (T.reducedCost K n) with
      | true =>
          have hskip : ∀ best, betterColumn K tolerance T best n = best := by
            intro best
            simp only [betterColumn, hle, if_true]
          rw [hskip]
          cases hbest : (List.range n).foldl (betterColumn K tolerance T) none with
          | none =>
              rw [hbest] at ih
              intro j hj
              by_cases hjn : j = n
              · rw [hjn, hle]
              · exact ih j (by omega)
          | some b =>
              rw [hbest] at ih
              exact ih
      | false =>
          -- The new column or the old one is chosen, and both are small enough.
          cases hbest : (List.range n).foldl (betterColumn K tolerance T) none with
          | none => simp only [betterColumn, hle, Bool.false_eq_true, if_false]
          | some b =>
              rw [hbest] at ih
              simp only [betterColumn, hle, Bool.false_eq_true, if_false]
              cases K.lt (T.reducedCost K n) (T.reducedCost K b) with
              | true => simp only [if_true, hle]
              | false => simp only [Bool.false_eq_true, if_false]; exact ih

end Entering

section Exact

variable {ε : Rat} {o : Options Rat} {T : Tableau Rat} {column : Nat}

/-- If no column enters, no reduced cost is below the threshold. -/
theorem entering_eq_none (h : T.entering (.exact ε) o = none) {j : Nat}
    (hj : j < T.columnCount) : -o.tolerance ≤ T.entry T.rowCount j := by
  unfold entering at h
  split at h
  · have hnot := List.find?_eq_none.mp h j (List.mem_range.mpr hj)
    simp only [Arithmetic.exact_lt, Arithmetic.exact_neg, reducedCost_exact,
      decide_eq_true_eq] at hnot
    exact not_lt.mp hnot
  · have hsearch := mostNegative_search (.exact ε) o.tolerance T T.columnCount
    rw [← mostNegative, h] at hsearch
    exact of_decide_eq_true (hsearch j hj)

/-- The reduced cost of the entering column is below the threshold. -/
theorem entering_eq_some (h : T.entering (.exact ε) o = some column) :
    column < T.columnCount ∧ T.entry T.rowCount column < -o.tolerance := by
  refine ⟨entering_lt (.exact ε) h, ?_⟩
  unfold entering at h
  split at h
  · have hfound := List.find?_some h
    exact of_decide_eq_true hfound
  · have hsearch := mostNegative_search (.exact ε) o.tolerance T T.columnCount
    rw [← mostNegative, h] at hsearch
    exact not_le.mp (of_decide_eq_false hsearch)

/-- The first rule skips no column below the threshold. -/
theorem firstEligible_least (hrule : o.columnRule = .firstEligible)
    (h : T.entering (.exact ε) o = some column) {j : Nat} (hj : j < column) :
    -o.tolerance ≤ T.entry T.rowCount j := by
  rw [entering, hrule] at h
  rcases List.find?_range_eq_some.mp h with ⟨_, _, hnot⟩
  have hj := hnot j hj
  simp only [Arithmetic.exact_lt, Arithmetic.exact_neg, reducedCost_exact, Bool.not_eq_true',
    decide_eq_false_iff_not] at hj
  exact not_lt.mp hj

-- Without relative epsilon, only equal numbers are near.
theorem near_exact (x y : Rat) : (Arithmetic.exact 0).near x y 0 = decide (x = y) := by
  simp only [Arithmetic.near, Arithmetic.exact_sub, Arithmetic.exact_lt, Arithmetic.exact_le,
    Arithmetic.exact_mul, Arithmetic.exact_relativeEpsilon, Arithmetic.abs_exact, zero_mul]
  rw [decide_eq_false (not_lt.mpr (abs_nonneg _)), Bool.false_or, decide_eq_decide,
    abs_nonpos_iff, sub_eq_zero]

theorem eligible_exact {i : Nat} :
    T.Eligible (.exact ε) o column i ↔ o.tolerance < T.entry i column := by
  rw [Eligible, Arithmetic.exact_le, cell_exact, decide_eq_false_iff_not, not_le]

theorem ratioOf_exact (i : Nat) :
    T.ratioOf (.exact ε) column i = T.constant i / T.entry i column := rfl

-- Without relative epsilon, the smaller ratio wins and equal ones go to the
-- preferred row.
theorem beats_exact {i b : Nat} :
    T.Beats (.exact 0) o column i b ↔
      T.constant i / T.entry i column < T.constant b / T.entry b column ∨
        T.constant i / T.entry i column = T.constant b / T.entry b column ∧
          T.prefers (.exact 0) o i b column = true := by
  simp only [Beats, ratioOf_exact, Arithmetic.exact_zero, near_exact, Arithmetic.exact_lt]
  by_cases htie : T.constant i / T.entry i column = T.constant b / T.entry b column
  · simp only [htie, decide_true, Bool.not_true, Bool.false_and, Bool.false_or, Bool.true_and,
      lt_irrefl, false_or, true_and]
  · simp only [htie, decide_false, Bool.not_false, Bool.true_and, Bool.false_and, Bool.or_false,
      decide_eq_true_eq, false_and, or_false]

/-- If no row leaves, no entry of the column exceeds the tolerance. -/
theorem leaving_eq_none (h : T.leaving (.exact ε) o column = none) {i : Nat}
    (hi : i < T.rowCount) : T.entry i column ≤ o.tolerance :=
  not_lt.mp fun hlt => leaving_eq_none_iff_eligible.mp h i hi (eligible_exact.mpr hlt)

/-- The entry of the leaving row exceeds the tolerance. -/
theorem leaving_eq_some {l : Leaving Rat} (h : T.leaving (.exact ε) o column = some l) :
    l.row < T.rowCount ∧ o.tolerance < T.entry l.row column :=
  ⟨leaving_lt (.exact ε) h, eligible_exact.mp (leaving_outcome h).1⟩

-- The ratio that is kept with the leaving row is its own.
theorem leaving_ratio_eq {l : Leaving Rat} (h : T.leaving (.exact ε) o column = some l) :
    l.ratio = T.constant l.row / T.entry l.row column :=
  (leaving_outcome h).2.trans (ratioOf_exact l.row)

/-- The ratio of the leaving row is least, whatever rule breaks ties. -/
theorem leaving_ratio_le {l : Leaving Rat} (h : T.leaving (.exact 0) o column = some l) {i : Nat}
    (hi : i < T.rowCount) (hentry : o.tolerance < T.entry i column) :
    T.constant l.row / T.entry l.row column ≤ T.constant i / T.entry i column := by
  refine leads_leaving (R := fun i b => T.constant b / T.entry b column ≤
    T.constant i / T.entry i column) (fun i _ => le_refl _) ?_ ?_ h i hi (eligible_exact.mpr hentry)
  · intro i b j _ _ _ _ _ hbeats hle
    rcases beats_exact.mp hbeats with hlt | ⟨heq, _⟩
    · exact le_trans (le_of_lt hlt) hle
    · rw [heq]
      exact hle
  · intro b j _ _ _ hfails
    exact not_lt.mp fun hlt => hfails (beats_exact.mpr (Or.inl hlt))

/-- If the row rule prefers by a strict order, no row with the same ratio is
    preferred to the leaving row. -/
theorem leaving_not_preferred {l : Leaving Rat} (h : T.leaving (.exact 0) o column = some l)
    (hirrefl : ∀ i, T.prefers (.exact 0) o i i column = false)
    (htrans : ∀ i j k, T.prefers (.exact 0) o i j column = true →
      T.prefers (.exact 0) o j k column = true → T.prefers (.exact 0) o i k column = true)
    {i : Nat} (hi : i < T.rowCount) (hentry : o.tolerance < T.entry i column)
    (htie : T.constant i / T.entry i column = T.constant l.row / T.entry l.row column) :
    T.prefers (.exact 0) o i l.row column = false := by
  have hnot : ¬ T.Beats (.exact 0) o column i l.row := by
    refine leads_leaving (R := fun i b => ¬ T.Beats (.exact 0) o column i b) ?_ ?_ ?_ h i hi
      (eligible_exact.mpr hentry)
    · intro i _ hself
      rcases beats_exact.mp hself with hlt | ⟨_, hprefers⟩
      · exact lt_irrefl _ hlt
      · rw [hirrefl i] at hprefers
        exact Bool.false_ne_true hprefers
    · -- What beats the new best row would have beaten the old one.
      intro i b j _ _ _ _ _ hjb hib hij
      refine hib (beats_exact.mpr ?_)
      rcases beats_exact.mp hjb with hlt | ⟨heq, hprefers⟩
      · rcases beats_exact.mp hij with hlt' | ⟨heq', _⟩
        · exact Or.inl (lt_trans hlt' hlt)
        · exact Or.inl (heq' ▸ hlt)
      · rcases beats_exact.mp hij with hlt' | ⟨heq', hprefers'⟩
        · exact Or.inl (heq ▸ hlt')
        · exact Or.inr ⟨heq'.trans heq, htrans i j b hprefers' hprefers⟩
    · exact fun b j _ _ _ hfails => hfails
  rw [beats_exact] at hnot
  cases hprefers : T.prefers (.exact 0) o i l.row column with
  | false => rfl
  | true => exact absurd (Or.inr ⟨htie, hprefers⟩) hnot

end Exact

end Tableau

end SimplexMethod
