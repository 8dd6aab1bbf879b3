import Mathlib.Tactic.Linarith
import SimplexMethod.Proofs.Vertices

/-!
# Ratios that nearly tie

What the ratio test keeps of the least ratio when ties allow for rounding.

With a relative epsilon two ratios tie when they differ by no more than four roundings
of their sum. Being near in this sense is not transitive, and the search compares a row
only with the best one so far, whose ratio it keeps. When a tie goes to the later row,
the ratio that is kept may grow, and the next row is compared with the larger one. Row by
row, the search can walk away from the least ratio along a chain of ties, until the row
it ends with does not tie with the first any more. Both rules that decide ties between
rows do this. Three rows are enough, and the method itself gets there.

What is true is this. The rule that never prefers a later row does not drift, since it
keeps a ratio until a row wins without a tie. Neither does any other rule where ties of
the rows that bound the column happen to be transitive. And a walk is as long as the
search at most: each row costs one factor, so that the ratio which is kept exceeds the
least one by no more than a power of that factor.

Right hand sides that are not negative are needed for all of this, as the sum of two
ratios measures them only if both have the same sign.

## Main definitions

* `Tableau.Bounds`, `Tableau.Ties`: Rows that bound a column, and ties between them.
* `Tableau.TiesTransitive`: Ties of the rows that bound a column are transitive.
* `ramp`: Three limits one tie apart.

## Theorems

* `Arithmetic.near_of_between`: What lies between two near numbers is near.
* `Arithmetic.le_of_near`: Near numbers are a factor apart.
* `Tableau.leaving_le_or_ties`: Without chains of ties, the ratio that is kept is not
  greater than any other, or ties with it.
* `Tableau.leaving_drift_le`: How far chains of ties can lead.
* `leaving_near_least`: What the search keeps of the least ratio.
* `leaving_drifts_ramp`: It need not be near it.
-/

namespace SimplexMethod

namespace Arithmetic

variable {ε x y z : Rat}

theorem near_exact_iff : (exact ε).near x y 0 = true ↔ |x - y| ≤ ε * |x + y| * 4 := by
  have hfour : (exact ε).decimal 4 0 = 4 := by simp [exact]
  have hgap : ¬ |x - y| < 0 := not_lt.mpr (abs_nonneg (x - y))
  simp only [near, exact_sub, exact_add, exact_mul, exact_lt, exact_le, exact_relativeEpsilon,
    abs_exact, hfour, Bool.or_eq_true, decide_eq_true_eq, hgap, false_or]

theorem near_comm : (exact ε).near x y 0 = true ↔ (exact ε).near y x 0 = true := by
  rw [near_exact_iff, near_exact_iff, abs_sub_comm, add_comm]

-- Moving the lower of two near numbers up brings them closer and makes the sum larger.
theorem near_of_between (hε : 0 ≤ ε) (hx : 0 ≤ x) (hxy : x ≤ y) (hyz : y ≤ z)
    (h : (exact ε).near z x 0 = true) : (exact ε).near z y 0 = true := by
  rw [near_exact_iff, abs_of_nonneg (by linarith), abs_of_nonneg (by linarith)] at h ⊢
  have hsum : ε * (z + x) ≤ ε * (z + y) := mul_le_mul_of_nonneg_left (by linarith) hε
  linarith

theorem le_of_near (hx : 0 ≤ x) (hy : 0 ≤ y) (h : (exact ε).near x y 0 = true) :
    x * (1 - 4 * ε) ≤ y * (1 + 4 * ε) := by
  rw [near_exact_iff, abs_of_nonneg (add_nonneg hx hy)] at h
  have hgap := le_trans (le_abs_self (x - y)) h
  linarith

end Arithmetic

-- A factor that is spent once more only weakens a bound.
theorem mul_pow_le_mul_pow {x y s t : Rat} {m n : Nat} (hs : 0 ≤ s) (hst : s ≤ t) (hx : 0 ≤ x)
    (hmn : m ≤ n) (h : x * s ^ m ≤ y * t ^ m) : x * s ^ n ≤ y * t ^ n := by
  have ht : 0 ≤ t := le_trans hs hst
  have hpow : s ^ (n - m) ≤ t ^ (n - m) := pow_le_pow_left₀ hs hst _
  calc x * s ^ n = x * s ^ m * s ^ (n - m) := by rw [mul_assoc, ← pow_add, Nat.add_sub_cancel' hmn]
    _ ≤ x * s ^ m * t ^ (n - m) := mul_le_mul_of_nonneg_left hpow (mul_nonneg hx (pow_nonneg hs _))
    _ ≤ y * t ^ m * t ^ (n - m) := mul_le_mul_of_nonneg_right h (pow_nonneg ht _)
    _ = y * t ^ n := by rw [mul_assoc, ← pow_add, Nat.add_sub_cancel' hmn]

namespace Tableau

variable {ε : Rat} {o : Options Rat} {T : Tableau Rat} {column : Nat} {l : Leaving Rat}

/-- The row bounds the column. -/
structure Bounds (T : Tableau Rat) (o : Options Rat) (column i : Nat) : Prop where
  row_lt : i < T.rowCount
  entry_gt : o.tolerance < T.entry i column

/-- The ratios of two rows tie. -/
def Ties (T : Tableau Rat) (ε : Rat) (column i k : Nat) : Prop :=
  (Arithmetic.exact ε).near (T.ratioOf (.exact ε) column i) (T.ratioOf (.exact ε) column k) 0 = true

/-- Ties of the rows that bound the column are transitive. -/
def TiesTransitive (T : Tableau Rat) (ε : Rat) (o : Options Rat) (column : Nat) : Prop :=
  ∀ i j k, T.Bounds o column i → T.Bounds o column j → T.Bounds o column k →
    T.Ties ε column i j → T.Ties ε column j k → T.Ties ε column i k

theorem Ties.symm {i k : Nat} (h : T.Ties ε column i k) : T.Ties ε column k i :=
  Arithmetic.near_comm.mp h

theorem beats_iff {i b : Nat} :
    T.Beats (.exact ε) o column i b ↔
      (¬ T.Ties ε column i b ∧ T.ratioOf (.exact ε) column i < T.ratioOf (.exact ε) column b) ∨
        (T.Ties ε column i b ∧ T.prefers (.exact ε) o i b column = true) := by
  simp [Beats, Ties]

-- The search, for a relation that is only known of rows.
theorem leads_rows {R : Nat → Nat → Prop} (hself : ∀ i, T.Bounds o column i → R i i)
    (hbeats : ∀ i b j, T.Bounds o column i → T.Bounds o column b → T.Bounds o column j → b < j →
      T.Beats (.exact ε) o column j b → R i b → R i j)
    (hfails : ∀ b j, T.Bounds o column b → T.Bounds o column j →
      ¬ T.Beats (.exact ε) o column j b → R j b)
    (h : T.leaving (.exact ε) o column = some l) {i : Nat} (hi : T.Bounds o column i) :
    R i l.row := by
  have hrows := leads_leaving (R := fun i b => i < T.rowCount → b < T.rowCount → R i b)
    (fun i heligible hi _ => hself i ⟨hi, eligible_exact.mp heligible⟩)
    (fun i b j hei heb hej _ hplace hwins hib hi hj =>
      hbeats i b j ⟨hi, eligible_exact.mp hei⟩ ⟨by omega, eligible_exact.mp heb⟩
        ⟨hj, eligible_exact.mp hej⟩ hplace hwins (hib hi (by omega)))
    (fun b j heb hej _ hloses hj hb =>
      hfails b j ⟨hb, eligible_exact.mp heb⟩ ⟨hj, eligible_exact.mp hej⟩ hloses) h
  exact hrows i hi.row_lt (eligible_exact.mpr hi.entry_gt) hi.row_lt (leaving_eq_some h).1

-- A row that does not win against the best one ties with it or is not below it.
theorem ties_or_le_of_not_beats {b j : Nat} (h : ¬ T.Beats (.exact ε) o column j b) :
    T.Ties ε column b j ∨ T.ratioOf (.exact ε) column b ≤ T.ratioOf (.exact ε) column j := by
  rw [beats_iff, not_or, not_and] at h
  by_cases htie : T.Ties ε column j b
  · exact Or.inl htie.symm
  · exact Or.inr (not_lt.mp (h.1 htie))

section Nonnegative

variable (htolerance : 0 ≤ o.tolerance) (hconstants : ∀ i < T.rowCount, 0 ≤ T.constant i)

include htolerance hconstants

theorem Bounds.ratioOf_nonneg {i : Nat} (hi : T.Bounds o column i) :
    0 ≤ T.ratioOf (.exact ε) column i :=
  div_nonneg (hconstants i hi.row_lt) (le_of_lt (lt_of_le_of_lt htolerance hi.entry_gt))

/-- The ratio that is kept is not greater than that of any row which bounds the column, or
    ties with it, provided that a tie which goes to the later row leads no further away. -/
theorem leaving_le_or_ties (hε : 0 ≤ ε)
    (hchain : ∀ i b j, T.Bounds o column i → T.Bounds o column b → T.Bounds o column j →
      T.prefers (.exact ε) o j b column = true → T.Ties ε column j b → T.Ties ε column b i →
      T.Ties ε column j i)
    (h : T.leaving (.exact ε) o column = some l) {i : Nat} (hi : T.Bounds o column i) :
    T.ratioOf (.exact ε) column l.row ≤ T.ratioOf (.exact ε) column i ∨
      T.Ties ε column l.row i := by
  refine leads_rows (R := fun i b =>
    T.ratioOf (.exact ε) column b ≤ T.ratioOf (.exact ε) column i ∨ T.Ties ε column b i)
    (fun i _ => Or.inl (le_refl _)) ?_ ?_ h hi
  · intro i b j hi hb hj _ hbeats hbest
    by_cases hle : T.ratioOf (.exact ε) column j ≤ T.ratioOf (.exact ε) column i
    · exact Or.inl hle
    · have hgt := not_le.mp hle
      rcases beats_iff.mp hbeats with ⟨hapart, hlt⟩ | ⟨htie, hprefers⟩
      · -- The new row wins without a tie, so the old one ties with nothing below it.
        rcases hbest with hbest | hnear
        · exact absurd (le_trans (le_of_lt hlt) hbest) hle
        · refine absurd (Ties.symm ?_) hapart
          exact Arithmetic.near_of_between hε (hi.ratioOf_nonneg htolerance hconstants)
            (le_of_lt hgt) (le_of_lt hlt) hnear
      · rcases hbest with hbest | hnear
        · exact Or.inr (Arithmetic.near_of_between hε
            (hb.ratioOf_nonneg htolerance hconstants) hbest (le_of_lt hgt) htie)
        · exact Or.inr (hchain i b j hi hb hj hprefers htie hnear)
  · intro b j _ _ hfails
    exact (ties_or_le_of_not_beats hfails).symm

/-- Every row that the search has passed adds one tie to the distance at most. -/
theorem leaving_drift_le (hε : 0 ≤ ε) (hsmall : 4 * ε ≤ 1)
    (h : T.leaving (.exact ε) o column = some l) {i : Nat} (hi : T.Bounds o column i) :
    T.ratioOf (.exact ε) column l.row * (1 - 4 * ε) ^ (l.row + 1) ≤
      T.ratioOf (.exact ε) column i * (1 + 4 * ε) ^ (l.row + 1) := by
  have hnonneg : ∀ {k}, T.Bounds o column k → 0 ≤ T.ratioOf (.exact ε) column k :=
    fun hk => hk.ratioOf_nonneg htolerance hconstants
  have hs : 0 ≤ 1 - 4 * ε := by linarith
  have hst : 1 - 4 * ε ≤ 1 + 4 * ε := by linarith
  -- The power is the place of the best row, since the rows that replaced one another on
  -- the way stand above it.
  refine leads_rows (R := fun i b => T.ratioOf (.exact ε) column b * (1 - 4 * ε) ^ (b + 1) ≤
    T.ratioOf (.exact ε) column i * (1 + 4 * ε) ^ (b + 1)) ?_ ?_ ?_ h hi
  · intro i hi
    exact mul_le_mul_of_nonneg_left (pow_le_pow_left₀ hs hst _) (hnonneg hi)
  · intro i b j hi hb hj hplace hbeats hbest
    have hstep : T.ratioOf (.exact ε) column j * (1 - 4 * ε) ≤
        T.ratioOf (.exact ε) column b * (1 + 4 * ε) := by
      rcases beats_iff.mp hbeats with ⟨_, hlt⟩ | ⟨htie, _⟩
      · exact mul_le_mul (le_of_lt hlt) hst hs (hnonneg hb)
      · exact Arithmetic.le_of_near (hnonneg hj) (hnonneg hb) htie
    refine mul_pow_le_mul_pow hs hst (hnonneg hj) (by omega : b + 2 ≤ j + 1) ?_
    calc T.ratioOf (.exact ε) column j * (1 - 4 * ε) ^ (b + 2)
        = T.ratioOf (.exact ε) column j * (1 - 4 * ε) * (1 - 4 * ε) ^ (b + 1) := by ring
      _ ≤ T.ratioOf (.exact ε) column b * (1 + 4 * ε) * (1 - 4 * ε) ^ (b + 1) :=
          mul_le_mul_of_nonneg_right hstep (pow_nonneg hs _)
      _ = T.ratioOf (.exact ε) column b * (1 - 4 * ε) ^ (b + 1) * (1 + 4 * ε) := by ring
      _ ≤ T.ratioOf (.exact ε) column i * (1 + 4 * ε) ^ (b + 1) * (1 + 4 * ε) :=
          mul_le_mul_of_nonneg_right hbest (le_trans hs hst)
      _ = T.ratioOf (.exact ε) column i * (1 + 4 * ε) ^ (b + 2) := by ring
  · intro b j hb hj hfails
    refine mul_pow_le_mul_pow hs hst (hnonneg hb) (by omega : 1 ≤ b + 1) ?_
    rw [pow_one, pow_one]
    rcases ties_or_le_of_not_beats hfails with htie | hle
    · exact Arithmetic.le_of_near (hnonneg hb) (hnonneg hj) htie
    · exact mul_le_mul hle hst hs (hnonneg hj)

end Nonnegative

end Tableau

open Tableau in
/-- What the ratio test keeps of the least ratio, in exact arithmetic with a relative
    epsilon, where right hand sides and tolerance are not negative. If the row rule never
    prefers a later row, or if ties of the rows that bound the column are transitive, the
    ratio of the leaving row ties with the least one. In any case it exceeds no ratio by
    more than one factor `(1 + 4 ε) / (1 - 4 ε)` for each row down to the leaving one. -/
theorem leaving_near_least {ε : Rat} (hε : 0 ≤ ε) (hsmall : 4 * ε ≤ 1) {o : Options Rat}
    (htolerance : 0 ≤ o.tolerance) {T : Tableau Rat}
    (hconstants : ∀ i < T.rowCount, 0 ≤ T.constant i) {column : Nat} {l : Leaving Rat}
    (h : T.leaving (.exact ε) o column = some l) :
    (o.rowRule = .lowestRow ∨ T.TiesTransitive ε o column → ∀ i, T.Bounds o column i →
      (∀ k, T.Bounds o column k →
        T.constant i / T.entry i column ≤ T.constant k / T.entry k column) →
      (Arithmetic.exact ε).near l.ratio (T.constant i / T.entry i column) 0 = true) ∧
    ∀ i, T.Bounds o column i → l.ratio * (1 - 4 * ε) ^ (l.row + 1) ≤
      T.constant i / T.entry i column * (1 + 4 * ε) ^ (l.row + 1) := by
  rw [leaving_ratio_eq h]
  refine ⟨fun hrule i hi hleast => ?_, fun i hi =>
    leaving_drift_le htolerance hconstants hε hsmall h hi⟩
  have hchain : ∀ i b j, T.Bounds o column i → T.Bounds o column b → T.Bounds o column j →
      T.prefers (.exact ε) o j b column = true → T.Ties ε column j b → T.Ties ε column b i →
      T.Ties ε column j i := by
    intro i b j hi hb hj hprefers hjb hbi
    rcases hrule with hrule | htransitive
    · simp [prefers, hrule] at hprefers
    · exact htransitive j b i hj hb hi hjb hbi
  rcases leaving_le_or_ties htolerance hconstants hε hchain h hi with hle | htie
  · -- The ratio that is kept is the least one itself.
    have hself := hleast l.row ⟨(leaving_eq_some h).1, (leaving_eq_some h).2⟩
    have heq : T.constant l.row / T.entry l.row column = T.constant i / T.entry i column :=
      le_antisymm hle hself
    rw [heq, Arithmetic.near_exact_iff, sub_self, abs_zero]
    positivity
  · exact htie

/-- Three limits, each of which is one tie above the one before. -/
def ramp : Program Rat where
  name := "ramp"
  sense := .maximize
  objective := #[1, 1, 3]
  matrix := #[#[0, 0, 1], #[0, 1, 1], #[1, 0, 1]]
  bounds := #[1, 1 + 1 / 2 ^ 49, 1 + 1 / 2 ^ 48]

-- The rule that prefers no row stays with the first.
theorem leaving_near_least_ramp :
    let T := Tableau.ofProgram (.exact (1 / 2 ^ 52)) ramp
    T.leaving (.exact (1 / 2 ^ 52)) Options.sharp 2 = some ⟨0, 1⟩ ∧
      (Arithmetic.exact (1 / 2 ^ 52)).near 1 (T.constant 0 / T.entry 0 2) 0 = true ∧
      ∀ i < 3, 1 * (1 - 4 * (1 / 2 ^ 52)) ≤
        T.constant i / T.entry i 2 * (1 + 4 * (1 / 2 ^ 52) : Rat) := by
  intro T
  have hleaving : T.leaving (.exact (1 / 2 ^ 52)) Options.sharp 2 = some ⟨0, 1⟩ := by
    decide +kernel
  have hbounds : ∀ i < 3, T.Bounds Options.sharp 2 i := fun i hi =>
    ⟨hi, (show ∀ i < 3, Options.sharp.tolerance < T.entry i 2 by decide +kernel) i hi⟩
  have hleast : ∀ k < 3, T.constant 0 / T.entry 0 2 ≤ T.constant k / T.entry k 2 := by
    decide +kernel
  rcases leaving_near_least (by norm_num) (by norm_num) (le_refl 0) (by decide +kernel) hleaving
    with ⟨hnear, hdrift⟩
  refine ⟨hleaving, hnear (Or.inl rfl) 0 (hbounds 0 (by omega)) fun k hk => hleast k hk.row_lt,
    fun i hi => ?_⟩
  have hfactor := hdrift i (hbounds i hi)
  rwa [Nat.zero_add, pow_one, pow_one] at hfactor

-- With ties that go to the row whose slack block comes first, the test walks up the ramp
-- at the origin already. With ties that go to the lowest basic column, the first two
-- pivots of the method order the basic columns against the rows, and the third makes the
-- same walk. The ratio at the top does not tie with the least one.
theorem leaving_drifts_ramp :
    let K := Arithmetic.exact (1 / 2 ^ 52)
    let lexicographic : Options Rat := { Options.sharp with rowRule := .lexicographic }
    let bland : Options Rat := { Options.sharp with
      columnRule := .firstEligible, rowRule := .lowestBasicColumn }
    let origin := Tableau.ofProgram K ramp
    let third := (ramp.trace K bland).stage 2
    ramp.accept K = .ok ramp ∧
      (∀ i < 3, 0 ≤ origin.constant i ∧ 0 ≤ third.constant i) ∧
      origin.leaving K lexicographic 2 = some ⟨2, 1 + 1 / 2 ^ 48⟩ ∧
      third.entering K bland = some 2 ∧ third.leaving K bland 2 = some ⟨2, 1 + 1 / 2 ^ 48⟩ ∧
      origin.constant 0 / origin.entry 0 2 = 1 ∧ third.constant 0 / third.entry 0 2 = 1 ∧
      (∀ i < 3, 1 ≤ origin.constant i / origin.entry i 2 ∧
        1 ≤ third.constant i / third.entry i 2) ∧
      K.near (1 + 1 / 2 ^ 48) 1 0 = false := by
  intro K lexicographic bland origin third
  have haccept : ramp.accept K = .ok ramp := Program.accept_eq_ok.mpr ⟨by decide +kernel, rfl⟩
  exact ⟨haccept, by decide +kernel, by decide +kernel, by decide +kernel, by decide +kernel,
    by decide +kernel, by decide +kernel, by decide +kernel, by decide +kernel⟩

end SimplexMethod
