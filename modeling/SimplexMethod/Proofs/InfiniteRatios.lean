import SimplexMethod.Proofs.Choice
import SimplexMethod.Proofs.SpecialValues

/-!
# Infinite ratios

What the ratio test does when a ratio is not finite.

A right hand side may be infinite, and a quotient of finite numbers may be too large for
them. The row then bounds the entering column by nothing at all, and a row with a finite
ratio should win against it. But ratios are compared by a tie test first, and an infinity
is near every finite number. So a finite and an infinite ratio tie, and the row rule
decides between them as if they were equal. The rule that prefers no row keeps whichever
it met first.

A ratio that is not a number ties with nothing and is less than nothing. It never takes
the place of another and never gives way to one, so it wins exactly if its row comes
first.

Everything here is for any arithmetic with infinities. Signs do not matter: a ratio of
either infinity ties with every finite one.

## Main definitions

* `Tableau.Limits`, `Tableau.Loose`: Rows that may leave, with a finite ratio and
  without.
* `Tableau.Yields`: The row rule decides against a loose row.

## Theorems

* `Tableau.beats_of_apart`: Between an infinite and a finite ratio the row rule decides.
* `Tableau.not_beats_of_nan`: What is not a number neither wins nor loses.
* `Tableau.leaving_finite_of_yields`: Where the row rule favours finite ratios, one wins.
* `Tableau.leaving_finite_iff_first`: Without preferences the first row decides.
* `leaving_infinite_ratio`: The three together.
* `leaving_infinite_flood`: Under each rule an infinite ratio can win.
-/

namespace SimplexMethod

namespace Tableau

variable {α : Type} {K : Arithmetic α} {kind : α → NumberKind} {o : Options α} {T : Tableau α}
  {column : Nat}

instance (i : Nat) : Decidable (T.Eligible K o column i) :=
  inferInstanceAs (Decidable (K.le (T.cell K i column) o.tolerance = false))

section Pairs

variable {i b : Nat}

theorem beats_of_apart (hK : K.Extended kind)
    (h : (kind (T.ratioOf K column i)).Apart (kind (T.ratioOf K column b))) :
    T.Beats K o column i b ↔ T.prefers K o i b column = true := by
  simp only [Beats, hK.near_of_apart h, Bool.not_true, Bool.false_and, Bool.false_or,
    Bool.true_and]

theorem not_beats_of_nan (hK : K.Extended kind)
    (h : kind (T.ratioOf K column i) = .nan ∨ kind (T.ratioOf K column b) = .nan) :
    ¬ T.Beats K o column i b := by
  simp only [Beats, hK.near_of_nan h, hK.lt_eq_false_of_nan h, Bool.and_false, Bool.false_and,
    Bool.or_self, Bool.false_eq_true, not_false_eq_true]

end Pairs

section Rows

variable (K : Arithmetic α) (kind : α → NumberKind) (o : Options α) (T : Tableau α) (column : Nat)

/-- The row may leave, and its ratio is finite. -/
def Limits (i : Nat) : Prop :=
  T.Eligible K o column i ∧ kind (T.ratioOf K column i) = .finite

/-- The row may leave, but its ratio is not finite. -/
def Loose (i : Nat) : Prop :=
  T.Eligible K o column i ∧ kind (T.ratioOf K column i) ≠ .finite

/-- The row rule decides against the loose row `i` and for row `f`. It takes `f` in place of
    `i` if `f` comes later, and does not take `i` in place of `f` otherwise. -/
def Yields (i f : Nat) : Prop :=
  if i < f then
    (kind (T.ratioOf K column i)).Infinite ∧ T.prefers K o f i column = true
  else (kind (T.ratioOf K column i)).Infinite → T.prefers K o i f column = false

instance (i : Nat) : Decidable (T.Limits K kind o column i) :=
  inferInstanceAs (Decidable (_ ∧ _))

instance (i : Nat) : Decidable (T.Loose K kind o column i) :=
  inferInstanceAs (Decidable (_ ∧ _))

instance (i f : Nat) : Decidable (T.Yields K kind o column i f) :=
  inferInstanceAs (Decidable (if i < f then
    (kind (T.ratioOf K column i)).Infinite ∧ T.prefers K o f i column = true
  else (kind (T.ratioOf K column i)).Infinite → T.prefers K o i f column = false))

end Rows

theorem leaving_finite_of_yields (hK : K.Extended kind)
    (hyields : ∀ f < T.rowCount, ∀ i < T.rowCount, T.Limits K kind o column f →
      T.Loose K kind o column i → T.Yields K kind o column i f)
    {l : Leaving α} (h : T.leaving K o column = some l) {f : Nat} (hf : f < T.rowCount)
    (hlimits : T.Limits K kind o column f) : kind (T.ratioOf K column l.row) = .finite := by
  -- The relation of a row to the best so far: if its ratio is finite, so is the best one.
  refine leads_leaving (R := fun i b => i < T.rowCount → b < T.rowCount →
    kind (T.ratioOf K column i) = .finite → kind (T.ratioOf K column b) = .finite)
    (fun _ _ _ _ hi => hi) ?_ ?_ h f hf hlimits.1 hf (leaving_lt K h) hlimits.2
  · intro i b j _ hb hj _ hplace hbeats hbest hi hlt hfinite
    have hfinite := hbest hi (by omega) hfinite
    by_contra hloose
    have hyield := hyields b (by omega) j hlt ⟨hb, hfinite⟩ ⟨hj, hloose⟩
    rw [Yields, if_neg (by omega)] at hyield
    rcases NumberKind.eq_nan_or_infinite hloose with hnan | hinfinite
    · exact not_beats_of_nan hK (Or.inl hnan) hbeats
    · have hprefers := (beats_of_apart hK (Or.inl ⟨hinfinite, hfinite⟩)).mp hbeats
      rw [hyield hinfinite] at hprefers
      exact Bool.false_ne_true hprefers
  · intro b j hb hj hplace hfails hlt hbrow hfinite
    by_contra hloose
    have hyield := hyields j hlt b hbrow ⟨hj, hfinite⟩ ⟨hb, hloose⟩
    rw [Yields, if_pos hplace] at hyield
    exact hfails ((beats_of_apart hK (Or.inr ⟨hfinite, hyield.1⟩)).mpr hyield.2)

-- A row that wins without being preferred has a finite ratio if and only if the row it
-- wins against has one.
theorem finite_iff_of_beats (hK : K.Extended kind) (hrule : o.rowRule = .lowestRow) {j b : Nat}
    (h : T.Beats K o column j b) :
    kind (T.ratioOf K column j) = .finite ↔ kind (T.ratioOf K column b) = .finite := by
  have hnever : ¬ T.prefers K o j b column = true := by simp [prefers, hrule]
  constructor
  · intro hj
    by_contra hb
    rcases NumberKind.eq_nan_or_infinite hb with hnan | hinfinite
    · exact not_beats_of_nan hK (Or.inr hnan) h
    · exact hnever ((beats_of_apart hK (Or.inr ⟨hj, hinfinite⟩)).mp h)
  · intro hb
    by_contra hj
    rcases NumberKind.eq_nan_or_infinite hj with hnan | hinfinite
    · exact not_beats_of_nan hK (Or.inl hnan) h
    · exact hnever ((beats_of_apart hK (Or.inl ⟨hinfinite, hb⟩)).mp h)

theorem leaving_finite_iff_first (hK : K.Extended kind) (hrule : o.rowRule = .lowestRow)
    {l : Leaving α} (h : T.leaving K o column = some l) {first : Nat} (hfirst : first < T.rowCount)
    (heligible : T.Eligible K o column first)
    (hnone : ∀ i < first, ¬ T.Eligible K o column i) :
    kind (T.ratioOf K column l.row) = .finite ↔
      kind (T.ratioOf K column first) = .finite := by
  refine leads_leaving (R := fun i b => i = first →
    (kind (T.ratioOf K column b) = .finite ↔ kind (T.ratioOf K column first) = .finite))
    (fun i _ hi => hi ▸ Iff.rfl) ?_ ?_ h first hfirst heligible rfl
  · intro i b j _ _ _ _ _ hbeats hbest hi
    exact (finite_iff_of_beats hK hrule hbeats).trans (hbest hi)
  · -- Nothing eligible stands above the first row, so it is not met with a best one.
    rintro b j hb _ hplace _ rfl
    exact absurd hb (hnone b hplace)

end Tableau

open Tableau in
/-- The ratio test in an arithmetic with infinities, for any tableau, column and tolerance.
    Between a row with an infinite ratio and one with a finite ratio the row rule alone
    decides. If the rule prefers no row, the ratio of the leaving row is finite exactly if
    that of the topmost row that may leave is. And whatever the rule, a finite ratio wins
    if there is one and every row without gives way to those that have one. -/
theorem leaving_infinite_ratio {α : Type} {K : Arithmetic α} {kind : α → NumberKind}
    (hK : K.Extended kind) (o : Options α) (T : Tableau α) (column : Nat) {l : Leaving α}
    (h : T.leaving K o column = some l) :
    (∀ i b, (kind (T.ratioOf K column i)).Apart (kind (T.ratioOf K column b)) →
      (T.Beats K o column i b ↔ T.prefers K o i b column = true)) ∧
    (o.rowRule = .lowestRow → ∀ first < T.rowCount, T.Eligible K o column first →
      (∀ i < first, ¬ T.Eligible K o column i) →
      (kind l.ratio = .finite ↔ kind (T.ratioOf K column first) = .finite)) ∧
    ((∃ f < T.rowCount, T.Limits K kind o column f) →
      (∀ f < T.rowCount, ∀ i < T.rowCount, T.Limits K kind o column f →
        T.Loose K kind o column i → T.Yields K kind o column i f) →
      kind l.ratio = .finite) := by
  rw [(leaving_outcome h).2]
  refine ⟨fun i b => beats_of_apart hK, fun hrule first hfirst heligible hnone =>
    leaving_finite_iff_first hK hrule h hfirst heligible hnone, ?_⟩
  rintro ⟨f, hf, hlimits⟩ hyields
  exact leaving_finite_of_yields hK hyields h hf hlimits

open Binary64

/-- A limit of one, under a row so flat that its own limit is beyond all numbers. -/
def flood : Program Float where
  name := "flood"
  sense := .maximize
  objective := #[1]
  matrix := #[#[1e-9], #[1]]
  bounds := #[1e308, 1]

/-- The same with the flat row below. -/
def ebb : Program Float where
  name := "ebb"
  sense := .maximize
  objective := #[1]
  matrix := #[#[1], #[1e-9]]
  bounds := #[1, 1e308]

-- Without preferences the flat row below does not matter. Above, it has to be taken out
-- again: the slack block of the other row comes first.
theorem leaving_infinite_ratio_flood :
    let K := Arithmetic.binary64
    let o : Options Float := { Options.standard K with rowRule := .lexicographic }
    kindOf ((Tableau.ofProgram K ebb).ratioOf K 0 1) = .top ∧
      kindOf ((Tableau.ofProgram K flood).ratioOf K 0 0) = .top ∧
      (∃ l, (Tableau.ofProgram K ebb).leaving K (Options.standard K) 0 = some l ∧
        kindOf l.ratio = .finite) ∧
      ∃ l, (Tableau.ofProgram K flood).leaving K o 0 = some l ∧ kindOf l.ratio = .finite := by
  intro K o
  have hebb : ((Tableau.ofProgram K ebb).leaving K (Options.standard K) 0).isSome := by
    decide +kernel
  have hflood : ((Tableau.ofProgram K flood).leaving K o 0).isSome := by decide +kernel
  rcases Option.isSome_iff_exists.mp hebb with ⟨l, hl⟩
  rcases Option.isSome_iff_exists.mp hflood with ⟨m, hm⟩
  have hfirst := (leaving_infinite_ratio Arithmetic.extended_binary64 _ _ 0 hl).2.1 rfl 0
    (by decide +kernel) (by decide +kernel) (by decide +kernel)
  have hyields := (leaving_infinite_ratio Arithmetic.extended_binary64 _ _ 0 hm).2.2
    (by decide +kernel) (by decide +kernel)
  exact ⟨by decide +kernel, by decide +kernel, ⟨l, hl, hfirst.mpr (by decide +kernel)⟩,
    m, hm, hyields⟩

-- All cells are finite and all right hand sides positive, and the row of the limit has
-- the ratio one. Each rule prefers the other row in one of the two orders, and the method
-- then calls an infinite value optimal.
theorem leaving_infinite_flood :
    let K := Arithmetic.binary64
    let o := Options.standard K
    let bland : Options Float := { o with rowRule := .lowestBasicColumn }
    let lexicographic : Options Float := { o with rowRule := .lexicographic }
    let T := Tableau.ofProgram K flood
    let S := Tableau.ofProgram K ebb
    flood.accept K = .ok flood ∧ ebb.accept K = .ok ebb ∧
      (∀ i < 3, ∀ j < 4, kindOf (T.cell K i j) = .finite ∧ kindOf (S.cell K i j) = .finite) ∧
      (∀ i < 2, K.lt K.zero (T.rightSide K i) = true ∧ K.lt K.zero (S.rightSide K i) = true) ∧
      (∀ i < 2, T.Eligible K o 0 i ∧ S.Eligible K o 0 i) ∧
      kindOf (T.ratioOf K 0 1) = .finite ∧ kindOf (S.ratioOf K 0 0) = .finite ∧
      (T.leaving K o 0).map (fun l => (l.row, kindOf l.ratio)) = some (0, .top) ∧
      (T.leaving K bland 0).map (fun l => (l.row, kindOf l.ratio)) = some (0, .top) ∧
      (S.leaving K lexicographic 0).map (fun l => (l.row, kindOf l.ratio)) = some (1, .top) ∧
      (flood.solve K o).status = .optimal ∧ kindOf (flood.solve K o).value = .top := by
  intro K o bland lexicographic T S
  have hflood : flood.accept K = .ok flood :=
    Program.accept_eq_ok.mpr ⟨Option.isNone_iff_eq_none.mp (by decide +kernel), rfl⟩
  have hebb : ebb.accept K = .ok ebb :=
    Program.accept_eq_ok.mpr ⟨Option.isNone_iff_eq_none.mp (by decide +kernel), rfl⟩
  exact ⟨hflood, hebb, by decide +kernel, by decide +kernel, by decide +kernel,
    by decide +kernel, by decide +kernel, by decide +kernel, by decide +kernel,
    by decide +kernel, by decide +kernel, by decide +kernel⟩

end SimplexMethod
