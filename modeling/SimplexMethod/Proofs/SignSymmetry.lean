import Mathlib.Algebra.Order.Field.Rat
import Mathlib.Data.List.Zip
import Mathlib.Tactic.Linarith
import Mathlib.Tactic.Ring
import SimplexMethod.Arithmetic

/-!
# Sign symmetry

Number types in which nothing prefers one sign.

`Arithmetic` has no laws, and most of what the method does needs none to be the
same for a program and its mirror image. The exceptions are the places where
numbers of opposite sign meet: sums, products and the comparisons of a check.
`SignSymmetric` lists what is needed there. Negation undoes itself, reverses the
order, and goes through sums and products.

In double precision the last is not quite true. The sum of a number and its
negative is a positive zero whichever comes first, and so is not the negative of
itself. But nothing that compares numbers can see the sign of a zero. The laws
are therefore stated up to a relation `same` that absolute values and
comparisons respect: equality for the rationals, equality but for the sign of
zeros for doubles.

From these laws the two tests that a check makes of signed numbers are symmetric,
the order of two objective values up to a tolerance, and their nearness; and so is
the compensated sum that one of them is made of.

## Main definitions

* `Arithmetic.SignSymmetric`: Negation respects order, sums and products.
* `Arithmetic.SignSymmetric.Opposite`: Two numbers of which one is the negative of
  the other, up to `same`.

## Theorems

* `Arithmetic.signSymmetric_exact`: Exact arithmetic is symmetric.
* `Arithmetic.SignSymmetric.near_opposite`, `Arithmetic.SignSymmetric.lt_opposite`:
  The two tests.
* `Arithmetic.SignSymmetric.compensatedDot_opposite`: The compensated product with a
  negated array is the opposite one.
-/

namespace SimplexMethod

namespace Arithmetic

variable {α : Type}

/-- Negation is an involution that reverses the order and goes through sums and
    products. The laws hold up to `same`, which comparisons cannot tell from
    equality. -/
structure SignSymmetric (K : Arithmetic α) (same : α → α → Prop) : Prop where
  equivalence : Equivalence same
  neg_congr : ∀ {x y}, same x y → same (K.neg x) (K.neg y)
  add_congr : ∀ {x x' y y'}, same x x' → same y y' → same (K.add x y) (K.add x' y')
  abs_congr : ∀ {x y}, same x y → K.abs x = K.abs y
  lt_congr : ∀ {x x' y y'}, same x x' → same y y' → K.lt x y = K.lt x' y'
  neg_neg : ∀ x, K.neg (K.neg x) = x
  neg_zero : same (K.neg K.zero) K.zero
  neg_add : ∀ x y, same (K.neg (K.add x y)) (K.add (K.neg x) (K.neg y))
  neg_mul : ∀ x y, same (K.neg (K.mul x y)) (K.mul (K.neg x) y)
  sub_eq : ∀ x y, same (K.sub x y) (K.add x (K.neg y))
  abs_neg : ∀ x, K.abs (K.neg x) = K.abs x
  lt_neg : ∀ x y, K.lt (K.neg x) (K.neg y) = K.lt y x

/-- Exact arithmetic is symmetric, with equality for `same`. -/
theorem signSymmetric_exact (ε : Rat) : (exact ε).SignSymmetric (· = ·) where
  equivalence := eq_equivalence
  neg_congr := by rintro x y rfl; rfl
  add_congr := by rintro x x' y y' rfl rfl; rfl
  abs_congr := by rintro x y rfl; rfl
  lt_congr := by rintro x x' y y' rfl rfl; rfl
  neg_neg := fun x => neg_neg x
  neg_zero := neg_zero
  neg_add := fun x y => by simp only [exact_neg, exact_add]; ring
  neg_mul := fun x y => by simp only [exact_neg, exact_mul]; ring
  sub_eq := fun x y => by simp only [exact_neg, exact_add, exact_sub]; ring
  abs_neg := fun x => by
    simp only [exact]
    split <;> split <;> linarith
  lt_neg := fun x y => by simp only [exact_neg, exact_lt, neg_lt_neg_iff]

namespace SignSymmetric

variable {K : Arithmetic α} {same : α → α → Prop}

/-- The second number is the negative of the first. -/
def Opposite (K : Arithmetic α) (same : α → α → Prop) (x y : α) : Prop := same (K.neg x) y

section Opposites

variable {x x' y y' : α}

theorem neg_opposite (hK : K.SignSymmetric same) (x : α) : Opposite K same x (K.neg x) :=
  hK.equivalence.refl _

theorem opposite_neg (hK : K.SignSymmetric same) (x : α) : Opposite K same (K.neg x) x := by
  rw [Opposite, hK.neg_neg]
  exact hK.equivalence.refl x

theorem add_opposite (hK : K.SignSymmetric same) (hx : Opposite K same x x')
    (hy : Opposite K same y y') : Opposite K same (K.add x y) (K.add x' y') :=
  hK.equivalence.trans (hK.neg_add x y) (hK.add_congr hx hy)

theorem negated_opposite (hK : K.SignSymmetric same) (hx : Opposite K same x x') :
    Opposite K same (K.neg x) (K.neg x') :=
  hK.neg_congr hx

theorem sub_opposite (hK : K.SignSymmetric same) (hx : Opposite K same x x')
    (hy : Opposite K same y y') : Opposite K same (K.sub x y) (K.sub x' y') := by
  have hsum := hK.add_opposite hx (hK.negated_opposite hy)
  have hleft := hK.equivalence.trans (hK.neg_congr (hK.sub_eq x y)) hsum
  exact hK.equivalence.trans hleft (hK.equivalence.symm (hK.sub_eq x' y'))

theorem abs_opposite (hK : K.SignSymmetric same) (hx : Opposite K same x x') :
    K.abs x' = K.abs x := by
  rw [← hK.abs_congr hx, hK.abs_neg]

/-- Nearness does not depend on the sign. -/
theorem near_opposite (hK : K.SignSymmetric same) (hx : Opposite K same x x')
    (hy : Opposite K same y y') (tolerance : α) :
    K.near x' y' tolerance = K.near x y tolerance := by
  simp only [near, hK.abs_opposite (hK.sub_opposite hx hy),
    hK.abs_opposite (hK.add_opposite hx hy)]

/-- To exceed a number less a tolerance is, for the opposite ones, to stay below the
    number with the tolerance added. -/
theorem lt_opposite (hK : K.SignSymmetric same) (hx : Opposite K same x x')
    (hy : Opposite K same y y') (tolerance : α) :
    K.lt y' (K.add x' tolerance) = K.lt (K.sub x tolerance) y := by
  have hsum : same (K.neg (K.sub x tolerance)) (K.add x' tolerance) :=
    hK.equivalence.trans (hK.neg_congr (hK.sub_eq x tolerance))
      (hK.add_opposite hx (hK.opposite_neg tolerance))
  rw [← hK.lt_congr hy hsum, hK.lt_neg]

end Opposites

-- The two halves of a compensated sum, each the opposite of the other's.
theorem compensated_add_opposite (hK : K.SignSymmetric same) {s s' : Compensated α} {x x' : α}
    (hsum : Opposite K same s.sum s'.sum) (hcarry : Opposite K same s.carry s'.carry)
    (hx : Opposite K same x x') :
    Opposite K same (s.add K x).sum (s'.add K x').sum ∧
      Opposite K same (s.add K x).carry (s'.add K x').carry := by
  have htotal := hK.add_opposite hsum hx
  refine ⟨htotal, hK.add_opposite hcarry ?_⟩
  -- Which of the addends is the smaller one is decided by absolute values.
  rw [hK.abs_opposite hx, hK.abs_opposite hsum]
  split
  · exact hK.add_opposite (hK.add_opposite hsum (hK.negated_opposite htotal)) hx
  · exact hK.add_opposite (hK.add_opposite hx (hK.negated_opposite htotal)) hsum

theorem compensated_foldl_opposite (hK : K.SignSymmetric same) {values values' : List α}
    (hvalues : List.Forall₂ (Opposite K same) values values') {s s' : Compensated α}
    (hsum : Opposite K same s.sum s'.sum) (hcarry : Opposite K same s.carry s'.carry) :
    Opposite K same (values.foldl (Compensated.add K) s).sum
        (values'.foldl (Compensated.add K) s').sum ∧
      Opposite K same (values.foldl (Compensated.add K) s).carry
        (values'.foldl (Compensated.add K) s').carry := by
  induction hvalues generalizing s s' with
  | nil => exact ⟨hsum, hcarry⟩
  | cons hx _ ih =>
      rw [List.foldl_cons, List.foldl_cons]
      have hstep := hK.compensated_add_opposite hsum hcarry hx
      exact ih hstep.1 hstep.2

-- Negating one factor of every product.
theorem products_opposite (hK : K.SignSymmetric same) (a b : Array α) :
    List.Forall₂ (Opposite K same) (K.products a b) (K.products (a.map K.neg) b) := by
  rw [products, products, Array.toList_map]
  generalize a.toList = xs
  generalize b.toList = ys
  induction xs generalizing ys with
  | nil => exact .nil
  | cons x xs ih =>
      cases ys with
      | nil => exact .nil
      | cons y ys =>
          simp only [List.map_cons, List.zipWith_cons_cons]
          exact .cons (hK.neg_mul x y) (ih ys)

/-- The compensated product with a negated array is the opposite one. -/
theorem compensatedDot_opposite (hK : K.SignSymmetric same) (a b : Array α) :
    Opposite K same (K.compensatedDot a b) (K.compensatedDot (a.map K.neg) b) := by
  have hsum : Opposite K same (Compensated.empty K).sum (Compensated.empty K).sum := hK.neg_zero
  have hcarry : Opposite K same (Compensated.empty K).carry (Compensated.empty K).carry :=
    hK.neg_zero
  have hparts := hK.compensated_foldl_opposite (hK.products_opposite a b) hsum hcarry
  exact hK.add_opposite hparts.1 hparts.2

end SignSymmetric

end Arithmetic

end SimplexMethod
