import Mathlib
import SimplexMethod.Proofs.SignSymmetry

/-!
# Signed zeros

Double precision arithmetic is sign symmetric, but for the sign of zeros.

A double is unpacked into an infinity, a NaN, a signed zero, or a sign with a
mantissa and an exponent; an operation works on unpacked numbers, rounds the
mantissa and packs the result. Rounding and packing carry the sign along and
never look at it. So negation goes through a product as it stands. It goes
through a sum as well, except where the sum is an exact zero: rounding to nearest
makes that zero positive on both sides.

`unsigned` forgets the sign of a zero and nothing else. Every operation has one
lemma that says that it does not see the difference, or that its result shows it in
nothing but the sign of a zero.

The lemmas on packed doubles that this rests on come with the whole library and with none of
its parts, which is why it is imported whole.

## Main definitions

* `Binary64.unsigned`: A number with a zero's sign forgotten.
* `Binary64.SameNumber`: Equal, or both zero.

## Theorems

* `Binary64.unsigned_add_neg`, `Binary64.mul_neg`, `Binary64.compare_neg`: Negation
  goes through sums and products and reverses the order.
* `Binary64.unpack_pack_neg`: Packing carries the sign along.
* `Arithmetic.signSymmetric_binary64`: Double precision arithmetic is sign
  symmetric.
-/

namespace SimplexMethod

namespace Binary64

open Float.Model Float.Model.UnpackedFloat

section Unpacked

theorem sign_neg_neg (s : Sign) : - -s = s := by
  cases s <;> rfl

theorem sign_neg_mul (s t : Sign) : -s * t = -(s * t) := by
  cases s <;> cases t <;> rfl

theorem sign_neg_apply (s : Sign) (n : Int) : (-s).apply n = -s.apply n := by
  cases s with
  | negative => exact (Int.neg_neg n).symm
  | positive => rfl

theorem neg_neg_unpacked (u : UnpackedFloat) : u.neg.neg = u := by
  cases u <;> simp only [UnpackedFloat.neg, sign_neg_neg]

theorem abs_neg (u : UnpackedFloat) : u.neg.abs = u.abs := by
  cases u <;> rfl

/-- A number with a zero's sign forgotten. -/
def unsigned : UnpackedFloat → UnpackedFloat
  | .zero _ => .zero .positive
  | u => u

theorem unsigned_neg_unsigned (u : UnpackedFloat) :
    unsigned (unsigned u).neg = unsigned u.neg := by
  cases u <;> rfl

theorem abs_unsigned (u : UnpackedFloat) : (unsigned u).abs = u.abs := by
  cases u <;> rfl

theorem compare_unsigned (u v : UnpackedFloat) :
    (unsigned u).compare (unsigned v) = u.compare v := by
  cases u with
  | notANumber => rfl
  | infinity s => cases v <;> cases s <;> rfl
  | zero s =>
      cases v with
      | infinity t => cases t <;> rfl
      | finite t => cases t <;> rfl
      | _ => rfl
  | finite s => cases v <;> cases s <;> rfl

-- Of two finite numbers the exponents decide first, then the mantissas.
theorem magnitude_swap (m n : Nat) (e f : Int) :
    ((compare e f).then (compare m n)).swap = (compare f e).then (compare n m) := by
  rw [Ordering.swap_then, ← Std.OrientedOrd.eq_swap, ← Std.OrientedOrd.eq_swap]

theorem compare_neg (u v : UnpackedFloat) : u.neg.compare v.neg = v.compare u := by
  cases u with
  | notANumber => cases v <;> rfl
  | infinity s =>
      cases v with
      | infinity t => cases s <;> cases t <;> rfl
      | finite t => cases s <;> cases t <;> rfl
      | _ => cases s <;> rfl
  | zero s =>
      cases v with
      | infinity t => cases t <;> rfl
      | finite t => cases t <;> rfl
      | _ => rfl
  | finite s m e _ =>
      cases v with
      | notANumber => rfl
      | infinity t => cases s <;> cases t <;> rfl
      | zero t => cases s <;> rfl
      | finite t n f _ =>
          -- Only numbers of one sign are compared by magnitude.
          cases s <;> cases t
          · exact congrArg some (magnitude_swap n m f e).symm
          · rfl
          · rfl
          · exact congrArg some (magnitude_swap m n e f)

variable (spec : Format)

theorem roundWithAccuracy_neg (s : Sign) (m : Nat) (e : Int) (a : Accuracy) :
    roundWithAccuracy spec (-s) m e a = (roundWithAccuracy spec s m e a).neg := by
  simp only [roundWithAccuracy]
  split
  · rfl
  · rfl

theorem round_neg (s : Sign) (m : Nat) (e : Int) :
    UnpackedFloat.round spec (-s) m e = (UnpackedFloat.round spec s m e).neg :=
  roundWithAccuracy_neg spec s _ _ _

theorem unsigned_normalize_neg (m e : Int) :
    unsigned (UnpackedFloat.normalize spec (-m) e .positive) =
      unsigned (UnpackedFloat.normalize spec m e .positive).neg := by
  rcases lt_trichotomy m 0 with hm | rfl | hm
  · have hneg : compare (-m) 0 = .gt := compare_gt_iff_gt.mpr (by omega)
    simp only [UnpackedFloat.normalize, hneg, compare_lt_iff_lt.mpr hm, ← round_neg]
    rfl
  · rfl
  · have hneg : compare (-m) 0 = .lt := compare_lt_iff_lt.mpr (by omega)
    simp only [UnpackedFloat.normalize, hneg, compare_gt_iff_gt.mpr hm, ← round_neg, Int.neg_neg]
    rfl

/-- Negation goes through a sum, up to the sign of a zero. -/
theorem unsigned_add_neg (u v : UnpackedFloat) :
    unsigned (u.neg.add spec v.neg) = unsigned (u.add spec v).neg := by
  cases u with
  | notANumber => rfl
  | infinity s =>
      cases v with
      | infinity t => cases s <;> cases t <;> rfl
      | _ => rfl
  | zero s =>
      cases v with
      | zero t => cases s <;> cases t <;> rfl
      | _ => rfl
  | finite s =>
      cases v with
      | finite t =>
          simp only [UnpackedFloat.neg, UnpackedFloat.add, sign_neg_apply, ← Int.neg_add,
            unsigned_normalize_neg]
      | _ => rfl

theorem unsigned_add_unsigned (u v : UnpackedFloat) :
    unsigned ((unsigned u).add spec (unsigned v)) = unsigned (u.add spec v) := by
  cases u with
  | zero s =>
      cases v with
      | zero t => cases s <;> cases t <;> rfl
      | _ => rfl
  | _ => cases v <;> rfl

/-- Negation goes through a product. -/
theorem mul_neg (u v : UnpackedFloat) : u.neg.mul spec v = (u.mul spec v).neg := by
  cases u <;> cases v <;>
    simp only [UnpackedFloat.neg, UnpackedFloat.mul, sign_neg_mul, roundWithAccuracy_neg]

theorem sub_eq_add_neg (u v : UnpackedFloat) : u.sub spec v = u.add spec v.neg := by
  cases u <;> cases v <;>
    simp only [UnpackedFloat.neg, UnpackedFloat.add, UnpackedFloat.sub, sign_neg_apply,
      Int.sub_eq_add_neg]

end Unpacked

section Packed

variable (spec : Format)

theorem unpack_packComponents_neg (s : Sign) (e : BitVec spec.exponentBits)
    (m : BitVec spec.mantissaBitsWithoutImplicit) :
    UnpackedFloat.unpack spec (packComponents spec (-s) e m) =
      (UnpackedFloat.unpack spec (packComponents spec s e m)).neg := by
  simp only [UnpackedFloat.unpack, unpackExponent_packComponents, unpackMantissa_packComponents,
    unpackSign_packComponents, Sign.ofBitVec_toBitVec]
  split
  · split <;> rfl
  · split
    · split <;> rfl
    · rfl

/-- Packing carries the sign along. -/
theorem unpack_pack_neg (u : UnpackedFloat) :
    UnpackedFloat.unpack spec (u.neg.pack spec) =
      (UnpackedFloat.unpack spec (u.pack spec)).neg := by
  cases u with
  | notANumber => simp only [UnpackedFloat.neg, UnpackedFloat.pack, unpack_packedNaN]
  | infinity s => exact unpack_packComponents_neg spec s _ _
  | zero s => exact unpack_packComponents_neg spec s _ _
  | finite s =>
      simp only [UnpackedFloat.neg, UnpackedFloat.pack]
      split
      · exact unpack_packComponents_neg spec s _ _
      · split <;> exact unpack_packComponents_neg spec s _ _

theorem unsigned_unpack_pack (u : UnpackedFloat) :
    unsigned (UnpackedFloat.unpack spec ((unsigned u).pack spec)) =
      unsigned (UnpackedFloat.unpack spec (u.pack spec)) := by
  cases u with
  | zero s => simp only [unsigned, UnpackedFloat.pack, unpack_packedZero]
  | _ => rfl

end Packed

section Doubles

/-- Two doubles are the same number: equal, or both zero. -/
def SameNumber (x y : Float) : Prop :=
  unsigned x.toModel.unpack = unsigned y.toModel.unpack

theorem ofModel_pack_unpack (x : Float) : Float.ofModel (.pack x.toModel.unpack) = x := by
  rcases x with ⟨bits, hvalid⟩
  simp only [Float.Model.pack, Float.Model.unpack, pack_unpack_of_valid hvalid,
    UInt64.ofBitVec_toBitVec]

theorem unpack_neg (x : Float) :
    (Arithmetic.binary64.neg x).toModel.unpack = x.toModel.unpack.neg := by
  have hx := congrArg (fun y => y.toModel.unpack.neg) (ofModel_pack_unpack x)
  exact (unpack_pack_neg Format.binary64 _).trans hx

theorem lt_eq_compare (x y : Float) :
    Arithmetic.binary64.lt x y = (x.toModel.unpack.compare y.toModel.unpack == some .lt) :=
  Bool.decide_eq_true

variable {u v : UnpackedFloat}

theorem sameNumber_pack (h : unsigned u = unsigned v) :
    SameNumber (.ofModel (.pack u)) (.ofModel (.pack v)) := by
  have hu := unsigned_unpack_pack Format.binary64 u
  rw [h, unsigned_unpack_pack] at hu
  exact hu.symm

theorem sameNumber_neg_pack (h : unsigned u.neg = unsigned v) :
    SameNumber (Arithmetic.binary64.neg (.ofModel (.pack u))) (.ofModel (.pack v)) := by
  have hneg := sameNumber_pack h
  rw [SameNumber, unpack_neg]
  exact (congrArg unsigned (unpack_pack_neg Format.binary64 u)).symm.trans hneg

end Doubles

end Binary64

open Binary64

/-- Double precision arithmetic is sign symmetric, but for the sign of zeros. -/
theorem Arithmetic.signSymmetric_binary64 : binary64.SignSymmetric SameNumber where
  equivalence := ⟨fun _ => rfl, Eq.symm, Eq.trans⟩
  neg_congr := by
    intro x y h
    apply sameNumber_pack
    rw [← unsigned_neg_unsigned, h, unsigned_neg_unsigned]
  add_congr := by
    intro x x' y y' hx hy
    apply sameNumber_pack
    rw [← unsigned_add_unsigned, hx, hy, unsigned_add_unsigned]
  abs_congr := by
    intro x y h
    have habs : x.toModel.unpack.abs = y.toModel.unpack.abs := by
      rw [← abs_unsigned, h, abs_unsigned]
    exact congrArg (fun u => Float.ofModel (.pack u)) habs
  lt_congr := by
    intro x x' y y' hx hy
    rw [lt_eq_compare, lt_eq_compare, ← compare_unsigned, hx, hy, compare_unsigned]
  neg_neg := by
    intro x
    have hneg : (binary64.neg x).toModel.unpack.neg = x.toModel.unpack := by
      rw [unpack_neg, neg_neg_unpacked]
    exact (congrArg (fun u => Float.ofModel (.pack u)) hneg).trans (ofModel_pack_unpack x)
  neg_zero := rfl
  neg_add := by
    intro x y
    apply sameNumber_neg_pack
    rw [unpack_neg, unpack_neg]
    exact (unsigned_add_neg Float.Model.Format.binary64 _ _).symm
  neg_mul := by
    intro x y
    apply sameNumber_neg_pack
    rw [unpack_neg, mul_neg]
  sub_eq := by
    intro x y
    apply sameNumber_pack
    rw [unpack_neg, sub_eq_add_neg]
  abs_neg := by
    intro x
    have habs : (binary64.neg x).toModel.unpack.abs = x.toModel.unpack.abs := by
      rw [unpack_neg, Binary64.abs_neg]
    exact congrArg (fun u => Float.ofModel (.pack u)) habs
  lt_neg := by
    intro x y
    rw [lt_eq_compare, lt_eq_compare, unpack_neg, unpack_neg, compare_neg]

end SimplexMethod
