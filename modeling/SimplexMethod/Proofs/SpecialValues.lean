import SimplexMethod.Proofs.SignedZeros

/-!
# Special values

Arithmetic with infinities and with values that are not numbers.

Double precision has more to it than numbers of limited size. A quotient can be too
large for the format and becomes infinite, the difference of two infinities is not a
number, and what is not a number compares with nothing. `Extended` lists what of this
the choice of a pivot comes across. Every value has a kind, and the laws say how kinds
go through the operations: values that are not numbers pass through all of them, an
infinity swallows what is finite, and scaling by a rounding error leaves it infinite.
Of the order they say that it is one among numbers, with the positive infinity on top.
Nothing is said of the size of a finite result, which may be rounded in any way or be
infinite.

The nearness of two numbers is a comparison of their difference with their sum. If one
is infinite and the other is not, both are infinite, and an infinity is not greater
than another. So by these laws an infinity is near every finite number.

## Main definitions

* `NumberKind`: What a value is, apart from its size.
* `NumberKind.Apart`: One is infinite and the other finite.
* `Arithmetic.Extended`: The laws.
* `Binary64.kindOf`: The kind of a double.

## Theorems

* `Arithmetic.Extended.near_of_apart`: An infinity is near every finite number.
* `Arithmetic.Extended.near_of_nan`: What is not a number is near nothing.
* `Arithmetic.Extended.lt_of_not_le`: Comparisons that fail.
* `Binary64.compare_swap`: Comparing the other way round.
* `Arithmetic.extended_binary64`: Double precision obeys the laws.
-/

namespace SimplexMethod

/-- What a value is, apart from its size. -/
inductive NumberKind where
  /-- Not a number. -/
  | nan
  /-- The negative infinity. -/
  | bottom
  /-- A number of finite size. -/
  | finite
  /-- The positive infinity. -/
  | top
deriving DecidableEq

namespace NumberKind

/-- One of the two infinities. -/
def Infinite (k : NumberKind) : Prop := k = .bottom ∨ k = .top

/-- One is infinite and the other finite. -/
def Apart (k l : NumberKind) : Prop := k.Infinite ∧ l = .finite ∨ k = .finite ∧ l.Infinite

instance (k : NumberKind) : Decidable k.Infinite :=
  inferInstanceAs (Decidable (k = .bottom ∨ k = .top))

instance (k l : NumberKind) : Decidable (k.Apart l) :=
  inferInstanceAs (Decidable (k.Infinite ∧ l = .finite ∨ k = .finite ∧ l.Infinite))

theorem eq_nan_or_infinite {k : NumberKind} (h : k ≠ .finite) : k = .nan ∨ k.Infinite := by
  revert h
  cases k <;> decide

end NumberKind

namespace Arithmetic

variable {α : Type}

/-- Infinities and values that are not numbers behave as in floating point arithmetic. -/
structure Extended (K : Arithmetic α) (kind : α → NumberKind) : Prop where
  lt_number : ∀ {x y}, K.lt x y = true → kind x ≠ .nan ∧ kind y ≠ .nan
  le_number : ∀ {x y}, K.le x y = true → kind x ≠ .nan ∧ kind y ≠ .nan
  le_iff : ∀ {x y}, kind x ≠ .nan → kind y ≠ .nan → (K.le x y = true ↔ K.lt y x = false)
  le_top : ∀ {x y}, kind x ≠ .nan → kind y = .top → K.le x y = true
  neg_nan : ∀ {x}, kind (K.neg x) = .nan → kind x = .nan
  sub_nan : ∀ {x y}, kind x = .nan ∨ kind y = .nan → kind (K.sub x y) = .nan
  div_nan : ∀ {x y}, kind y = .nan → kind (K.div x y) = .nan
  abs_nan : ∀ {x}, kind x = .nan → kind (K.abs x) = .nan
  sub_apart : ∀ {x y}, (kind x).Apart (kind y) → (kind (K.sub x y)).Infinite
  add_apart : ∀ {x y}, (kind x).Apart (kind y) → (kind (K.add x y)).Infinite
  abs_infinite : ∀ {x}, (kind x).Infinite → kind (K.abs x) = .top
  scale_top : ∀ {x}, kind x = .top →
    kind (K.mul (K.mul K.relativeEpsilon x) (K.decimal 4 0)) = .top

namespace Extended

variable {K : Arithmetic α} {kind : α → NumberKind} {x y : α}

theorem lt_eq_false_of_nan (hK : K.Extended kind) (h : kind x = .nan ∨ kind y = .nan) :
    K.lt x y = false := by
  by_contra hlt
  rcases hK.lt_number (Bool.eq_true_of_not_eq_false hlt) with ⟨hx, hy⟩
  exact h.elim hx hy

theorem le_eq_false_of_nan (hK : K.Extended kind) (h : kind x = .nan ∨ kind y = .nan) :
    K.le x y = false := by
  by_contra hle
  rcases hK.le_number (Bool.eq_true_of_not_eq_false hle) with ⟨hx, hy⟩
  exact h.elim hx hy

/-- A comparison that fails is reversed, or one of the values is not a number. -/
theorem lt_of_not_le (hK : K.Extended kind) (h : K.le x y = false) :
    K.lt y x = true ∨ kind x = .nan ∨ kind y = .nan := by
  by_cases hnan : kind x = .nan ∨ kind y = .nan
  · exact Or.inr hnan
  · rcases not_or.mp hnan with ⟨hx, hy⟩
    left
    by_contra hlt
    rw [(hK.le_iff hx hy).mpr (Bool.eq_false_iff.mpr hlt)] at h
    exact absurd h (by decide)

theorem near_of_apart (hK : K.Extended kind) (h : (kind x).Apart (kind y)) (tolerance : α) :
    K.near x y tolerance = true := by
  have hgap : kind (K.abs (K.sub x y)) = .top := hK.abs_infinite (hK.sub_apart h)
  have hscale := hK.scale_top (hK.abs_infinite (hK.add_apart h))
  have hle := hK.le_top (x := K.abs (K.sub x y)) (by rw [hgap]; decide) hscale
  simp only [near, hle, Bool.or_true]

theorem near_of_nan (hK : K.Extended kind) (h : kind x = .nan ∨ kind y = .nan) (tolerance : α) :
    K.near x y tolerance = false := by
  have hgap : kind (K.abs (K.sub x y)) = .nan := hK.abs_nan (hK.sub_nan h)
  simp only [near, hK.lt_eq_false_of_nan (Or.inl hgap), hK.le_eq_false_of_nan (Or.inl hgap),
    Bool.or_self]

end Extended

end Arithmetic

namespace Binary64

open Float.Model Float.Model.UnpackedFloat

section Unpacked

variable (spec : Format)

/-- The kind of an unpacked number. -/
def unpackedKind : UnpackedFloat → NumberKind
  | .notANumber => .nan
  | .infinity .negative => .bottom
  | .infinity .positive => .top
  | .zero _ => .finite
  | .finite _ _ _ _ => .finite

theorem unpackedKind_eq_nan {u : UnpackedFloat} : unpackedKind u = .nan ↔ u = .notANumber := by
  cases u with
  | infinity s => cases s <;> simp [unpackedKind]
  | _ => simp [unpackedKind]

theorem unpackedKind_infinite {u : UnpackedFloat} :
    (unpackedKind u).Infinite ↔ ∃ s, u = .infinity s := by
  cases u with
  | infinity s => cases s <;> simp [unpackedKind, NumberKind.Infinite]
  | _ => simp [unpackedKind, NumberKind.Infinite]

theorem unpackedKind_eq_top {u : UnpackedFloat} :
    unpackedKind u = .top ↔ u = .infinity .positive := by
  cases u with
  | infinity s => cases s <;> simp [unpackedKind]
  | _ => simp [unpackedKind]

-- Of the finite numbers some are too large to be packed, the others keep their kind.
theorem unpackedKind_unpack_pack {u : UnpackedFloat} (h : unpackedKind u ≠ .finite) :
    unpackedKind (UnpackedFloat.unpack spec (u.pack spec)) = unpackedKind u := by
  cases u with
  | notANumber => simp only [UnpackedFloat.pack, unpack_packedNaN]
  | infinity s =>
      simp [UnpackedFloat.pack, UnpackedFloat.unpack, packedInfinity]
  | zero s => exact absurd rfl h
  | finite s m e hm => exact absurd rfl h

theorem compare_swap (u v : UnpackedFloat) : v.compare u = (u.compare v).map Ordering.swap := by
  cases u with
  | notANumber => cases v <;> rfl
  | infinity s =>
      cases v with
      | infinity t => cases s <;> cases t <;> rfl
      | _ => cases s <;> rfl
  | zero s =>
      cases v with
      | infinity t => cases t <;> rfl
      | finite t => cases t <;> rfl
      | _ => rfl
  | finite s m e _ =>
      cases v with
      | notANumber => rfl
      | infinity t => cases t <;> cases s <;> rfl
      | zero t => cases s <;> rfl
      | finite t n f _ =>
          cases s <;> cases t
          · exact congrArg (fun o => some o.swap) (magnitude_swap m n e f).symm
          · rfl
          · rfl
          · exact congrArg some (magnitude_swap m n e f).symm

theorem compare_of_numbers {u v : UnpackedFloat} (hu : u ≠ .notANumber) (hv : v ≠ .notANumber) :
    ∃ o, u.compare v = some o := by
  fun_cases UnpackedFloat.compare u v with
  | case1 => exact absurd rfl hu
  | case2 => exact absurd rfl hv
  | _ => exact ⟨_, rfl⟩

theorem unpackedKind_eq_finite {u : UnpackedFloat} (h : unpackedKind u = .finite) :
    (∃ s, u = .zero s) ∨ ∃ s m e hm, u = .finite s m e hm := by
  cases u with
  | notANumber => exact absurd h (by decide)
  | infinity s => cases s <;> exact absurd h (by decide)
  | zero s => exact Or.inl ⟨s, rfl⟩
  | finite s m e hm => exact Or.inr ⟨s, m, e, hm, rfl⟩

-- An infinity swallows what is finite, whichever comes first.
theorem sub_of_apart {u v : UnpackedFloat} (h : (unpackedKind u).Apart (unpackedKind v)) :
    ∃ s, u.sub spec v = .infinity s := by
  rcases h with ⟨hu, hv⟩ | ⟨hu, hv⟩
  · rcases unpackedKind_infinite.mp hu with ⟨s, rfl⟩
    rcases unpackedKind_eq_finite hv with ⟨t, rfl⟩ | ⟨t, m, e, hm, rfl⟩
    · exact ⟨s, rfl⟩
    · exact ⟨s, rfl⟩
  · rcases unpackedKind_infinite.mp hv with ⟨s, rfl⟩
    rcases unpackedKind_eq_finite hu with ⟨t, rfl⟩ | ⟨t, m, e, hm, rfl⟩
    · exact ⟨-s, rfl⟩
    · exact ⟨-s, rfl⟩

theorem add_of_apart {u v : UnpackedFloat} (h : (unpackedKind u).Apart (unpackedKind v)) :
    ∃ s, u.add spec v = .infinity s := by
  rcases h with ⟨hu, hv⟩ | ⟨hu, hv⟩
  · rcases unpackedKind_infinite.mp hu with ⟨s, rfl⟩
    rcases unpackedKind_eq_finite hv with ⟨t, rfl⟩ | ⟨t, m, e, hm, rfl⟩
    · exact ⟨s, rfl⟩
    · exact ⟨s, rfl⟩
  · rcases unpackedKind_infinite.mp hv with ⟨s, rfl⟩
    rcases unpackedKind_eq_finite hu with ⟨t, rfl⟩ | ⟨t, m, e, hm, rfl⟩
    · exact ⟨s, rfl⟩
    · exact ⟨s, rfl⟩

end Unpacked

section Doubles

/-- The kind of a double. -/
def kindOf (x : Float) : NumberKind := unpackedKind x.toModel.unpack

theorem le_eq_compare (x y : Float) :
    Arithmetic.binary64.le x y = (x.toModel.unpack.compare y.toModel.unpack).any (·.isLE) :=
  Bool.decide_eq_true

theorem kindOf_pack {u : UnpackedFloat} (h : unpackedKind u ≠ .finite) :
    kindOf (.ofModel (.pack u)) = unpackedKind u :=
  unpackedKind_unpack_pack Format.binary64 h

theorem kindOf_eq_nan {x : Float} : kindOf x = .nan ↔ x.toModel.unpack = .notANumber :=
  unpackedKind_eq_nan

theorem kindOf_pack_nan {u : UnpackedFloat} (h : u = .notANumber) :
    kindOf (.ofModel (.pack u)) = .nan := by
  rw [h, kindOf_pack (by decide)]
  rfl

theorem kindOf_pack_infinite {u : UnpackedFloat} (h : ∃ s, u = .infinity s) :
    (kindOf (.ofModel (.pack u))).Infinite := by
  have hinfinite := unpackedKind_infinite.mpr h
  rwa [kindOf_pack fun hfinite => by rw [hfinite] at hinfinite; exact absurd hinfinite (by decide)]

theorem kindOf_pack_top {u : UnpackedFloat} (h : u = .infinity .positive) :
    kindOf (.ofModel (.pack u)) = .top := by
  rw [h, kindOf_pack (by decide)]
  rfl

-- Comparisons are made between numbers.
theorem compare_eq_none {x y : Float} (h : kindOf x = .nan ∨ kindOf y = .nan) :
    x.toModel.unpack.compare y.toModel.unpack = none := by
  rcases h with hx | hy
  · rw [kindOf_eq_nan.mp hx]
    rfl
  · rw [kindOf_eq_nan.mp hy, compare_swap]
    rfl

end Doubles

end Binary64

open Binary64 Float.Model Float.Model.UnpackedFloat

/-- Double precision arithmetic has infinities and values that are not numbers. -/
theorem Arithmetic.extended_binary64 : binary64.Extended kindOf where
  lt_number := by
    intro x y h
    rw [lt_eq_compare] at h
    refine not_or.mp fun hnan => ?_
    rw [compare_eq_none hnan] at h
    exact absurd h (by decide)
  le_number := by
    intro x y h
    rw [le_eq_compare] at h
    refine not_or.mp fun hnan => ?_
    rw [compare_eq_none hnan] at h
    exact absurd h (by decide)
  le_iff := by
    intro x y hx hy
    rcases compare_of_numbers (mt kindOf_eq_nan.mpr hx) (mt kindOf_eq_nan.mpr hy) with ⟨o, ho⟩
    rw [le_eq_compare, lt_eq_compare, compare_swap x.toModel.unpack, ho]
    cases o <;> decide
  le_top := by
    intro x y hx hy
    have hy : y.toModel.unpack = .infinity .positive := unpackedKind_eq_top.mp hy
    rw [le_eq_compare, hy]
    cases hu : x.toModel.unpack with
    | notANumber => exact absurd (kindOf_eq_nan.mpr hu) hx
    | infinity s => cases s <;> rfl
    | zero s => rfl
    | finite s m e hm => cases s <;> rfl
  neg_nan := by
    intro x h
    rw [kindOf_eq_nan, unpack_neg] at h
    rw [kindOf_eq_nan, ← neg_neg_unpacked x.toModel.unpack, h]
    rfl
  sub_nan := by
    intro x y h
    apply kindOf_pack_nan
    rcases h with hx | hy
    · rw [kindOf_eq_nan.mp hx]
      rfl
    · rw [kindOf_eq_nan.mp hy]
      cases x.toModel.unpack <;> rfl
  div_nan := by
    intro x y hy
    apply kindOf_pack_nan
    rw [kindOf_eq_nan.mp hy]
    cases x.toModel.unpack <;> rfl
  abs_nan := by
    intro x hx
    apply kindOf_pack_nan
    rw [kindOf_eq_nan.mp hx]
    rfl
  sub_apart := fun h => kindOf_pack_infinite (sub_of_apart _ h)
  add_apart := fun h => kindOf_pack_infinite (add_of_apart _ h)
  abs_infinite := by
    intro x h
    rcases unpackedKind_infinite.mp h with ⟨s, hs⟩
    apply kindOf_pack_top
    rw [hs]
    rfl
  scale_top := by
    intro x hx
    have hx : x.toModel.unpack = .infinity .positive := unpackedKind_eq_top.mp hx
    have hfirst : kindOf (binary64.mul binary64.relativeEpsilon x) = .top := by
      apply kindOf_pack_top
      rw [hx]
      rfl
    apply kindOf_pack_top
    rw [unpackedKind_eq_top.mp hfirst]
    rfl

end SimplexMethod
