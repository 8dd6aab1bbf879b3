import SimplexMethod.NumberText
import SimplexMethod.Proofs.SignedZeros

/-!
# Decimal texts

Which doubles a text with a set number of decimal places tells apart.

A double that is exact to the places written loses nothing by rounding, so its text is the
number of units of its last place, with a point before the last digits and a sign in front.
Units are read back from such a text: there is one point, and digits on both sides of it,
those on the right padded with zeros that count for nothing. So the text determines sign
and magnitude.

Sign and magnitude determine the double. Its mantissa fills 53 bits unless its exponent is
the least, so a magnitude can be shifted in one way only to become a mantissa. The two
zeros have one magnitude and different signs, and their texts differ in the sign.

## Main definitions

* `Binary64.rational?`: The rational number that a double denotes.
* `Binary64.ExactTo`: A double that needs no more than some decimal places.
* `Binary64.Normalized`: Mantissas and exponents of doubles.

## Theorems

* `Decimal.fixedText_inj`: A text with decimal places determines the units.
* `Decimal.fixed_eq_of_exact`: What is exact is not rounded.
* `Binary64.Normalized.unique`: A magnitude has one mantissa and exponent.
* `Binary64.eq_of_reading`: Sign and magnitude determine a double.
* `Binary64.signedFixed_inj`: So does its text, if it is exact.
-/

namespace SimplexMethod

namespace Decimal

section Digits

theorem toDigits_inj {m n : Nat} (h : Nat.toDigits 10 m = Nat.toDigits 10 n) : m = n := by
  have hread := congrArg (fun digits => Nat.ofDigitChars 10 digits 0) h
  simpa only [Nat.ofDigitChars_ten_toDigits] using hread

-- Zeros in front of a number do not change it.
theorem padded_inj {k l m n : Nat}
    (h : zeros k ++ Nat.toDigits 10 m = zeros l ++ Nat.toDigits 10 n) : m = n := by
  have hread := congrArg (fun digits => Nat.ofDigitChars 10 digits 0) h
  simpa only [zeros, Nat.ofDigitChars_append, Nat.ofDigitChars_replicate_zero, Nat.mul_zero,
    Nat.ofDigitChars_ten_toDigits] using hread

theorem isDigit_of_mem_toDigits {n : Nat} {c : Char} (h : c ∈ Nat.toDigits 10 n) :
    c.isDigit = true :=
  Nat.isDigit_of_mem_toDigits (by decide) (by decide) h

theorem isDigit_of_mem_padded {k n : Nat} {c : Char}
    (h : c ∈ zeros k ++ Nat.toDigits 10 n) : c.isDigit = true := by
  rcases List.mem_append.mp h with hzero | hdigit
  · rw [(List.mem_replicate.mp hzero).2]
    decide
  · exact isDigit_of_mem_toDigits hdigit

theorem mem_fixedText {places units : Nat} {c : Char} (h : c ∈ fixedText places units) :
    c.isDigit = true ∨ c = '.' := by
  rcases List.mem_append.mp h with hwhole | hrest
  · exact Or.inl (isDigit_of_mem_toDigits hwhole)
  · rcases List.mem_cons.mp hrest with rfl | hfraction
    · exact Or.inr rfl
    · exact Or.inl (isDigit_of_mem_padded hfraction)

/-- A text with decimal places determines the units of the last place. -/
theorem fixedText_inj {places m n : Nat} (h : fixedText places m = fixedText places n) :
    m = n := by
  have hpoint : ∀ {digits : List Char}, (∀ c ∈ digits, c.isDigit = true) → '.' ∉ digits :=
    fun hdigits hmem => absurd (hdigits '.' hmem) (by decide)
  unfold fixedText at h
  rcases (List.append_cons_inj_of_notMem (hpoint fun _ => isDigit_of_mem_toDigits)
    (hpoint fun _ => isDigit_of_mem_padded)).mp h with ⟨hwhole, _, hfraction⟩
  rw [← Nat.div_add_mod m (Nat.pow 10 places), ← Nat.div_add_mod n (Nat.pow 10 places),
    toDigits_inj hwhole, padded_inj hfraction]

end Digits

section Rounding

theorem roundDiv_of_exact {n d q : Nat} (hd : 0 < d) (h : n = q * d) : roundDiv n d = q := by
  have hquotient : n / d = q := by rw [h, Nat.mul_div_cancel q hd]
  have hrest : n % d = 0 := by rw [h, Nat.mul_mod_left]
  simp only [roundDiv, hquotient, hrest, Nat.mul_zero, if_pos hd]

-- A power of two as the fraction that a magnitude holds.
theorem two_zpow_eq_div (e : Int) :
    (2 : Rat) ^ e = (2 ^ e.toNat : Nat) / (2 ^ (-e).toNat : Nat) := by
  rcases Int.le_total 0 e with he | he
  · have hneg : (-e).toNat = 0 := by omega
    rw [hneg, Nat.pow_zero, Nat.cast_one, div_one, Nat.cast_pow, Nat.cast_ofNat,
      ← zpow_natCast, Int.toNat_of_nonneg he]
  · have hpos : e.toNat = 0 := by omega
    rw [hpos, Nat.pow_zero, Nat.cast_one, one_div, Nat.cast_pow, Nat.cast_ofNat,
      ← zpow_natCast, ← zpow_neg, Int.toNat_of_nonneg (by omega), neg_neg]

/-- A magnitude that is a number of units of the last place is not rounded. -/
theorem fixed_eq_of_exact {places mantissa units : Nat} {exponent : Int}
    (h : (mantissa : Rat) * 2 ^ exponent = units / 10 ^ places) :
    (Magnitude.ofBinary mantissa exponent).fixed places = units := by
  have hpower : (0 : Nat) < 2 ^ (-exponent).toNat := Nat.two_pow_pos _
  have hdenominator : ((2 ^ (-exponent).toNat : Nat) : Rat) ≠ 0 := by
    exact_mod_cast hpower.ne'
  rw [two_zpow_eq_div, ← mul_div_assoc, div_eq_div_iff hdenominator (by positivity)] at h
  have hscaled : mantissa * 2 ^ exponent.toNat * 10 ^ places = units * 2 ^ (-exponent).toNat := by
    exact_mod_cast h
  have hplaces : (-(places : Int)).toNat = 0 := by omega
  simp only [Magnitude.fixed, Magnitude.scale, Magnitude.ofBinary, Magnitude.round,
    Int.toNat_natCast, hplaces, Nat.pow_eq, Nat.pow_zero, Nat.mul_one]
  exact roundDiv_of_exact hpower hscaled

end Rounding

end Decimal

namespace Binary64

open Float.Model Decimal

/-- The rational number that a double denotes. Both zeros denote zero; an infinity, and what
    is not a number, denote none. -/
def rational? (x : Float) : Option Rat :=
  match Reading.ofFloat x with
  | .finite negative mantissa exponent =>
    some ((if negative then -1 else 1) * (mantissa * 2 ^ exponent))
  | _ => none

/-- A double that is finite and exact to a number of decimal places. -/
def ExactTo (places : Nat) (x : Float) : Prop :=
  ∃ units : Int, rational? x = some ((units : Rat) / 10 ^ places)

theorem ExactTo.of_reading {places : Nat} {x : Float} (units : Int) (negative : Bool)
    (mantissa : Nat) (exponent : Int)
    (hreading : Reading.ofFloat x = .finite negative mantissa exponent)
    (hunits : (if negative then -1 else 1) * ((mantissa : Rat) * 2 ^ exponent) =
      units / 10 ^ places) : ExactTo places x := by
  refine ⟨units, ?_⟩
  rw [rational?, hreading]
  exact congrArg some hunits

theorem ExactTo.reading {places : Nat} {x : Float} (h : ExactTo places x) :
    ∃ negative mantissa exponent, Reading.ofFloat x = .finite negative mantissa exponent ∧
      ∃ units : Nat, (mantissa : Rat) * 2 ^ exponent = units / 10 ^ places := by
  rcases h with ⟨units, hx⟩
  unfold rational? at hx
  split at hx
  · rename_i negative mantissa exponent hreading
    have hvalue := congrArg (fun r : Rat => |r|) (Option.some.inj hx)
    have hsign : |if negative = true then (-1 : Rat) else 1| = 1 := by
      cases negative <;> simp
    rw [abs_mul, hsign, one_mul, abs_of_nonneg (by positivity), abs_div,
      abs_of_pos (show (0 : Rat) < 10 ^ places by positivity)] at hvalue
    refine ⟨negative, mantissa, exponent, hreading, units.natAbs, ?_⟩
    rw [hvalue, Nat.cast_natAbs, Int.cast_abs]
  · exact absurd hx (by simp)

section Magnitudes

/-- Mantissa and exponent as they are unpacked: the mantissa fills its bits unless the
    exponent is the least. -/
structure Normalized (mantissa : Nat) (exponent : Int) : Prop where
  lt : mantissa < 2 ^ 53
  least_le : -1074 ≤ exponent
  full_or_least : 2 ^ 52 ≤ mantissa ∨ exponent = -1074

-- The leading bit of a normal mantissa is not stored.
theorem toNat_leading {w : Nat} (stored : BitVec w) :
    (1#1 ++ stored).toNat = 2 ^ w + stored.toNat := by
  have hleading : (1#1).toNat <<< w = 2 ^ w * 1 := by
    rw [BitVec.toNat_ofNat, Nat.shiftLeft_eq, Nat.mul_one, Nat.pow_one, Nat.one_mod, Nat.one_mul]
  rw [BitVec.toNat_append, hleading, ← Nat.two_pow_add_eq_or_of_lt stored.isLt, Nat.mul_one]

theorem normalized_unpack {b : BitVec Format.binary64.numBits} {s : UnpackedFloat.Sign}
    {m : Nat} {e : Int} {hm : 0 < m}
    (h : UnpackedFloat.unpack Format.binary64 b = .finite s m e hm) : Normalized m e := by
  have hmantissa : (UnpackedFloat.unpackMantissa b).toNat < 2 ^ 52 :=
    (UnpackedFloat.unpackMantissa b).isLt
  have hbias : (Format.binary64.exponentBias : Int) = 1023 := rfl
  have hbits : (Format.binary64.mantissaBitsWithoutImplicit : Int) = 52 := rfl
  unfold UnpackedFloat.unpack at h
  dsimp only at h
  split at h
  · split at h <;> exact UnpackedFloat.noConfusion h
  · split at h
    · rename_i hleast
      split at h
      · exact UnpackedFloat.noConfusion h
      · -- Subnormal: the stored exponent is zero, which stands for the least one.
        rcases UnpackedFloat.finite.inj h with ⟨_, hm', he⟩
        have hzero : (UnpackedFloat.unpackExponent b).toNat = 0 := by
          simpa [BitVec.toNat_eq] using hleast
        rw [hzero, hbias, hbits] at he
        exact ⟨by omega, by omega, Or.inr (by omega)⟩
    · rename_i hstored
      rcases UnpackedFloat.finite.inj h with ⟨_, hm', he⟩
      have hpos : (UnpackedFloat.unpackExponent b).toNat ≠ 0 := by
        simpa [BitVec.toNat_eq] using hstored
      have hleading : m = 2 ^ 52 + (UnpackedFloat.unpackMantissa b).toNat :=
        hm'.symm.trans (toNat_leading _)
      rw [hbias, hbits] at he
      exact ⟨by omega, by omega, Or.inl (by omega)⟩

/-- A magnitude has one mantissa and one exponent. -/
theorem Normalized.unique {m n : Nat} {e f : Int} (hm : Normalized m e) (hn : Normalized n f)
    (h : (m : Rat) * 2 ^ e = n * 2 ^ f) : m = n ∧ e = f := by
  wlog hle : e ≤ f generalizing m n e f
  · rcases this hn hm h.symm (by omega) with ⟨hmantissa, hexponent⟩
    exact ⟨hmantissa.symm, hexponent.symm⟩
  have hshift : m = n * 2 ^ (f - e).toNat := by
    have hquotient : (m : Rat) = n * 2 ^ (f - e) := by
      rw [zpow_sub₀ two_ne_zero, ← mul_div_assoc, ← h, mul_div_assoc,
        div_self (zpow_ne_zero e two_ne_zero), mul_one]
    rw [← Int.toNat_of_nonneg (show 0 ≤ f - e by omega), zpow_natCast] at hquotient
    exact_mod_cast hquotient
  by_cases heq : e = f
  · rw [heq, Int.sub_self, Int.toNat_zero, Nat.pow_zero, Nat.mul_one] at hshift
    exact ⟨hshift, heq⟩
  · -- The larger exponent is not the least, so its mantissa is full, and shifted by a bit or
    -- more it would not fit.
    have hfull : 2 ^ 52 ≤ n := hn.full_or_least.resolve_right (by have := hm.least_le; omega)
    have hbit : 2 ^ 1 ≤ 2 ^ (f - e).toNat := Nat.pow_le_pow_right (by decide) (by omega)
    have hwide := Nat.mul_le_mul hfull hbit
    have hfits := hm.lt
    omega

/-- The sign of what is read as negative or not. -/
def signOf (negative : Bool) : UnpackedFloat.Sign := if negative then .negative else .positive

-- A finite reading is that of a zero, or has its mantissa and exponent from the double.
theorem unpack_of_reading {x : Float} {negative : Bool} {mantissa : Nat} {exponent : Int}
    (h : Reading.ofFloat x = .finite negative mantissa exponent) :
    mantissa = 0 ∧ x.toModel.unpack = .zero (signOf negative) ∨
      ∃ hm, x.toModel.unpack = .finite (signOf negative) mantissa exponent hm := by
  have hsign : ∀ s : UnpackedFloat.Sign, signOf (s == .negative) = s := by
    intro s
    cases s <;> rfl
  unfold Reading.ofFloat at h
  split at h
  · exact Reading.noConfusion h
  · exact Reading.noConfusion h
  · rename_i s hunpack
    rcases Reading.finite.inj h with ⟨rfl, rfl, rfl⟩
    exact Or.inl ⟨rfl, by rw [hunpack, hsign]⟩
  · rename_i s m e hm hunpack
    rcases Reading.finite.inj h with ⟨rfl, rfl, rfl⟩
    exact Or.inr ⟨hm, by rw [hunpack, hsign]⟩

theorem eq_of_unpack {x y : Float} (h : x.toModel.unpack = y.toModel.unpack) : x = y := by
  rw [← ofModel_pack_unpack x, h, ofModel_pack_unpack]

/-- Sign and magnitude determine a double. -/
theorem eq_of_reading {x y : Float} {negative : Bool} {m n : Nat} {e f : Int}
    (hx : Reading.ofFloat x = .finite negative m e)
    (hy : Reading.ofFloat y = .finite negative n f) (h : (m : Rat) * 2 ^ e = n * 2 ^ f) :
    x = y := by
  have hpositive : ∀ {k : Nat} (i : Int), 0 < k → (0 : Rat) < k * 2 ^ i := by
    intro k i hk
    have : (0 : Rat) < k := by exact_mod_cast hk
    positivity
  apply eq_of_unpack
  rcases unpack_of_reading hx with ⟨rfl, hxzero⟩ | ⟨hm, hxfinite⟩
  · rcases unpack_of_reading hy with ⟨rfl, hyzero⟩ | ⟨hn, _⟩
    · rw [hxzero, hyzero]
    · have hlarge := hpositive f hn
      rw [← h, Nat.cast_zero, zero_mul] at hlarge
      exact absurd hlarge (lt_irrefl 0)
  · rcases unpack_of_reading hy with ⟨rfl, _⟩ | ⟨hn, hyfinite⟩
    · have hlarge := hpositive e hm
      rw [h, Nat.cast_zero, zero_mul] at hlarge
      exact absurd hlarge (lt_irrefl 0)
    · rcases (normalized_unpack hxfinite).unique (normalized_unpack hyfinite) h with ⟨rfl, rfl⟩
      rw [hxfinite, hyfinite]

end Magnitudes

section Texts

variable {places : Nat}

-- The text of an exact double is its sign and its units.
theorem toList_signedFixed {x : Float} {negative : Bool} {mantissa units : Nat} {exponent : Int}
    (hreading : Reading.ofFloat x = .finite negative mantissa exponent)
    (hunits : (mantissa : Rat) * 2 ^ exponent = units / 10 ^ places) :
    (signedFixed places x).toList =
      (if negative then '-' else '+') :: fixedText places units := by
  rw [signedFixed, text, hreading, String.toList_ofList]
  dsimp only
  rw [fixedMagnitude, fixed_eq_of_exact hunits]
  cases negative <;> rfl

/-- The text of an exact double determines it, the sign of a zero included. -/
theorem signedFixed_inj {x y : Float} (hx : ExactTo places x) (hy : ExactTo places y)
    (h : signedFixed places x = signedFixed places y) : x = y := by
  rcases hx.reading with ⟨negative, m, e, hreadx, units, hunits⟩
  rcases hy.reading with ⟨negative', n, f, hready, units', hunits'⟩
  have hchars := congrArg String.toList h
  rw [toList_signedFixed hreadx hunits, toList_signedFixed hready hunits', List.cons.injEq]
    at hchars
  rcases hchars with ⟨hmark, hdigits⟩
  have hsign : negative = negative' := by
    revert hmark
    cases negative <;> cases negative' <;> decide
  rw [← hsign] at hready
  exact eq_of_reading hreadx hready (by rw [hunits, hunits', fixedText_inj hdigits])

end Texts

end Binary64

end SimplexMethod
