/-!
# Exact decimal rounding

Nonnegative rationals and their roundings to decimal grids, in natural number
arithmetic.

A finite double is an integer times a power of two, so its decimal expansion
ends, and every question about the digits it prints is a question about
integers. Nothing here is approximate: a magnitude is scaled by a power of ten
as a fraction, and `roundDiv` takes the nearest integer once, a tie going to
the even neighbour.

## Main definitions

* `roundDiv`: The integer nearest to a quotient, ties to even.
* `Magnitude`: A nonnegative rational as a fraction.
* `Magnitude.exponent`: The power of ten of the leading digit.
* `Magnitude.significant`: Rounding to a number of significant digits.
* `Magnitude.fixed`: Rounding to a number of decimal places.
-/

namespace SimplexMethod

namespace Decimal

/-- The integer nearest to `n / d`, the even one if two are equally near. -/
def roundDiv (n d : Nat) : Nat :=
  let q := n / d
  let twice := 2 * (n % d)
  if twice < d then q
  else if d < twice then q + 1
  else if q % 2 = 0 then q else q + 1

/-- How many decimal digits a natural number is written with. -/
def digitCount (n : Nat) : Nat := (Nat.toDigits 10 n).length

/-- A nonnegative rational `num / den`. -/
structure Magnitude where
  /-- The numerator. -/
  num : Nat
  /-- The denominator, positive in every use. -/
  den : Nat

namespace Magnitude

/-- The magnitude `mantissa · 2 ^ exponent`. -/
def ofBinary (mantissa : Nat) (exponent : Int) : Magnitude :=
  ⟨mantissa * Nat.pow 2 exponent.toNat, Nat.pow 2 (-exponent).toNat⟩

/-- The magnitude times `10 ^ k`. -/
def scale (v : Magnitude) (k : Int) : Magnitude :=
  ⟨v.num * Nat.pow 10 k.toNat, v.den * Nat.pow 10 (-k).toNat⟩

/-- The integer nearest to the magnitude, ties to even. -/
def round (v : Magnitude) : Nat := roundDiv v.num v.den

/-- The exponent `e` with `10 ^ e ≤ v < 10 ^ (e + 1)`, for a positive `v`. The
    digit counts of numerator and denominator leave two candidates. -/
def exponent (v : Magnitude) : Int :=
  let guess : Int := digitCount v.num - digitCount v.den
  let unit := v.scale (-guess)
  if unit.den ≤ unit.num then guess else guess - 1

/-- The integer `t` and the exponent `s` such that `t · 10 ^ s` is the magnitude
    rounded to `count` significant digits. -/
def significant (v : Magnitude) (count : Nat) : Nat × Int :=
  let s := v.exponent - count + 1
  ((v.scale (-s)).round, s)

/-- The magnitude in units of `10 ^ (-places)`, rounded. -/
def fixed (v : Magnitude) (places : Nat) : Nat := (v.scale places).round

end Magnitude

end Decimal

end SimplexMethod
