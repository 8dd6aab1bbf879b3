/-!
# Arithmetic

The numbers the simplex method computes with, as a value.

Every algorithm of this library is written once, over an `Arithmetic α`: a
record of operations on `α` and of three Boolean comparisons, with no law
attached. Two such records matter. `Arithmetic.binary64` is double precision,
where addition rounds, a comparison with a NaN is false, and `x < y` is not the
negation of `y ≤ x`. `Arithmetic.exact ε` is exact rational arithmetic, in
which the geometry of linear programs can be stated. Because no law is part of
the record, a statement about every `Arithmetic` holds for both, and says
nothing that rounding could break.

The relative epsilon is part of the record and not a constant: how far apart
two ratios may be and still count as a tie is a property of the number type,
and in exact arithmetic it is a parameter of its own.

Sums come in two kinds. The plain one adds from the left. The compensated one
keeps, beside the running sum, the low-order parts that rounding dropped, and
adds them back when it is read.

## Main definitions

* `Arithmetic`: Operations and comparisons of a number type, without laws.
* `Arithmetic.exact`: Rational arithmetic with a chosen relative epsilon.
* `Arithmetic.binary64`: Double precision arithmetic.
* `Arithmetic.near`: Equality up to an absolute tolerance or to rounding.
* `Compensated`: A running sum together with what rounding dropped from it.
* `Arithmetic.dot`, `Arithmetic.compensatedDot`: The two scalar products.

## Theorems

* `Arithmetic.exact_add` and its like: Exact arithmetic is that of the
  rationals.
-/

namespace SimplexMethod

/-- Operations and comparisons of a number type. No law is assumed: a
    comparison is any Boolean function. -/
structure Arithmetic (α : Type) where
  /-- The number an empty sum starts from and an untouched cell holds. -/
  zero : α
  /-- The number in the pivot cell after a pivot. -/
  one : α
  /-- Addition. -/
  add : α → α → α
  /-- Subtraction. -/
  sub : α → α → α
  /-- Multiplication. -/
  mul : α → α → α
  /-- Division. -/
  div : α → α → α
  /-- Change of sign. -/
  neg : α → α
  /-- Absolute value. -/
  abs : α → α
  /-- Strictly less. -/
  lt : α → α → Bool
  /-- Less or equal. -/
  le : α → α → Bool
  /-- Equal as numbers. -/
  eq : α → α → Bool
  /-- The number `digits · 10 ^ (-places)`. -/
  decimal : (digits places : Nat) → α
  /-- The relative error of one rounding. -/
  relativeEpsilon : α

namespace Arithmetic

/-- Exact rational arithmetic. Only the tie test reads the relative epsilon. -/
def exact (ε : Rat) : Arithmetic Rat where
  zero := 0
  one := 1
  add x y := x + y
  sub x y := x - y
  mul x y := x * y
  div x y := x / y
  neg x := -x
  abs x := if x < 0 then -x else x
  lt x y := decide (x < y)
  le x y := decide (x ≤ y)
  eq x y := decide (x = y)
  decimal digits places := (digits : Rat) / (10 : Rat) ^ places
  relativeEpsilon := ε

section Exact

variable (ε x y : Rat)

@[simp]
theorem exact_zero : (exact ε).zero = 0 := rfl

@[simp]
theorem exact_one : (exact ε).one = 1 := rfl

@[simp]
theorem exact_add : (exact ε).add x y = x + y := rfl

@[simp]
theorem exact_sub : (exact ε).sub x y = x - y := rfl

@[simp]
theorem exact_mul : (exact ε).mul x y = x * y := rfl

@[simp]
theorem exact_div : (exact ε).div x y = x / y := rfl

@[simp]
theorem exact_neg : (exact ε).neg x = -x := rfl

@[simp]
theorem exact_lt : (exact ε).lt x y = decide (x < y) := rfl

@[simp]
theorem exact_le : (exact ε).le x y = decide (x ≤ y) := rfl

@[simp]
theorem exact_eq : (exact ε).eq x y = decide (x = y) := rfl

@[simp]
theorem exact_relativeEpsilon : (exact ε).relativeEpsilon = ε := rfl

end Exact

/-- Double precision arithmetic, rounding to nearest, with signed zeros,
    infinities and NaN. Its relative epsilon is `2 ^ (-52)`. -/
def binary64 : Arithmetic Float where
  zero := 0
  one := 1
  add x y := x + y
  sub x y := x - y
  mul x y := x * y
  div x y := x / y
  neg x := -x
  abs x := x.abs
  lt x y := x.lt y
  le x y := x.le y
  eq x y := x == y
  decimal digits places := Float.ofScientific digits true places
  relativeEpsilon := Float.ofBits 0x3CB0000000000000

variable {α : Type} (K : Arithmetic α)

/-- The threshold `10 ^ (-10)` below which a reduced cost or a column entry
    counts as zero, unless the caller chooses another. -/
def defaultTolerance : α := K.decimal 1 10

/-- The slack `10 ^ (-6)` the checks of a vertex allow. -/
def checkTolerance : α := K.decimal 1 6

/-- The absolute tolerance `10 ^ (-9)` of a comparison that names none. -/
def absoluteEpsilon : α := K.decimal 1 9

/-- Two numbers are near when they differ by less than `tolerance`, or by no
    more than four roundings of their sum. -/
def near (x y tolerance : α) : Bool :=
  let gap := K.abs (K.sub x y)
  K.lt gap tolerance ||
    K.le gap (K.mul (K.mul K.relativeEpsilon (K.abs (K.add x y))) (K.decimal 4 0))

/-- The sum of the values, added from the left. -/
def sum (values : List α) : α :=
  values.foldl K.add K.zero

/-- The products of corresponding entries, as many as the shorter array has. -/
def products (a b : Array α) : List α :=
  List.zipWith K.mul a.toList b.toList

/-- The scalar product as a plain sum. -/
def dot (a b : Array α) : α :=
  K.sum (K.products a b)

end Arithmetic

/-- A running sum together with what rounding dropped from it. -/
structure Compensated (α : Type) where
  /-- The rounded sum. -/
  sum : α
  /-- The accumulated low-order parts. -/
  carry : α

namespace Compensated

variable {α : Type} (K : Arithmetic α)

/-- The empty sum. -/
def empty : Compensated α := ⟨K.zero, K.zero⟩

/-- Add a value. The part of the smaller addend that the rounded sum lost goes
    to the carry. -/
def add (s : Compensated α) (value : α) : Compensated α :=
  let total := K.add s.sum value
  let lost :=
    if K.le (K.abs value) (K.abs s.sum) then K.add (K.add s.sum (K.neg total)) value
    else K.add (K.add value (K.neg total)) s.sum
  ⟨total, K.add s.carry lost⟩

/-- The sum with its carry. -/
def read (s : Compensated α) : α := K.add s.sum s.carry

/-- The sum of a list of values. -/
def ofList (values : List α) : Compensated α :=
  values.foldl (add K) (empty K)

end Compensated

namespace Arithmetic

variable {α : Type} (K : Arithmetic α)

/-- The scalar product as a compensated sum. -/
def compensatedDot (a b : Array α) : α :=
  (Compensated.ofList K (K.products a b)).read K

end Arithmetic

end SimplexMethod
