import SimplexMethod.Decimal.Rounding

/-!
# Shortest decimals

The decimal with the fewest digits that still denotes a given double.

A double stands for every real that rounds to it, which is an interval around
its value: half a spacing to either side, the lower half being narrower just
above a power of two, with the ends included when the mantissa is even. A
decimal reads back as the double exactly when it lies in that interval, so the
shortest text is the first grid `10 ^ s`, from coarse to fine, with a point
inside. Only the two grid points next to the value need a test: if any point
of the grid is inside, one of these is. Seventeen digits always suffice.

## Main definitions

* `Binary`: A positive double as an integer times a power of two.
* `Binary.contains`: Whether a decimal reads back as the double.
* `Binary.candidate?`: The better grid point with a given number of digits.
* `shortest`: The shortest decimal, the nearest one of its length.
-/

namespace SimplexMethod

namespace Decimal

/-- A positive double `mantissa · 2 ^ exponent`. -/
structure Binary where
  /-- The integer mantissa, at least `2 ^ 52` unless the double is subnormal. -/
  mantissa : Nat
  /-- The binary exponent of the mantissa's last bit. -/
  exponent : Int

namespace Binary

/-- The value as an exact fraction. -/
def value (x : Binary) : Magnitude := Magnitude.ofBinary x.mantissa x.exponent

/-- The lower end of the interval, in quarters of the spacing. Just above a
    power of two the double below is only half as far away. -/
def lowerQuarters (x : Binary) : Nat :=
  if x.mantissa = Nat.pow 2 52 ∧ -1074 < x.exponent then 4 * x.mantissa - 1
  else 4 * x.mantissa - 2

/-- The upper end of the interval, in quarters of the spacing. -/
def upperQuarters (x : Binary) : Nat := 4 * x.mantissa + 2

/-- How `t · 10 ^ s` compares with `quarters` quarters of the spacing. -/
def compareQuarters (x : Binary) (t : Nat) (s : Int) (quarters : Nat) : Ordering :=
  let r := x.exponent - 2
  compare (t * Nat.pow 10 s.toNat * Nat.pow 2 (-r).toNat)
    (quarters * Nat.pow 2 r.toNat * Nat.pow 10 (-s).toNat)

/-- Whether `t · 10 ^ s` reads back as the double. An end of the interval is a
    tie, which goes to the even mantissa. -/
def contains (x : Binary) (t : Nat) (s : Int) : Bool :=
  let even := x.mantissa % 2 == 0
  let below := x.compareQuarters t s x.lowerQuarters
  let above := x.compareQuarters t s x.upperQuarters
  (below == .gt || (even && below == .eq)) && (above == .lt || (even && above == .eq))

/-- The grid point with `count` digits next to the value that reads back as the
    double: the nearer of the two neighbours if both do, the even one on a tie. -/
def candidate? (x : Binary) (count : Nat) : Option (Nat × Int) :=
  let s := x.value.exponent - count + 1
  let unit := x.value.scale (-s)
  let low := unit.num / unit.den
  let nearest := unit.round
  let other := if nearest = low then low + 1 else low
  if x.contains nearest s then some (nearest, s)
  else if x.contains other s then some (other, s)
  else none

end Binary

/-- The integer `t` and the exponent `s` of the shortest decimal `t · 10 ^ s`
    that reads back as the double. -/
def shortest (x : Binary) : Nat × Int :=
  ((List.range 17).findSome? fun i => x.candidate? (i + 1)).getD (x.value.significant 17)

end Decimal

end SimplexMethod
