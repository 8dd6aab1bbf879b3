import SimplexMethod.Decimal.Shortest

/-!
# Decimal notation

How a sign, digits and an exponent become text.

Three ways of writing a double share their parts. The *shortest* text has the
fewest digits that read back and is positional for numbers from `10 ^ (-4)` up
to, but not including, `10 ^ 16`. The *general* text rounds to a number of
significant digits, drops trailing zeros, and is positional below ten to that
number. The *fixed* text has a set number of decimal places. Outside the
positional range a number is written `d.ddde±XX`, with two exponent digits or
more. A zero keeps its sign, and what is not a number is written `nan`.

## Main definitions

* `Reading`: A double as sign, mantissa and exponent, or what else it may be.
* `positional`, `scientific`, `write`: The two notations and the choice between
  them.
* `fixedText`: A number of decimal places.
* `plain`, `general`, `fixed`, `signedFixed`: Texts of doubles.
-/

namespace SimplexMethod

namespace Decimal

/-- What a double denotes. -/
inductive Reading where
  /-- No number. -/
  | nan
  /-- An infinity of either sign. -/
  | infinite (negative : Bool)
  /-- The number `mantissa · 2 ^ exponent` with a sign; a zero is signed too. -/
  | finite (negative : Bool) (mantissa : Nat) (exponent : Int)

/-- Read a double. -/
def Reading.ofFloat (x : Float) : Reading :=
  match x.toModel.unpack with
  | .notANumber => .nan
  | .infinity sign => .infinite (sign == .negative)
  | .zero sign => .finite (sign == .negative) 0 0
  | .finite sign mantissa exponent _ => .finite (sign == .negative) mantissa exponent

/-- The digits of a natural number, without the zeros at its end. -/
def significantDigits (t : Nat) : List Char :=
  ((Nat.toDigits 10 t).reverse.dropWhile (· == '0')).reverse

/-- A run of zeros. -/
def zeros (count : Nat) : List Char := List.replicate count '0'

/-- A nonempty digit list with its leading digit worth `10 ^ e`, written with
    the point at its place. -/
def positional (digits : List Char) (e : Int) : List Char :=
  if e < 0 then '0' :: '.' :: (zeros (-e - 1).toNat ++ digits)
  else
    let whole := e.toNat + 1
    if digits.length ≤ whole then digits ++ zeros (whole - digits.length)
    else digits.take whole ++ '.' :: digits.drop whole

/-- The exponent with its sign and at least two digits. -/
def exponentText (e : Int) : List Char :=
  let digits := Nat.toDigits 10 e.natAbs
  'e' :: (if e < 0 then '-' else '+') :: (zeros (2 - digits.length) ++ digits)

/-- A nonempty digit list with its leading digit worth `10 ^ e`, written with
    the point after the leading digit. -/
def scientific (digits : List Char) (e : Int) : List Char :=
  let tail := digits.drop 1
  digits.take 1 ++ (if tail.isEmpty then [] else '.' :: tail) ++ exponentText e

/-- The positive decimal `t · 10 ^ s`, positional when its leading digit is
    worth at least `10 ^ (-4)` and less than `10 ^ limit`. -/
def write (limit : Int) (t : Nat) (s : Int) : List Char :=
  let digits := significantDigits t
  let e := s + digitCount t - 1
  if -4 ≤ e ∧ e < limit then positional digits e else scientific digits e

/-- The number `units · 10 ^ (-places)` with all its decimal places. -/
def fixedText (places units : Nat) : List Char :=
  let fraction := Nat.toDigits 10 (units % Nat.pow 10 places)
  Nat.toDigits 10 (units / Nat.pow 10 places) ++
    '.' :: (zeros (places - fraction.length) ++ fraction)

/-- Text of a double, from the text of a finite magnitude. A plus sign is
    written only when `plus` asks for it. -/
def text (plus : Bool) (magnitude : (mantissa : Nat) → (exponent : Int) → List Char)
    (x : Float) : String :=
  let mark (negative : Bool) : List Char :=
    if negative then ['-'] else if plus then ['+'] else []
  String.ofList <|
    match Reading.ofFloat x with
    | .nan => mark false ++ ['n', 'a', 'n']
    | .infinite negative => mark negative ++ ['i', 'n', 'f']
    | .finite negative mantissa exponent => mark negative ++ magnitude mantissa exponent

/-- The fewest digits that read back, positional below `10 ^ 16`. -/
def plain (x : Float) : String :=
  text false (fun m e =>
    if m = 0 then ['0'] else
      let (t, s) := shortest ⟨m, e⟩
      write 16 t s) x

/-- At most `count` significant digits, trailing zeros dropped, positional below
    `10 ^ count`. -/
def general (count : Nat) (x : Float) : String :=
  text false (fun m e =>
    if m = 0 then ['0'] else
      let (t, s) := (Magnitude.ofBinary m e).significant count
      write count t s) x

/-- A magnitude with the given number of decimal places. -/
def fixedMagnitude (places m : Nat) (e : Int) : List Char :=
  fixedText places ((Magnitude.ofBinary m e).fixed places)

/-- The given number of decimal places, ties to even. -/
def fixed (places : Nat) (x : Float) : String :=
  text false (fixedMagnitude places) x

/-- The given number of decimal places, with a sign always. -/
def signedFixed (places : Nat) (x : Float) : String :=
  text true (fixedMagnitude places) x

end Decimal

end SimplexMethod
