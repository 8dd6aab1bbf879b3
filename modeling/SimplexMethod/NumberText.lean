import SimplexMethod.Decimal.Notation

/-!
# Number text

How numbers are shown, as a value.

Messages, tables and listings print numbers of the type they compute with, and
each has its own format. `NumberText α` names the four of them, so that a table
can be laid out, and its width reasoned about, without knowing what a number
looks like.

## Main definitions

* `NumberText`: The four ways a number is shown.
* `NumberText.binary64`: The texts of doubles.
-/

namespace SimplexMethod

/-- The four ways a number is shown. -/
structure NumberText (α : Type) where
  /-- In messages: as short as the number allows. -/
  plain : α → String
  /-- In tables: six decimal places. -/
  cell : α → String
  /-- In listings: six decimal places and a sign. -/
  term : α → String
  /-- For the current objective value: sixteen significant digits. -/
  precise : α → String

/-- The texts of doubles. -/
def NumberText.binary64 : NumberText Float where
  plain := Decimal.plain
  cell := Decimal.fixed 6
  term := Decimal.signedFixed 6
  precise := Decimal.general 16

end SimplexMethod
