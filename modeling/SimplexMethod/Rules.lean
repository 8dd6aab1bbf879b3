/-!
# Pivoting rules

The choices a caller makes about a run, and the words for them.

The *column rule* picks the column that enters the basis, the *row rule* breaks
ties between rows that could leave, and *checking* says whether each vertex is
validated and what a failed check does. Each rule has a printed name, a word to
write it in a setting, sometimes a second word naming its inventor, and a
number.

## Main definitions

* `ColumnRule`, `RowRule`, `Checking`: The rules.
* `ColumnRule.parse?`, `RowRule.parse?`, `Checking.parse?`: From a word.
* `ColumnRule.word`, `RowRule.word`, `Checking.word`: To a word.

## Theorems

* `ColumnRule.parse?_word`, `RowRule.parse?_word`, `Checking.parse?_word`: The
  word of a rule asks for that rule.
* `ColumnRule.ofCode?_code`, `RowRule.ofCode?_code`, `Checking.ofCode?_code`: So
  does its number.
-/

namespace SimplexMethod

/-- Which column enters the basis. -/
inductive ColumnRule where
  /-- The first column that improves the objective. -/
  | firstEligible
  /-- The column whose reduced cost is most negative. -/
  | mostNegative
deriving DecidableEq

namespace ColumnRule

/-- The printed name. -/
def label : ColumnRule → String
  | firstEligible => "FIRST_ELIGIBLE"
  | mostNegative => "BIGGEST_ABSOLUTE_REDUCED_COST"

/-- The word a setting is written with. -/
def word : ColumnRule → String
  | firstEligible => "first_eligible"
  | mostNegative => "biggest_absolute_reduced_cost"

/-- The rule a setting's text asks for. -/
def parse? (text : String) : Option ColumnRule :=
  if text = "first_eligible" ∨ text = "bland" then some firstEligible
  else if text = "biggest_absolute_reduced_cost" ∨ text = "dantzig" then some mostNegative
  else none

/-- The number of a rule. -/
def code : ColumnRule → Nat
  | firstEligible => 0
  | mostNegative => 1

/-- The rule with a given number. -/
def ofCode? : Int → Option ColumnRule
  | 0 => some firstEligible
  | 1 => some mostNegative
  | _ => none

theorem parse?_word (rule : ColumnRule) : parse? rule.word = some rule := by
  cases rule <;> decide

theorem ofCode?_code (rule : ColumnRule) : ofCode? rule.code = some rule := by
  cases rule <;> rfl

end ColumnRule

/-- Which of the rows that tie in the minimum ratio test leaves the basis. -/
inductive RowRule where
  /-- The topmost. -/
  | lowestRow
  /-- The one whose basic column comes first. -/
  | lowestBasicColumn
  /-- The one whose scaled slack block is lexicographically least. -/
  | lexicographic
deriving DecidableEq

namespace RowRule

/-- The printed name. -/
def label : RowRule → String
  | lowestRow => "LOWEST_ROW_INDEX"
  | lowestBasicColumn => "LOWEST_BASIC_COLUMN_INDEX"
  | lexicographic => "LEXICOGRAPHIC"

/-- The word a setting is written with. -/
def word : RowRule → String
  | lowestRow => "lowest_row_index"
  | lowestBasicColumn => "lowest_basic_column_index"
  | lexicographic => "lexicographic"

/-- The rule a setting's text asks for. -/
def parse? (text : String) : Option RowRule :=
  if text = "lowest_row_index" then some lowestRow
  else if text = "lowest_basic_column_index" ∨ text = "bland" then some lowestBasicColumn
  else if text = "lexicographic" then some lexicographic
  else none

/-- The number of a rule. -/
def code : RowRule → Nat
  | lowestRow => 0
  | lowestBasicColumn => 1
  | lexicographic => 2

/-- The rule with a given number. -/
def ofCode? : Int → Option RowRule
  | 0 => some lowestRow
  | 1 => some lowestBasicColumn
  | 2 => some lexicographic
  | _ => none

theorem parse?_word (rule : RowRule) : parse? rule.word = some rule := by
  cases rule <;> decide

theorem ofCode?_code (rule : RowRule) : ofCode? rule.code = some rule := by
  cases rule <;> rfl

end RowRule

/-- Whether vertices are validated, and what a failed check does. -/
inductive Checking where
  /-- No check is made. -/
  | off
  /-- A failed check ends the run. -/
  | stopOnError
  /-- A failed check is only logged. -/
  | reportOnly
deriving DecidableEq

namespace Checking

/-- The word a setting is written with. -/
def word : Checking → String
  | off => "dont_validate"
  | stopOnError => "validate_and_stop_on_error"
  | reportOnly => "validate_and_dont_stop_on_error"

/-- The mode a setting's text asks for. -/
def parse? (text : String) : Option Checking :=
  if text = "dont_validate" then some off
  else if text = "validate_and_stop_on_error" then some stopOnError
  else if text = "validate_and_dont_stop_on_error" then some reportOnly
  else none

/-- The number of a mode. -/
def code : Checking → Nat
  | off => 0
  | stopOnError => 1
  | reportOnly => 2

/-- The mode with a given number. -/
def ofCode? : Int → Option Checking
  | 0 => some off
  | 1 => some stopOnError
  | 2 => some reportOnly
  | _ => none

theorem parse?_word (mode : Checking) : parse? mode.word = some mode := by
  cases mode <;> decide

theorem ofCode?_code (mode : Checking) : ofCode? mode.code = some mode := by
  cases mode <;> rfl

end Checking

/-- What is said of a word that names no rule. -/
def unknownWordMessage : String := "unknown value for enumeration"

end SimplexMethod
