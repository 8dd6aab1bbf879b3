import SimplexMethod.Demo

/-!
# Flags

Settings of the demonstration from command line arguments.

An argument is written `--flag=value`; a flag that is on or off may also be
written `--flag` or `--noflag`. Each flag sets one field of the settings, and a
later argument overrides an earlier one.

## Main definitions

* `Decimal.read?`: A double from its decimal text.
* `Demo.Settings.set?`: Setting one flag.
* `Demo.Settings.ofArguments`: Setting all of them.
-/

namespace SimplexMethod

namespace Decimal

/-- An unsigned decimal: digits, a point among them, a power of ten after them. -/
def readUnsigned? (text : List Char) : Option Float := do
  let whole := text.takeWhile Char.isDigit
  let rest := text.dropWhile Char.isDigit
  let (fraction, rest) := match rest with
    | '.' :: tail => (tail.takeWhile Char.isDigit, tail.dropWhile Char.isDigit)
    | _ => ([], rest)
  let digits ← (String.ofList (whole ++ fraction)).toNat?
  let power ← match rest with
    | [] => some 0
    | 'e' :: '+' :: tail => (String.ofList tail).toNat?.map Int.ofNat
    | 'e' :: tail => (String.ofList tail).toInt?
    | _ => none
  let exponent := power - fraction.length
  return Float.ofScientific digits (exponent < 0) exponent.natAbs

/-- A double from its decimal text. -/
def read? (text : String) : Option Float :=
  match text.toList with
  | '-' :: tail => (readUnsigned? tail).map fun x => -x
  | tail => readUnsigned? tail

end Decimal

namespace Demo

/-- A truth value from its text. -/
def readBool? (text : String) : Option Bool :=
  if text = "true" then some true else if text = "false" then some false else none

/-- Set one flag, if flag and value exist. -/
def Settings.set? (s : Settings) (flag value : String) : Option Settings :=
  match flag with
  | "log_level" => some { s with levelName := value }
  | "log_file" => some { s with logFile := value }
  | "lp_opt_stats_file" => some { s with summaryFile := value }
  | "lp_names" => some { s with names := (value.splitOn ",").filter fun name => !name.isEmpty }
  | "column_pivot_rule" => do
    return { s with options := { s.options with columnRule := ← ColumnRule.parse? value } }
  | "row_tie_break_rule" => do
    return { s with options := { s.options with rowRule := ← RowRule.parse? value } }
  | "validate_simplex_option" => do
    return { s with options := { s.options with checking := ← Checking.parse? value } }
  | "tolerance" => do
    return { s with options := { s.options with tolerance := ← Decimal.read? value } }
  | "max_iterations" => do
    return { s with options := { s.options with maxIterations := some (← value.toInt?) } }
  | "verbose" => do
    return { s with options := { s.options with verbose := ← readBool? value } }
  | "obj_value_logging_frequency" => do
    return { s with options := { s.options with logFrequency := ← value.toInt? } }
  | _ => none

/-- Flag and value of an argument. -/
def splitArgument (argument : String) : String × String :=
  match argument.splitOn "=" with
  | [flag] =>
    if flag = "--noverbose" then ("verbose", "false")
    else (String.ofList (flag.toList.drop 2), "true")
  | flag :: values => (String.ofList (flag.toList.drop 2), "=".intercalate values)
  | [] => ("", "")

/-- The settings that the arguments ask for, or the first argument that cannot be
    understood. -/
def Settings.ofArguments (arguments : List String) : Except String Settings :=
  arguments.foldlM
    (fun s argument =>
      let (flag, value) := splitArgument argument
      match s.set? flag value with
      | some s => .ok s
      | none => .error argument)
    Settings.standard

end Demo

end SimplexMethod
