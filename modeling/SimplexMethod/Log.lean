import SimplexMethod.Frame
import SimplexMethod.Report

/-!
# The log

What is said about a run, and how loudly.

An event is something worth saying, with the data it is about; its level and its
wording are functions of it. The events of a run are computed from its trace
after the fact, so a log can be asked for at any level, or not at all, without
the run knowing.

A time that was not measured is written as an asterisk.

## Main definitions

* `Level`: How much a reader wants to know.
* `Event`, `Event.level`, `Event.message`: What can be said.
* `Tableau.choiceEvents`, `Tableau.attemptEvents`: One iteration.
* `Trace.events`: A run.
* `Program.events`: A run from the origin, with what precedes it.
* `logLines`: The lines a reader at a level sees.
-/

namespace SimplexMethod

/-- How much a reader wants to know, the most first. -/
inductive Level where
  /-- Everything. -/
  | trace
  /-- What helps to find faults. -/
  | debug
  /-- What is going on. -/
  | info
  /-- What may be a problem. -/
  | warning
  /-- What is one. -/
  | error
  /-- What cannot be mended. -/
  | critical
  /-- Nothing. -/
  | off
deriving DecidableEq

namespace Level

/-- The place of a level in the order. -/
def rank : Level → Nat
  | trace => 0
  | debug => 1
  | info => 2
  | warning => 3
  | error => 4
  | critical => 5
  | off => 6

/-- The letter a line is marked with. -/
def letter : Level → String
  | trace => "T"
  | debug => "D"
  | info => "I"
  | warning => "W"
  | error => "E"
  | critical => "C"
  | off => "O"

/-- The level with a given name. -/
def ofName? (name : String) : Option Level :=
  match name with
  | "trace" => some trace
  | "debug" => some debug
  | "info" => some info
  | "warning" => some warning
  | "warn" => some warning
  | "error" => some error
  | "err" => some error
  | "critical" => some critical
  | "off" => some off
  | _ => none

/-- The level with a given name. A name that is none asks for nothing. -/
def ofName (name : String) : Level := (ofName? name).getD off

/-- Whether a reader at `threshold` sees what is said at a level. -/
def reaches (level threshold : Level) : Bool := threshold.rank ≤ level.rank

end Level

/-- What can be said about programs and runs. -/
inductive Event (α : Type) where
  /-- Data were refused. -/
  | rejected (name : String) (cause : Rejection α)
  /-- The name of a program to be solved. -/
  | programName (name : String)
  /-- The sense and the size of a program. -/
  | programSize (sense : Sense) (vars rows : Nat)
  /-- The algebraic form of a program. -/
  | listing (program : Program α)
  /-- The slack form is being made. -/
  | addingSlacks
  /-- The first tableau follows. -/
  | firstTableau
  /-- A tableau before the method runs. -/
  | prepared (tableau : Tableau α)
  /-- A run begins. -/
  | started (name : String) (rows vars : Nat) (algorithm : String)
  /-- A tableau in the course of a run. -/
  | reached (tableau : Tableau α)
  /-- A column was examined. -/
  | examined (column : Nat) (basic : Bool) (cost : α)
  /-- A column was chosen to enter. -/
  | entering (verbose : Bool) (iteration : Int) (label : String) (cost : α)
  /-- A row was chosen to leave. -/
  | leaving (verbose : Bool) (iteration : Int) (label : String) (row : Nat) (ratio : α)
  /-- The iteration limit was reached. -/
  | limitReached (algorithm : String) (iterations : Int)
  /-- A pivot is made. -/
  | pivot (entering : String) (row : Nat) (leaving : String) (value : α)
  /-- An iteration whose objective value is logged. -/
  | iteration (count : Int)
  /-- The objective value of a tableau. -/
  | objective (status : Status) (value : α)
  /-- The check of a vertex failed. -/
  | vertexInvalid (count : Int) (violation : Violation α)
  /-- The check of an optimum failed. -/
  | optimumInvalid (violation : Violation α)
  /-- A run ended. -/
  | ended (algorithm : String)
  /-- The outcome of a run. -/
  | outcome (status : Status) (value : α)
  /-- The time and the pivots a run took. -/
  | effort (elapsed : Option α) (iterations : Nat)
  /-- A run ended in a failed check. -/
  | endedInvalid
  /-- A program of the catalogue is next. -/
  | processing (name : String)
  /-- A program of the catalogue was refused. -/
  | skipped (name : String) (cause : Rejection α)
  /-- A level was asked for that does not exist. -/
  | unknownLevel (name : String)

namespace Event

variable {α : Type}

/-- How loudly an event is told. -/
def level : Event α → Level
  | rejected .. => .warning
  | programName .. => .info
  | programSize .. => .info
  | listing .. => .trace
  | addingSlacks => .debug
  | firstTableau => .trace
  | prepared .. => .trace
  | started .. => .info
  | reached .. => .trace
  | examined .. => .trace
  | entering verbose .. => if verbose then .info else .debug
  | leaving verbose .. => if verbose then .info else .debug
  | limitReached .. => .warning
  | pivot .. => .debug
  | iteration .. => .info
  | objective .. => .info
  | vertexInvalid .. => .error
  | optimumInvalid .. => .error
  | ended .. => .info
  | outcome .. => .info
  | effort .. => .info
  | endedInvalid => .error
  | processing .. => .info
  | skipped .. => .warning
  | unknownLevel .. => .warning

/-- The wording of an event. -/
def message (K : Arithmetic α) (N : NumberText α) : Event α → String
  | rejected name cause => s!"REJECTING LP {name} - {cause.kind.label}: {cause.message N}"
  | programName name => s!"NAME: {name}"
  | programSize sense vars rows =>
    s!"OBJECTIVE SENSE: {sense.label}, VARIABLE COUNT: {vars}, ROW COUNT: {rows}"
  | listing program => program.listing K N
  | addingSlacks => "Adding slack variables"
  | firstTableau => "Initial simplex tableau"
  | prepared tableau => tableau.text K N
  | started name rows vars algorithm =>
    s!"LP NAME {name} ROW COUNT {rows}, VARIABLE COUNT {vars}, {algorithm}"
  | reached tableau => tableau.text K N ++ "\n"
  | examined column basic cost =>
    s!"COL IDX {column} BASIC {basic} RED COST {N.plain cost}"
  | entering _ k label cost =>
    s!"ITERATION {k} ENTERING COLUMN {label} REDUCED COST {N.plain cost}"
  | leaving _ k label row ratio =>
    s!"ITERATION {k} LEAVING COLUMN {label} ROW IDX {row} MIN RATIO {N.plain ratio}"
  | limitReached algorithm iterations =>
    s!"STOPPING {algorithm} AFTER {iterations} ITERATIONS, ITERATION LIMIT REACHED"
  | pivot enters row leaves value =>
    s!"PIVOT - ENTERING COLUMN {enters}, ROW IDX {row}, LEAVING COLUMN {leaves}, " ++
      s!"PIVOT VALUE {N.plain value}"
  | iteration count => s!"ITERATION {count}"
  | objective status value =>
    Layout.unlines ("" :: Frame.currentValue N (some status) value) ++ "\n"
  | vertexInvalid count violation =>
    s!"ITERATION {count} VALIDATION FAILED - {violation.message N}"
  | optimumInvalid violation => s!"OPTIMALITY VALIDATION FAILED - {violation.message N}"
  | ended algorithm => s!"{algorithm} ENDED"
  | outcome status value => s!"LP OPT RESULT {status.label}, OPT VALUE {N.plain value}"
  | effort elapsed iterations =>
    let seconds := (elapsed.map N.plain).getD "*"
    s!"ELAPSED TIME {seconds} SECONDS, ITERATION COUNT {iterations}"
  | endedInvalid => "OPTIMALITY VALIDATION FAILED"
  | processing name => s!"Processing built-in lp {name}"
  | skipped name cause => s!"Lp {name} rejected - {cause.message N}"
  | unknownLevel name => s!"Unknown log level {name}, using info"

/-- The event, with the time of the run it tells about. -/
def timed (elapsed : α) : Event α → Event α
  | effort _ iterations => effort (some elapsed) iterations
  | e => e

/-- The line of an event in the log. -/
def line (K : Arithmetic α) (N : NumberText α) (e : Event α) : String :=
  e.level.letter ++ " " ++ e.message K N

end Event

/-- The lines a reader at a level sees. -/
def logLines {α : Type} (K : Arithmetic α) (N : NumberText α) (threshold : Level)
    (events : List (Event α)) : List String :=
  (events.filter fun e => e.level.reaches threshold).map (Event.line K N)

namespace Tableau

variable {α : Type} (K : Arithmetic α) (o : Options α) (T : Tableau α)

/-- The columns examined to find the entering one. Only the rule that stops at
    the first eligible column tells them, up to that column. -/
def choiceEvents : List (Event α) :=
  match o.columnRule with
  | .mostNegative => []
  | .firstEligible =>
    let examined := match T.entering K o with
      | some column => column + 1
      | none => T.columnCount
    (List.range examined).map fun j => .examined j (T.basis.marked j) (T.reducedCost K j)

/-- What is said when a pivot is made. -/
def pivotEvent (row column : Nat) : Event α :=
  .pivot (T.label column) row (T.label (T.basicColumn row)) (T.cell K row column)

/-- Whether iteration `k` is one too many. -/
def limitReached (k : Int) : Bool :=
  o.limit T.rowCount T.program.variableCount ≤ k

/-- What is said in iteration `k`, the first being zero. -/
def attemptEvents (k : Int) : List (Event α) :=
  let entering column : Event α :=
    .entering o.verbose (k + 1) (T.label column) (T.reducedCost K column)
  T.choiceEvents K o ++
    match T.nextMove K o with
    | .optimal => []
    | .unbounded column => [entering column]
    | .pivot column leaving =>
      entering column ::
        if T.limitReached o k then [.limitReached o.algorithm k]
        else
          [.leaving o.verbose (k + 1) (T.label (T.basicColumn leaving.row)) leaving.row
              leaving.ratio,
            T.pivotEvent K leaving.row column]

/-- The objective value, if it is due after `count` pivots. -/
def objectiveEvents (count : Int) : List (Event α) :=
  if o.logFrequency ≠ 0 ∧ count.tmod o.logFrequency = 0 then
    [.iteration count, .objective T.status T.value]
  else []

end Tableau

namespace Trace

variable {α : Type} (K : Arithmetic α) (o : Options α)

/-- What is said from iteration `k` on: for each vertex the choice that led to it,
    its objective value, its check and its tableau; and, unless a check ended the
    run, the last choice. -/
def visitEvents : (k : Nat) → Tableau α → List (Visit α) → List (Event α)
  | k, T, [] => T.attemptEvents K o k
  | k, T, v :: rest =>
    T.attemptEvents K o k ++ v.tableau.objectiveEvents o (k + 1) ++
      (v.finding.map (Event.vertexInvalid (k + 1))).toList ++
      if Tableau.endsRun o v.finding then []
      else .reached v.tableau :: visitEvents (k + 1) v.tableau rest

/-- What is said about a run, whose time has not been measured. -/
def events (t : Trace α) : List (Event α) :=
  let P := t.start.program
  [.started (o.runName P) P.rowCount P.variableCount o.algorithm, .reached t.start] ++
    visitEvents K o 0 t.start t.visits ++
    (t.finding.map Event.optimumInvalid).toList ++
    [.ended o.algorithm, .outcome t.last.status t.last.value, .effort none t.iterations] ++
    if t.last.status = .failedValidation then [.endedInvalid] else []

end Trace

/-- What is said when the first tableau is made. -/
def Tableau.preparationEvents {α : Type} (T : Tableau α) : List (Event α) :=
  [.addingSlacks, .firstTableau, .prepared T]

/-- What is said about solving a program. -/
def Program.events {α : Type} (K : Arithmetic α) (o : Options α) (P : Program α) :
    List (Event α) :=
  [.programName P.name, .programSize P.sense P.variableCount P.rowCount, .listing P] ++
    (Tableau.ofProgram K P).preparationEvents ++ (P.trace K o).events K o

/-- What is said about solving data that may be refused. -/
def solveEvents {α : Type} (K : Arithmetic α) (o : Options α) (data : Program α) :
    List (Event α) :=
  match data.accept K with
  | .ok P => P.events K o
  | .error cause => [.rejected data.name cause]

end SimplexMethod
