import SimplexMethod.Log
import SimplexMethod.Proofs.Vertices

/-!
# Observing a run

Looking at a run does not change where it goes.

Most of what a caller chooses is about looking: names, the log and how much of it is
read, and whether vertices are checked. The pivots depend on the tolerance and the
two rules only, and their number on the limit. So two runs that agree on these four
make the same pivots as long as both go on, and the only thing that can part them is
a failed check in a run that was told to stop at one. Such a run has seen the first
vertices of the other, and reports the last of those.

The comparison is made with a run that nothing stops. Every other run either ends as
that one does, or was stopped on its way; the two possibilities are carried through
the loop as one disjunction, since a check can fail at any vertex, and are then met
again by the check of the optimum after the loop. No law of arithmetic is used.

A name is part of the program a tableau belongs to, so a run under another name has
other tableaux. They differ in nothing else, and no choice and no check reads a name.

## Main definitions

* `Options.SameRules`: Options that ask for the same pivots.
* `Trace.Alike`, `Trace.StoppedOn`: How a run compares with one that nothing stops.
* `Report.Alike`: Reports that agree in everything but the names.
* `Report.Shows`: A report that was read from a tableau.
* `Program.named`, `Tableau.named`, `Trace.named`, `Report.named`: The same under another
  name.
* `Observation`, `observe`: Solving with an eye on the log.

## Theorems

* `Tableau.visitsFrom_unstopped`: The loop goes as the unstopped one does, or stops on
  its way.
* `Tableau.run_unstopped`: So does a whole run.
* `Tableau.run_congr`: Runs that are checked in the same way are the same.
* `Tableau.run_named`: Names do not matter.
* `observe_result_alike`: Observing a run does not change it.
-/

namespace SimplexMethod

variable {α : Type}

/-- Options that ask for the same pivots. They may differ in the limit, in names, in
    what is logged and in what is checked. -/
structure Options.SameRules (o o' : Options α) : Prop where
  tolerance_eq : o.tolerance = o'.tolerance
  columnRule_eq : o.columnRule = o'.columnRule
  rowRule_eq : o.rowRule = o'.rowRule

/-- Two runs go through the same tableaux and end alike. -/
structure Trace.Alike (t t' : Trace α) : Prop where
  path_eq : t.path = t'.path
  last_eq : t.last = t'.last

/-- The first run was stopped by a check on the way of the second. -/
structure Trace.StoppedOn (t t' : Trace α) : Prop where
  status_eq : t.last.status = .failedValidation
  path_prefix : t.path <+: t'.path

namespace Tableau

section Loops

variable (K : Arithmetic α) {o o' : Options α}

theorem nextMove_congr (h : o.SameRules o') (T : Tableau α) :
    T.nextMove K o = T.nextMove K o' := by
  rcases o with ⟨_, _, _, _, _, _, _, _⟩
  rcases o' with ⟨_, _, _, _, _, _, _, _⟩
  rcases h with ⟨rfl, rfl, rfl⟩
  rfl

theorem pivotsAllowed_congr (hlimit : o.maxIterations = o'.maxIterations) (T : Tableau α) :
    T.pivotsAllowed o = T.pivotsAllowed o' := by
  rw [pivotsAllowed, pivotsAllowed, Options.limit, Options.limit, hlimit]

theorem findingIf_congr (hchecking : o.checking = o'.checking) : findingIf o = findingIf o' := by
  funext check
  rw [findingIf, findingIf, hchecking]

theorem endsRun_congr (hchecking : o.checking = o'.checking) : endsRun o = endsRun o' := by
  funext finding
  rw [endsRun, endsRun, hchecking]

theorem endsRun_eq_false (hfree : o.checking ≠ .stopOnError) (finding : Option (Violation α)) :
    endsRun o finding = false :=
  decide_eq_false fun h => hfree h.1

-- With the same checks even the findings are the same.
theorem visitsFrom_congr (h : o.SameRules o') (hchecking : o.checking = o'.checking) (left : Nat)
    (history : Array α) (T : Tableau α) :
    T.visitsFrom K o left history = T.visitsFrom K o' left history := by
  induction left generalizing history T with
  | zero => rw [visitsFrom, visitsFrom, nextMove_congr K h]
  | succ left ih =>
      rw [visitsFrom, visitsFrom, nextMove_congr K h]
      simp only [findingIf_congr hchecking, endsRun_congr hchecking, ih]

theorem run_congr (h : o.SameRules o') (hlimit : o.maxIterations = o'.maxIterations)
    (hchecking : o.checking = o'.checking) (T : Tableau α) : T.run K o = T.run K o' := by
  simp only [run, visitsFrom_congr K h hchecking, pivotsAllowed_congr hlimit,
    findingIf_congr hchecking, endsRun_congr hchecking]

/-- The loop makes the pivots of one that nothing stops, to the same end, or is stopped
    by a check on the way. What the histories hold is of no concern to the loop that
    nothing stops. -/
theorem visitsFrom_unstopped (h : o.SameRules o') (hfree : o'.checking ≠ .stopOnError)
    (left : Nat) (history history' : Array α) (T : Tableau α) :
    (T.visitsFrom K o left history).1.map Visit.tableau =
        (T.visitsFrom K o' left history').1.map Visit.tableau ∧
      (T.visitsFrom K o left history).2 = (T.visitsFrom K o' left history').2 ∨
    o.checking = .stopOnError ∧ (T.visitsFrom K o left history).2.status = .failedValidation ∧
      (T.visitsFrom K o left history).1.map Visit.tableau <+:
        (T.visitsFrom K o' left history').1.map Visit.tableau := by
  induction left generalizing history history' T with
  | zero =>
      rw [visitsFrom, visitsFrom, nextMove_congr K h]
      split <;> exact Or.inl ⟨rfl, rfl⟩
  | succ left ih =>
      rw [visitsFrom, visitsFrom, nextMove_congr K h]
      split
      · exact Or.inl ⟨rfl, rfl⟩
      · exact Or.inl ⟨rfl, rfl⟩
      · rename_i column leaving _
        dsimp only
        generalize T.advance K leaving.row column = next
        rw [endsRun_eq_false hfree, if_neg Bool.false_ne_true]
        split
        · -- The check of the next vertex ends the run, which has seen that vertex.
          rename_i hends
          exact Or.inr ⟨checking_of_endsRun o hends, rfl,
            List.cons_prefix_cons.mpr ⟨rfl, List.nil_prefix⟩⟩
        · rcases ih (history.push next.value) (history'.push next.value) next with
            ⟨hvisits, hlast⟩ | ⟨hstop, hstatus, hvisits⟩
          · exact Or.inl ⟨congrArg (List.cons next) hvisits, hlast⟩
          · exact Or.inr ⟨hstop, hstatus, List.cons_prefix_cons.mpr ⟨rfl, hvisits⟩⟩

/-- A run goes as one that nothing stops, or is stopped by a check on the way. -/
theorem run_unstopped (h : o.SameRules o') (hlimit : o.maxIterations = o'.maxIterations)
    (hfree : o'.checking ≠ .stopOnError) (T : Tableau α) :
    (T.run K o).Alike (T.run K o') ∨
      o.checking = .stopOnError ∧ (T.run K o).StoppedOn (T.run K o') := by
  have hallowed := pivotsAllowed_congr hlimit T
  have hlast' := (run_last K o' T).resolve_right fun hstop => hfree hstop.1
  have hpath' : (T.run K o').path =
      T :: (T.visitsFrom K o' (T.pivotsAllowed o) #[]).1.map Visit.tableau := by
    rw [hallowed]
    rfl
  rw [← hallowed] at hlast'
  rcases visitsFrom_unstopped K h hfree (T.pivotsAllowed o) #[] #[] T with
    ⟨hvisits, hloop⟩ | ⟨hstop, hstatus, hvisits⟩
  · have hpath : (T.run K o).path = (T.run K o').path := by
      rw [hpath', ← hvisits]
      rfl
    -- The loops agree, and the check of the optimum may still tell the runs apart.
    rcases run_last K o T with hlast | ⟨hstop, hlast⟩
    · exact Or.inl ⟨hpath, by rw [hlast, hlast', hloop]⟩
    · exact Or.inr ⟨hstop, by rw [hlast]; rfl, hpath ▸ List.prefix_rfl⟩
  · refine Or.inr ⟨hstop, ?_, ?_⟩
    · rcases run_last K o T with hlast | ⟨_, hlast⟩
      · rw [hlast, hstatus]
      · rw [hlast]
        rfl
    · rw [hpath']
      exact List.cons_prefix_cons.mpr ⟨rfl, hvisits⟩

end Loops

end Tableau

/-- Reports that agree in everything but the names. -/
structure Report.Alike (r r' : Report α) : Prop where
  status_eq : r.status = r'.status
  value_eq : r.value = r'.value
  solution_eq : r.solution = r'.solution
  slacks_eq : r.slacks = r'.slacks
  duals_eq : r.duals = r'.duals
  iterations_eq : r.iterations = r'.iterations
  objectives_eq : r.objectives = r'.objectives

/-- The values of a report are those of a tableau. -/
structure Report.Shows (K : Arithmetic α) (r : Report α) (T : Tableau α) : Prop where
  value_eq : r.value = T.value
  solution_eq : r.solution = T.solution
  slacks_eq : r.slacks = T.slacks
  duals_eq : r.duals = T.duals K

namespace Trace

variable {t t' : Trace α}

theorem objectives_eq_tail (t : Trace α) : t.objectives = (t.path.map Tableau.value).tail := by
  rw [path, List.map_cons, List.tail_cons, List.map_map]
  rfl

theorem Alike.report_alike (h : t.Alike t') (K : Arithmetic α) (o o' : Options α) :
    (t.report K o).Alike (t'.report K o') := by
  have hlength := congrArg List.length h.path_eq
  rw [length_path, length_path, Nat.add_right_cancel_iff] at hlength
  have hobjectives : t.objectives = t'.objectives := by
    rw [objectives_eq_tail, objectives_eq_tail, h.path_eq]
  refine ⟨?_, ?_, ?_, ?_, ?_, hlength, hobjectives⟩
  all_goals simp only [report, h.last_eq]

namespace StoppedOn

theorem iterations_le (h : t.StoppedOn t') : t.iterations ≤ t'.iterations := by
  have hlength := h.path_prefix.length_le
  rwa [length_path, length_path, Nat.add_le_add_iff_right] at hlength

theorem objectives_prefix (h : t.StoppedOn t') : t.objectives <+: t'.objectives := by
  have hpath := h.path_prefix.map Tableau.value
  rw [path, path, List.map_cons, List.map_cons, List.cons_prefix_cons] at hpath
  rw [objectives_eq_tail, objectives_eq_tail]
  exact hpath.2

theorem stage_eq (h : t.StoppedOn t') {k : Nat} (hk : k ≤ t.iterations) :
    t.stage k = t'.stage k := by
  have hlt : k < t.path.length := by rw [length_path]; omega
  have hlt' : k < t'.path.length := Nat.lt_of_lt_of_le hlt h.path_prefix.length_le
  rw [stage_eq_getElem t hlt, stage_eq_getElem t' hlt']
  exact h.path_prefix.getElem hlt

end StoppedOn

/-- A run that was stopped reports the last vertex it saw of the other. -/
theorem StoppedOn.report_shows {K : Arithmetic α} {o : Options α} {T : Tableau α}
    (h : (T.run K o).StoppedOn t') :
    ((T.run K o).report K o).Shows K (t'.stage (T.run K o).iterations) := by
  rcases Tableau.run_last_stage K o T with ⟨status, hlast⟩
  rw [h.stage_eq (Nat.le_refl _)] at hlast
  refine ⟨?_, ?_, ?_, ?_⟩
  all_goals
    simp only [report, hlast]
    rfl

end Trace

/-- The program under another name. -/
def Program.named (P : Program α) (name : String) : Program α := { P with name := name }

/-- The tableau of the program under another name. -/
def Tableau.named (T : Tableau α) (name : String) : Tableau α :=
  { T with program := T.program.named name }

/-- The vertex under another name, with the same finding. -/
def Visit.named (name : String) (v : Visit α) : Visit α :=
  { v with tableau := v.tableau.named name }

/-- The run under another name. -/
def Trace.named (t : Trace α) (name : String) : Trace α where
  start := t.start.named name
  visits := t.visits.map (Visit.named name)
  finding := t.finding
  last := t.last.named name

namespace Tableau

section Naming

variable (K : Arithmetic α) (o : Options α) (T : Tableau α) (name : String)

theorem nextMove_named : (T.named name).nextMove K o = T.nextMove K o := rfl

theorem advance_named (row column : Nat) :
    (T.named name).advance K row column = (T.advance K row column).named name := rfl

theorem vertexViolation?_named (history : Array α) :
    (T.named name).vertexViolation? K history = T.vertexViolation? K history := rfl

theorem optimumViolation?_named (history : Array α) :
    (T.named name).optimumViolation? K history = T.optimumViolation? K history := rfl

theorem visitsFrom_named (left : Nat) (history : Array α) :
    (T.named name).visitsFrom K o left history =
      ((T.visitsFrom K o left history).1.map (Visit.named name),
        (T.visitsFrom K o left history).2.named name) := by
  induction left generalizing history T with
  | zero =>
      rw [visitsFrom, visitsFrom, nextMove_named]
      split <;> rfl
  | succ left ih =>
      rw [visitsFrom, visitsFrom, nextMove_named]
      split
      · rfl
      · rfl
      · rename_i column leaving _
        rw [advance_named]
        generalize T.advance K leaving.row column = next
        have hvalue : (next.named name).value = next.value := rfl
        simp only [vertexViolation?_named, hvalue, ih]
        split <;> rfl

/-- A run under another name is the same run. -/
theorem run_named : (T.named name).run K o = (T.run K o).named name := by
  have hallowed : (T.named name).pivotsAllowed o = T.pivotsAllowed o := rfl
  unfold run
  rw [hallowed, visitsFrom_named]
  generalize T.visitsFrom K o (T.pivotsAllowed o) #[] = loop
  have hstatus : (loop.2.named name).status = loop.2.status := rfl
  have hvalues : (loop.1.map (Visit.named name)).map (fun v => v.tableau.value) =
      loop.1.map fun v => v.tableau.value := by
    rw [List.map_map]
    rfl
  unfold Trace.named
  dsimp only
  rw [hvalues, hstatus, optimumViolation?_named]
  congr 1
  rw [apply_ite (fun last : Tableau α => last.named name)]
  rfl

end Naming

end Tableau

/-- The report under another name. -/
def Report.named (r : Report α) (name : String) : Report α := { r with name := name }

theorem Report.Alike.named {r r' : Report α} (h : r.Alike r') (name name' : String) :
    (r.named name).Alike (r'.named name') :=
  ⟨h.status_eq, h.value_eq, h.solution_eq, h.slacks_eq, h.duals_eq, h.iterations_eq,
    h.objectives_eq⟩

theorem Report.Shows.named {K : Arithmetic α} {r : Report α} {T : Tableau α} (h : r.Shows K T)
    (name : String) : (r.named name).Shows K T :=
  ⟨h.value_eq, h.solution_eq, h.slacks_eq, h.duals_eq⟩

theorem Program.solve_named (K : Arithmetic α) (o : Options α) (P : Program α) (name : String) :
    (P.named name).solve K o = (P.solve K o).named (o.runName (P.named name)) := by
  have htrace : (P.named name).trace K o = (P.trace K o).named name :=
    Tableau.run_named K o (Tableau.ofProgram K P) name
  rw [solve, htrace]
  simp only [solve, Report.named, Trace.report, Trace.named, Trace.iterations, Trace.objectives,
    List.length_map, List.map_map]
  rfl

/-- What someone sees who solves data and reads the log. -/
structure Observation (α : Type) where
  /-- The report, or why there is none. -/
  result : Except (Rejection α) (Report α)
  /-- The lines of the log. -/
  log : List String

/-- Solve data under the eyes of someone who reads the log at a level. -/
def observe (K : Arithmetic α) (N : NumberText α) (level : Level) (o : Options α)
    (data : Program α) : Observation α where
  result := solve K o data
  log := logLines K N level (solveEvents K o data)

/-- Observing a run does not change it, in any arithmetic. Take accepted data and two
    sets of options that agree on the tolerance, the limit and the two rules; names,
    verbosity, logging, the level of the log and the texts of numbers are whatever
    they are. If both runs are told to stop at a failed check, or neither is, the
    reports are alike. If the first is and the second is not, the reports are alike,
    or the first is stopped: its objective values are the first ones of the other
    run, and it shows the vertex of that run after as many pivots. -/
theorem observe_result_alike (K : Arithmetic α) (N₁ N₂ : NumberText α) (level₁ level₂ : Level)
    {o₁ o₂ : Options α} (hrules : o₁.SameRules o₂)
    (hlimit : o₁.maxIterations = o₂.maxIterations) {data P : Program α}
    (haccept : data.accept K = .ok P) (name₁ name₂ : String) :
    ∃ r₁ r₂, (observe K N₁ level₁ o₁ (data.named name₁)).result = .ok r₁ ∧
      (observe K N₂ level₂ o₂ (data.named name₂)).result = .ok r₂ ∧
      ((o₁.checking = .stopOnError ↔ o₂.checking = .stopOnError) → r₁.Alike r₂) ∧
      (o₁.checking = .stopOnError → o₂.checking ≠ .stopOnError → r₁.Alike r₂ ∨
        r₁.status = .failedValidation ∧ r₁.iterations ≤ r₂.iterations ∧
          r₁.objectives <+: r₂.objectives ∧
          r₁.Shows K ((P.trace K o₂).stage r₁.iterations)) := by
  rcases Program.accept_eq_ok.mp haccept with ⟨hnone, rfl⟩
  have hsolve : ∀ o name, solve K o (P.named name) =
      .ok ((P.solve K o).named (o.runName (P.named name))) := fun o name =>
    solve_eq_ok.mpr ⟨hnone, (P.solve_named K o name).symm⟩
  refine ⟨_, _, hsolve o₁ name₁, hsolve o₂ name₂, ?_, ?_⟩
  · intro hboth
    by_cases hstop : o₂.checking = .stopOnError
    · have hrun := Tableau.run_congr K hrules hlimit ((hboth.mpr hstop).trans hstop.symm)
        (Tableau.ofProgram K P)
      have halike : (P.trace K o₁).Alike (P.trace K o₂) :=
        ⟨congrArg Trace.path hrun, congrArg Trace.last hrun⟩
      exact (halike.report_alike K o₁ o₂).named _ _
    · rcases Tableau.run_unstopped K hrules hlimit hstop (Tableau.ofProgram K P) with
        halike | ⟨hstopped, _⟩
      · exact (halike.report_alike K o₁ o₂).named _ _
      · exact absurd (hboth.mp hstopped) hstop
  · intro _ hfree
    rcases Tableau.run_unstopped K hrules hlimit hfree (Tableau.ofProgram K P) with
      halike | ⟨_, hstopped⟩
    · exact Or.inl ((halike.report_alike K o₁ o₂).named _ _)
    · exact Or.inr ⟨hstopped.status_eq, hstopped.iterations_le, hstopped.objectives_prefix,
        hstopped.report_shows.named _⟩

/-- One variable under two limits, the tighter of which has a small coefficient, and
    one with a limit of its own. -/
def hoist : Program Rat where
  name := "hoist"
  sense := .maximize
  objective := #[1, 1]
  matrix := #[#[1 / 4, 0], #[1, 0], #[0, 1]]
  bounds := #[1 / 8, 1, 1]

-- The tolerance hides the first row from the ratio test, and the first pivot makes its
-- slack negative. The run that nothing stops goes on to an optimum.
theorem observe_result_alike_hoist :
    let N : NumberText Rat := ⟨toString, toString, toString, toString⟩
    let o₁ : Options Rat := { Options.sharp with
      tolerance := 1 / 2, checking := .stopOnError, verbose := true, logFrequency := 1 }
    let o₂ : Options Rat := { Options.sharp with tolerance := 1 / 2, name := "unwatched" }
    ∃ r₁ r₂, (observe (.exact 0) N .trace o₁ (hoist.named "watched")).result = .ok r₁ ∧
      (observe (.exact 0) N .off o₂ hoist).result = .ok r₂ ∧
      r₁.status = .failedValidation ∧ r₂.status = .optimal ∧ r₂.objectives = [1, 2] ∧
      r₁.objectives = [1] ∧ r₁.objectives <+: r₂.objectives ∧ r₁.iterations = 1 ∧
      r₁.Shows (.exact 0) ((hoist.trace (.exact 0) o₂).stage 1) := by
  intro N o₁ o₂
  have haccept : hoist.accept (.exact 0) = .ok hoist :=
    Program.accept_eq_ok.mpr ⟨by decide +kernel, rfl⟩
  have hrules : o₁.SameRules o₂ := ⟨rfl, rfl, rfl⟩
  rcases observe_result_alike (.exact 0) N N .trace .off hrules rfl haccept "watched" hoist.name
    with ⟨r₁, r₂, hsolve₁, hsolve₂, _, hstop⟩
  have hreport₁ := (solve_eq_ok.mp hsolve₁).2
  have hreport₂ := (solve_eq_ok.mp hsolve₂).2
  have hstatus₁ : r₁.status = .failedValidation := by rw [hreport₁]; decide +kernel
  have hstatus₂ : r₂.status = .optimal := by rw [hreport₂]; decide +kernel
  have hiterations : r₁.iterations = 1 := by rw [hreport₁]; decide +kernel
  rcases hstop rfl (by decide) with halike | ⟨_, _, hobjectives, hshows⟩
  · exact absurd (hstatus₁.symm.trans (halike.status_eq.trans hstatus₂)) (by decide)
  · rw [hiterations] at hshows
    refine ⟨r₁, r₂, hsolve₁, hsolve₂, hstatus₁, hstatus₂, ?_, ?_, hobjectives, hiterations, hshows⟩
    · rw [hreport₂]
      decide +kernel
    · rw [hreport₁]
      decide +kernel

end SimplexMethod
