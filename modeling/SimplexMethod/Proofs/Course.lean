import Mathlib.Data.List.Chain
import Mathlib.Data.List.GetD
import SimplexMethod.Report

/-!
# The course of a run

What a run did, read back from where it ended.

`visitsFrom` is a function with an accumulator and a bound, and every statement
about a run would have to unfold it again. `Course` says once what it can do: it
stops for one of four reasons, or it makes the pivot that the tableau asks for
and goes on. Statements about runs are then inductions over a `Course`, with one
case per reason.

Two of them are made here, for any arithmetic. The vertices form a chain, each
reached from the one before by the pivot it asks for. And the status of a run is
justified: a run that calls its last tableau optimal, unbounded or unfinished
does so because of what that tableau asks for.

The point and the value that a run reports were read from the tableau it ends
with. `Current` states that, since a tableau on its own need not satisfy it.

## Main definitions

* `Tableau.Follows`: One pivot of the method.
* `Tableau.Course`: How a run proceeds and stops, as a relation.
* `Tableau.Justified`: What a status says about the tableau that has it.
* `Tableau.Current`: Point and value were read from the cells.
* `Trace.path`: The start of a run and the vertices it visits.
* `Trace.stage`: The tableau after so many pivots.

## Theorems

* `Tableau.visitsFrom_course`: The loop follows the relation.
* `Tableau.Course.isChain`: The vertices follow one another.
* `Tableau.Course.justified`: The status is justified.
* `Tableau.run_last`: Where a run ends, the final check included.
* `Tableau.run_last_stage`: It ends with the last vertex it visits, up to the status.
* `Tableau.run_isChain`, `Tableau.run_justified`: The same of a whole run.
* `Tableau.run_status_of_unchecked`: How a run without checks can end.
* `Tableau.run_invariant`: What every move keeps holds throughout a run.
* `Tableau.run_path_current`, `Tableau.run_current`: Point and value are current
  at the vertices of a run and where it ends.
* `solve_eq_ok`: What it means that a program is solved.
-/

namespace SimplexMethod

namespace Tableau

variable {α : Type} (K : Arithmetic α) (o : Options α)

/-- One pivot of the method: `T` asks for it, and `next` is the vertex after it. -/
def Follows (T next : Tableau α) : Prop :=
  ∃ column leaving, T.nextMove K o = .pivot column leaving ∧
    next = T.advance K leaving.row column

theorem nextMove_eq_optimal {T : Tableau α} (h : T.nextMove K o = .optimal) :
    T.entering K o = none := by
  unfold nextMove at h
  grind

theorem nextMove_eq_unbounded {T : Tableau α} {column : Nat}
    (h : T.nextMove K o = .unbounded column) :
    T.entering K o = some column ∧ T.leaving K o column = none := by
  unfold nextMove at h
  grind

/-- How a run with so many pivots left and a history of objective values goes on
    from a tableau, which vertices it visits and where it ends. -/
inductive Course : Nat → Array α → Tableau α → List (Visit α) → Tableau α → Prop
  /-- No column may enter. -/
  | optimal {left : Nat} {history : Array α} {T : Tableau α} (h : T.nextMove K o = .optimal) :
      Course left history T [] (T.withStatus .optimal)
  /-- No row bounds the entering column. -/
  | unbounded {left column : Nat} {history : Array α} {T : Tableau α}
      (h : T.nextMove K o = .unbounded column) :
      Course left history T [] (T.withStatus .unbounded)
  /-- A pivot is asked for and none is left. -/
  | exhausted {column : Nat} {leaving : Leaving α} {history : Array α} {T : Tableau α}
      (h : T.nextMove K o = .pivot column leaving) :
      Course 0 history T [] (T.withStatus .maxIterationsExceeded)
  /-- The vertex after the pivot fails its check. -/
  | refused {left : Nat} {history : Array α} {T next : Tableau α}
      {finding : Option (Violation α)} (h : Follows K o T next)
      (hends : endsRun o finding = true) :
      Course (left + 1) history T [⟨next, finding⟩] (next.withStatus .failedValidation)
  /-- The pivot is made and the run goes on. -/
  | pivot {left : Nat} {history : Array α} {T next last : Tableau α}
      {finding : Option (Violation α)} {visits : List (Visit α)} (h : Follows K o T next)
      (hgoes : endsRun o finding = false)
      (hrest : Course left (history.push next.value) next visits last) :
      Course (left + 1) history T (⟨next, finding⟩ :: visits) last

/-- The loop follows the relation. -/
theorem visitsFrom_course (left : Nat) (history : Array α) (T : Tableau α) :
    Course K o left history T (T.visitsFrom K o left history).1
      (T.visitsFrom K o left history).2 := by
  induction left generalizing history T with
  | zero =>
      rw [visitsFrom]
      cases hmove : T.nextMove K o with
      | optimal => exact .optimal hmove
      | unbounded column => exact .unbounded hmove
      | pivot column leaving => exact .exhausted hmove
  | succ left ih =>
      rw [visitsFrom]
      cases hmove : T.nextMove K o with
      | optimal => exact .optimal hmove
      | unbounded column => exact .unbounded hmove
      | pivot column leaving =>
          have hfollows : Follows K o T (T.advance K leaving.row column) :=
            ⟨column, leaving, hmove, rfl⟩
          dsimp only
          split
          · rename_i hends
            exact .refused hfollows hends
          · rename_i hgoes
            exact .pivot hfollows (Bool.eq_false_iff.mpr hgoes) (ih _ _)

/-- The vertices of a run follow one another. -/
theorem Course.isChain {left : Nat} {history : Array α} {T last : Tableau α}
    {visits : List (Visit α)} (h : Course K o left history T visits last) :
    List.IsChain (Follows K o) (T :: visits.map Visit.tableau) := by
  induction h with
  | optimal _ => exact .singleton _
  | unbounded _ => exact .singleton _
  | exhausted _ => exact .singleton _
  | refused h _ => exact .cons_cons h (.singleton _)
  | pivot h _ _ ih => exact .cons_cons h ih

/-- What a status says about the tableau that has it, in a run that could make
    `left` pivots and made `made`. -/
def Justified (left made : Nat) (T : Tableau α) : Prop :=
  match T.status with
  | .optimal => T.nextMove K o = .optimal
  | .unbounded => ∃ column, T.nextMove K o = .unbounded column
  | .maxIterationsExceeded =>
    made = left ∧ ∃ column leaving, T.nextMove K o = .pivot column leaving
  | .failedValidation => o.checking = .stopOnError
  | .infeasibleOrigin => False
  | .unknown => False

theorem Justified.succ {left made : Nat} {T : Tableau α} (h : Justified K o left made T) :
    Justified K o (left + 1) (made + 1) T := by
  unfold Justified at h ⊢
  cases hstatus : T.status with
  | maxIterationsExceeded =>
      rw [hstatus] at h
      exact ⟨congrArg (· + 1) h.1, h.2⟩
  | _ => rw [hstatus] at h; exact h

-- A finding ends a run only if the run was told to stop at findings.
theorem checking_of_endsRun {finding : Option (Violation α)} (h : endsRun o finding = true) :
    o.checking = .stopOnError := by
  simp only [endsRun, decide_eq_true_eq] at h
  exact h.1

/-- The status a run ends with is justified by the tableau it ends with. -/
theorem Course.justified {left : Nat} {history : Array α} {T last : Tableau α}
    {visits : List (Visit α)} (h : Course K o left history T visits last) :
    Justified K o left visits.length last := by
  induction h with
  | optimal h => exact h
  | unbounded h => exact ⟨_, h⟩
  | exhausted h => exact ⟨rfl, _, _, h⟩
  | refused _ hends => exact checking_of_endsRun o hends
  | pivot _ _ _ ih => exact ih.succ K o

-- Whichever way a run stops, it touches nothing but the status.
theorem Course.last_eq {left : Nat} {history : Array α} {T last : Tableau α}
    {visits : List (Visit α)} (h : Course K o left history T visits last) :
    ∃ status, last =
      ((T :: visits.map Visit.tableau).getD visits.length T).withStatus status := by
  induction h with
  | optimal _ => exact ⟨_, rfl⟩
  | unbounded _ => exact ⟨_, rfl⟩
  | exhausted _ => exact ⟨_, rfl⟩
  | refused _ _ => exact ⟨_, rfl⟩
  | pivot _ _ _ ih =>
      rcases ih with ⟨status, hlast⟩
      refine ⟨status, hlast.trans ?_⟩
      rw [List.length_cons, List.map_cons, List.getD_cons_succ, List.getD_eq_getElem _ _ (by simp),
        List.getD_eq_getElem _ _ (by simp)]

/-- Point and value were read from the cells as they are. -/
structure Current (T : Tableau α) : Prop where
  /-- The point is the vertex of the basis. -/
  point_eq : T.point = T.vertex K
  /-- The value is the one in the last cell. -/
  value_eq : T.value = T.lastValue K

theorem Current.ofProgram (P : Program α) : (Tableau.ofProgram K P).Current K := ⟨rfl, rfl⟩

theorem Current.advance (T : Tableau α) (row column : Nat) :
    (T.advance K row column).Current K := ⟨rfl, rfl⟩

theorem Current.withStatus {T : Tableau α} (h : T.Current K) (status : Status) :
    (T.withStatus status).Current K := ⟨h.point_eq, h.value_eq⟩

end Tableau

namespace Trace

variable {α : Type}

/-- The tableaux a run comes by: its start and the vertices it visits. -/
def path (t : Trace α) : List (Tableau α) := t.start :: t.visits.map Visit.tableau

theorem length_path (t : Trace α) : t.path.length = t.iterations + 1 := by
  rw [path, List.length_cons, List.length_map, iterations]

/-- The tableau after `k` pivots. -/
def stage (t : Trace α) (k : Nat) : Tableau α := t.path.getD k t.start

theorem stage_eq_getElem (t : Trace α) {k : Nat} (hk : k < t.path.length) :
    t.stage k = t.path[k] := List.getD_eq_getElem _ _ hk

theorem stage_mem (t : Trace α) {k : Nat} (hk : k ≤ t.iterations) : t.stage k ∈ t.path := by
  have hlt : k < t.path.length := by rw [length_path]; omega
  rw [stage_eq_getElem t hlt]
  exact List.getElem_mem hlt

end Trace

namespace Tableau

variable {α : Type} (K : Arithmetic α) (o : Options α)

theorem run_isChain (T : Tableau α) : List.IsChain (Follows K o) (T.run K o).path :=
  (visitsFrom_course K o (T.pivotsAllowed o) #[] T).isChain

theorem follows_stage (T : Tableau α) {k : Nat} (hk : k < (T.run K o).iterations) :
    Follows K o ((T.run K o).stage k) ((T.run K o).stage (k + 1)) := by
  have hlt : k + 1 < (T.run K o).path.length := by rw [Trace.length_path]; omega
  rw [Trace.stage_eq_getElem _ (by omega), Trace.stage_eq_getElem _ hlt]
  exact List.isChain_iff_getElem.mp (run_isChain K o T) k hlt

theorem run_last_eq (T : Tableau α) :
    (T.run K o).last =
      if endsRun o (T.run K o).finding then
        (T.visitsFrom K o (T.pivotsAllowed o) #[]).2.withStatus .failedValidation
      else (T.visitsFrom K o (T.pivotsAllowed o) #[]).2 := rfl

/-- A run ends with the tableau its loop ends with, except that a failed check of
    the optimum may change the status. -/
theorem run_last (T : Tableau α) :
    (T.run K o).last = (T.visitsFrom K o (T.pivotsAllowed o) #[]).2 ∨
      o.checking = .stopOnError ∧ (T.run K o).last =
        (T.visitsFrom K o (T.pivotsAllowed o) #[]).2.withStatus .failedValidation := by
  -- The loop itself has only one end; the check after it may rewrite the status.
  by_cases hends : endsRun o (T.run K o).finding = true
  · exact Or.inr ⟨checking_of_endsRun o hends, by rw [run_last_eq, if_pos hends]⟩
  · exact Or.inl (by rw [run_last_eq, if_neg hends])

/-- A run ends with the last vertex it visits, up to the status. -/
theorem run_last_stage (T : Tableau α) :
    ∃ status, (T.run K o).last =
      ((T.run K o).stage (T.run K o).iterations).withStatus status := by
  rcases (visitsFrom_course K o (T.pivotsAllowed o) #[] T).last_eq with ⟨status, hloop⟩
  rcases run_last K o T with hlast | ⟨_, hlast⟩
  · exact ⟨status, hlast.trans hloop⟩
  · refine ⟨.failedValidation, hlast.trans ?_⟩
    rw [hloop]
    rfl

/-- The status a whole run ends with is justified, the final check included. -/
theorem run_justified (T : Tableau α) :
    Justified K o (T.pivotsAllowed o) (T.run K o).iterations (T.run K o).last := by
  rcases run_last K o T with hlast | ⟨hstop, hlast⟩
  · rw [hlast]
    exact (visitsFrom_course K o (T.pivotsAllowed o) #[] T).justified
  · rw [hlast]
    exact hstop

theorem run_optimal {T : Tableau α} (h : (T.run K o).last.status = .optimal) :
    (T.run K o).last.nextMove K o = .optimal := by
  have hjustified := run_justified K o T
  rwa [Justified, h] at hjustified

theorem run_unbounded {T : Tableau α} (h : (T.run K o).last.status = .unbounded) :
    ∃ column, (T.run K o).last.nextMove K o = .unbounded column := by
  have hjustified := run_justified K o T
  rwa [Justified, h] at hjustified

/-- Without checks a run ends at an optimum, at an unbounded ray, or after as many
    pivots as it may make. -/
theorem run_status_of_unchecked (T : Tableau α) (hchecking : o.checking = .off) :
    (T.run K o).last.status = .optimal ∨ (T.run K o).last.status = .unbounded ∨
      (T.run K o).iterations = T.pivotsAllowed o := by
  have hjustified := run_justified K o T
  rw [Justified] at hjustified
  cases hstatus : (T.run K o).last.status with
  | optimal => exact Or.inl rfl
  | unbounded => exact Or.inr (Or.inl rfl)
  | maxIterationsExceeded =>
      rw [hstatus] at hjustified
      exact Or.inr (Or.inr hjustified.1)
  | failedValidation =>
      rw [hstatus] at hjustified
      exact absurd (hchecking.symm.trans hjustified) (by decide)
  | infeasibleOrigin =>
      rw [hstatus] at hjustified
      exact hjustified.elim
  | unknown =>
      rw [hstatus] at hjustified
      exact hjustified.elim

/-- What holds at the start, is kept by every pivot of the method and does not
    depend on the status holds at every vertex of a run and at its end. -/
theorem run_invariant {I : Tableau α → Prop}
    (hfollows : ∀ T next, I T → Follows K o T next → I next)
    (hstatus : ∀ T status, I T → I (T.withStatus status)) {T : Tableau α} (hT : I T) :
    (∀ V ∈ (T.run K o).path, I V) ∧ I (T.run K o).last := by
  have hmove : ∀ T column leaving, I T → T.nextMove K o = .pivot column leaving →
      I (T.advance K leaving.row column) :=
    fun T column leaving hT hmove => hfollows T _ hT ⟨column, leaving, hmove, rfl⟩
  have hrun := visitsFrom_invariant K o hmove hstatus (T.pivotsAllowed o) #[] T hT
  refine ⟨fun V hV => ?_, ?_⟩
  · rcases List.mem_cons.mp hV with rfl | hV
    · exact hT
    · rcases List.mem_map.mp hV with ⟨visit, hvisit, rfl⟩
      exact hrun.1 visit hvisit
  · rcases run_last K o T with hlast | ⟨_, hlast⟩
    · rw [hlast]
      exact hrun.2
    · rw [hlast]
      exact hstatus _ _ hrun.2

-- A pivot of the method is followed by reading point and value again.
theorem Current.follows {T next : Tableau α} (h : Follows K o T next) : next.Current K := by
  rcases h with ⟨column, leaving, _, rfl⟩
  exact .advance K T leaving.row column

/-- A run that starts at a current tableau has current tableaux only. -/
theorem run_path_current {T : Tableau α} (hT : T.Current K) :
    ∀ V ∈ (T.run K o).path, V.Current K :=
  (run_invariant K o (fun _ _ _ hfollows => .follows K o hfollows)
    (fun _ status h => h.withStatus K status) hT).1

/-- A run that starts at a current tableau ends at one. -/
theorem run_current {T : Tableau α} (hT : T.Current K) : (T.run K o).last.Current K :=
  (run_invariant K o (fun _ _ _ hfollows => .follows K o hfollows)
    (fun _ status h => h.withStatus K status) hT).2

end Tableau

/-- A program is solved when nothing speaks against it, and the report is that of
    its run from the origin. -/
theorem solve_eq_ok {α : Type} {K : Arithmetic α} {o : Options α} {data : Program α}
    {report : Report α} :
    solve K o data = .ok report ↔ data.rejection? K = none ∧ report = data.solve K o := by
  unfold solve
  cases haccept : data.accept K with
  | error cause =>
      have hcause := Program.accept_eq_error.mp haccept
      simp only [Except.map, reduceCtorEq, false_iff, not_and]
      intro hnone
      rw [hnone] at hcause
      exact absurd hcause (by simp only [reduceCtorEq, not_false_eq_true])
  | ok P =>
      rcases Program.accept_eq_ok.mp haccept with ⟨hnone, rfl⟩
      simp only [Except.map, Except.ok.injEq, hnone, true_and, eq_comm]

end SimplexMethod
