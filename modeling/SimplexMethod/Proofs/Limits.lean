import SimplexMethod.Proofs.Observation

/-!
# Iteration limits

A limit decides when a run stops, and nothing else.

An iteration looks for its move first and at the limit last, and an iteration that
stops writes the status and nothing else. So a run that was stopped by its limit has
left a tableau from which another run goes on as if there had been no stop: the
move it would have made is the first one the other makes. The status that the first
run wrote is carried along by the second until it writes its own, which is why the
tableaux on the way differ in it, and the values and the end do not.

The course that no limit counts is described by itself, as the sequence of vertices
that the moves lead to. It may be infinite. A run that no check stops goes through
its first tableaux, as many as the limit allows.

All of this holds in any arithmetic and from any tableau.

## Main definitions

* `Options.capped`: The same choices with a limit.
* `Move.verdict`: The status of a run that ends where a move is asked for.
* `Tableau.next?`, `Tableau.after`: The course that no limit counts.

## Theorems

* `Tableau.visitsFrom_still`, `Tableau.visitsFrom_next`: The two things an iteration
  does.
* `Tableau.visitsFrom_withStatus`: The status a loop starts with is of no consequence.
* `Tableau.visitsFrom_add`: A loop can be split.
* `Tableau.getElem?_path`: A run goes through the first tableaux of the course.
* `Tableau.path_prefix`: Runs with different limits go the same way.
* `Tableau.run_of_verdict`: After a verdict nothing is left to do.
* `run_capped_split`: A limit can be split.
-/

namespace SimplexMethod

variable {α : Type}

/-- The same choices with a limit. -/
def Options.capped (o : Options α) (limit : Nat) : Options α :=
  { o with maxIterations := some limit }

/-- The status of a run that ends where a move is asked for. -/
def Move.verdict : Move α → Status
  | optimal => .optimal
  | unbounded _ => .unbounded
  | pivot _ _ => .maxIterationsExceeded

namespace Tableau

variable (K : Arithmetic α) (o : Options α)

/-- The vertex after the pivot that a tableau asks for, if it asks for one. -/
def next? (T : Tableau α) : Option (Tableau α) :=
  match T.nextMove K o with
  | .pivot column leaving => some (T.advance K leaving.row column)
  | _ => none

/-- The vertex after so many pivots when no limit counts them, if there are as many. -/
def after : Nat → Tableau α → Option (Tableau α)
  | 0, T => some T
  | n + 1, T => (T.next? K o).bind (after n)

section Steps

variable {K o} {T next : Tableau α}

theorem next?_withStatus (status : Status) :
    (T.withStatus status).next? K o = (T.next? K o).map fun next => next.withStatus status := by
  have hmove : (T.withStatus status).nextMove K o = T.nextMove K o := rfl
  unfold next?
  rw [hmove]
  cases T.nextMove K o <;> rfl

-- A run that may not pivot, or is not asked to, stops with the verdict.
theorem visitsFrom_still (left : Nat) (h : left = 0 ∨ T.next? K o = none) (history : Array α) :
    T.visitsFrom K o left history = ([], T.withStatus (T.nextMove K o).verdict) := by
  rw [visitsFrom]
  cases hmove : T.nextMove K o with
  | optimal => rfl
  | unbounded column => rfl
  | pivot column leaving =>
      rw [next?, hmove] at h
      rcases h with rfl | h
      · rfl
      · exact absurd h (by simp only [reduceCtorEq, not_false_eq_true])

-- Any other run makes the pivot, and goes on from the next vertex.
theorem visitsFrom_next (hfree : o.checking ≠ .stopOnError) (h : T.next? K o = some next)
    (left : Nat) (history : Array α) :
    ∃ finding, T.visitsFrom K o (left + 1) history =
      (⟨next, finding⟩ :: (next.visitsFrom K o left (history.push next.value)).1,
        (next.visitsFrom K o left (history.push next.value)).2) := by
  unfold next? at h
  rw [visitsFrom]
  split at h
  · rename_i column leaving hmove
    rw [Option.some.injEq] at h
    rw [hmove]
    simp only [h, endsRun_eq_false hfree, Bool.false_eq_true, if_false]
    exact ⟨_, rfl⟩
  · exact absurd h (by simp only [reduceCtorEq, not_false_eq_true])

/-- The status a loop starts with is of no consequence: it is overwritten at the end,
    and the values on the way do not depend on it. -/
theorem visitsFrom_withStatus (hfree : o.checking ≠ .stopOnError) (left : Nat)
    (history history' : Array α) (T : Tableau α) (status : Status) :
    ((T.withStatus status).visitsFrom K o left history).1.map (fun v => v.tableau.value) =
        (T.visitsFrom K o left history').1.map (fun v => v.tableau.value) ∧
      ((T.withStatus status).visitsFrom K o left history).2 =
        (T.visitsFrom K o left history').2 := by
  induction left generalizing history history' T with
  | zero =>
      rw [visitsFrom_still _ (Or.inl rfl), visitsFrom_still _ (Or.inl rfl)]
      exact ⟨rfl, rfl⟩
  | succ left ih =>
      have hnext' := next?_withStatus (K := K) (o := o) (T := T) status
      cases hnext : T.next? K o with
      | none =>
          rw [hnext, Option.map_none] at hnext'
          rw [visitsFrom_still _ (Or.inr hnext), visitsFrom_still _ (Or.inr hnext')]
          exact ⟨rfl, rfl⟩
      | some next =>
          rw [hnext, Option.map_some] at hnext'
          rcases visitsFrom_next hfree hnext left history' with ⟨_, hloop⟩
          rcases visitsFrom_next hfree hnext' left history with ⟨_, hloop'⟩
          rcases ih (history.push next.value) (history'.push next.value) next with
            ⟨hvalues, hlast⟩
          rw [hloop, hloop']
          exact ⟨congrArg (List.cons next.value) hvalues, hlast⟩

/-- A loop of `k + j` pivots is one of `k` pivots, and one of `j` pivots from where that
    ended. -/
theorem visitsFrom_add (hfree : o.checking ≠ .stopOnError) (k j : Nat)
    (history history' history'' : Array α) (T : Tableau α) :
    (T.visitsFrom K o k history).1.map (fun v => v.tableau.value) ++
        ((T.visitsFrom K o k history).2.visitsFrom K o j history').1.map
          (fun v => v.tableau.value) =
        (T.visitsFrom K o (k + j) history'').1.map (fun v => v.tableau.value) ∧
      ((T.visitsFrom K o k history).2.visitsFrom K o j history').2 =
        (T.visitsFrom K o (k + j) history'').2 := by
  induction k generalizing history history'' T with
  | zero =>
      rw [visitsFrom_still _ (Or.inl rfl), Nat.zero_add]
      exact visitsFrom_withStatus hfree j history' history'' T _
  | succ k ih =>
      cases hnext : T.next? K o with
      | none =>
          have hrest := visitsFrom_withStatus (K := K) hfree j history' history'' T
            (T.nextMove K o).verdict
          rw [visitsFrom_still j (Or.inr hnext)] at hrest
          rw [visitsFrom_still (k + 1) (Or.inr hnext),
            visitsFrom_still (k + 1 + j) (Or.inr hnext)]
          exact hrest
      | some next =>
          rcases visitsFrom_next hfree hnext k history with ⟨_, hfirst⟩
          rcases visitsFrom_next hfree hnext (k + j) history'' with ⟨_, hwhole⟩
          rcases ih (history.push next.value) (history''.push next.value) next with
            ⟨hvalues, hlast⟩
          rw [Nat.succ_add, hfirst, hwhole]
          exact ⟨congrArg (List.cons next.value) hvalues, hlast⟩

/-- The tableaux of a loop are the first ones of the course that no limit counts. -/
theorem getElem?_visitsFrom (hfree : o.checking ≠ .stopOnError) (left : Nat)
    (history : Array α) (T : Tableau α) (i : Nat) :
    (T :: (T.visitsFrom K o left history).1.map Visit.tableau)[i]? =
      if i ≤ left then T.after K o i else none := by
  induction left generalizing history T i with
  | zero =>
      rw [visitsFrom_still _ (Or.inl rfl)]
      cases i with
      | zero => rfl
      | succ i => simp
  | succ left ih =>
      cases i with
      | zero => rfl
      | succ i =>
          rw [List.getElem?_cons_succ, after]
          cases hnext : T.next? K o with
          | none =>
              rw [visitsFrom_still _ (Or.inr hnext)]
              simp
          | some next =>
              rcases visitsFrom_next hfree hnext left history with ⟨_, hloop⟩
              rw [hloop, List.map_cons, ih]
              simp

end Steps

section Runs

variable {K} {o o' : Options α}

theorem after_congr (h : o.SameRules o') (n : Nat) (T : Tableau α) :
    T.after K o n = T.after K o' n := by
  induction n generalizing T with
  | zero => rfl
  | succ n ih =>
      have hafter : after K o n = after K o' n := funext ih
      rw [after, after, next?, next?, nextMove_congr K h, hafter]

theorem getElem?_path (hfree : o.checking ≠ .stopOnError) (T : Tableau α) (i : Nat) :
    (T.run K o).path[i]? = if i ≤ T.pivotsAllowed o then T.after K o i else none :=
  getElem?_visitsFrom hfree (T.pivotsAllowed o) #[] T i

/-- A run with the lower limit has seen the first tableaux of the other one. -/
theorem path_prefix (h : o.SameRules o') (hfree : o.checking ≠ .stopOnError)
    (hfree' : o'.checking ≠ .stopOnError) {T : Tableau α}
    (hle : T.pivotsAllowed o ≤ T.pivotsAllowed o') :
    (T.run K o).path <+: (T.run K o').path := by
  have htake : (T.run K o).path = (T.run K o').path.take (T.pivotsAllowed o + 1) := by
    refine List.ext_getElem? fun i => ?_
    rw [List.getElem?_take, getElem?_path hfree, getElem?_path hfree', after_congr h]
    by_cases hi : i ≤ T.pivotsAllowed o
    · rw [if_pos hi, if_pos (by omega), if_pos (by omega)]
    · rw [if_neg hi, if_neg (by omega)]
  rw [htake]
  exact List.take_prefix _ _

-- The loop of a run whose limit is written out.
theorem loop_capped (o : Options α) (T : Tableau α) (k : Nat) :
    T.visitsFrom K (o.capped k) (T.pivotsAllowed (o.capped k)) #[] = T.visitsFrom K o k #[] := by
  have hrules : (o.capped k).SameRules o := ⟨rfl, rfl, rfl⟩
  exact visitsFrom_congr K hrules rfl k #[] T

theorem objectives_capped (o : Options α) (T : Tableau α) (k : Nat) :
    (T.run K (o.capped k)).objectives =
      (T.visitsFrom K o k #[]).1.map fun v => v.tableau.value := by
  rw [← loop_capped]
  rfl

theorem last_capped (hfree : o.checking ≠ .stopOnError) (T : Tableau α) (k : Nat) :
    (T.run K (o.capped k)).last = (T.visitsFrom K o k #[]).2 := by
  rw [← loop_capped]
  exact (run_last K (o.capped k) T).resolve_right fun hstop => hfree hstop.1

/-- Where a run has come to a verdict, another one stays. -/
theorem run_of_verdict (hfree : o.checking ≠ .stopOnError) {T : Tableau α}
    (hnext : T.next? K o = none) (hstatus : T.status = (T.nextMove K o).verdict) :
    (T.run K o).visits = [] ∧ (T.run K o).last = T := by
  have hloop := visitsFrom_still (T.pivotsAllowed o) (Or.inr hnext) #[]
  have hlast := (run_last K o T).resolve_right fun hstop => hfree hstop.1
  rw [hloop, ← hstatus] at hlast
  exact ⟨congrArg Prod.fst hloop, hlast⟩

-- The verdicts of a run are about the tableau it ends with.
theorem verdict_of_status {T : Tableau α}
    (hstatus : (T.run K o).last.status = .optimal ∨ (T.run K o).last.status = .unbounded) :
    (T.run K o).last.next? K o = none ∧
      (T.run K o).last.status = ((T.run K o).last.nextMove K o).verdict := by
  rcases hstatus with hstatus | hstatus
  · rw [next?, run_optimal K o hstatus, hstatus]
    exact ⟨rfl, rfl⟩
  · rcases run_unbounded K o hstatus with ⟨column, hmove⟩
    rw [next?, hmove, hstatus]
    exact ⟨rfl, rfl⟩

end Runs

end Tableau

/-- A limit can be split, in any arithmetic and from any tableau, in a run that no check
    stops. A run of at most `k` pivots and another of at most `j` from where it ended
    leave the tableau, with basis, point, value and status, that a single run of at
    most `k + j` pivots leaves; the iterations add up, and the objective values follow
    on one another. So the first run goes through the first tableaux of the course
    that no limit counts, and of any run whose limit is not lower, the default limit
    included. After a verdict the second run does nothing. -/
theorem run_capped_split (K : Arithmetic α) {o : Options α} (hfree : o.checking ≠ .stopOnError)
    (T : Tableau α) (k j : Nat) :
    let first := T.run K (o.capped k)
    let second := first.last.run K (o.capped j)
    let whole := T.run K (o.capped (k + j))
    (second.last = whole.last ∧ first.iterations + second.iterations = whole.iterations ∧
      first.objectives ++ second.objectives = whole.objectives) ∧
    (∀ i, first.path[i]? = if i ≤ k then T.after K o i else none) ∧
    (∀ limit, k ≤ T.pivotsAllowed { o with maxIterations := limit } →
      first.path <+: (T.run K { o with maxIterations := limit }).path) ∧
    (first.last.status = .optimal ∨ first.last.status = .unbounded →
      second.visits = [] ∧ second.last = first.last) := by
  intro first second whole
  rcases Tableau.visitsFrom_add (K := K) hfree k j #[] #[] #[] T with ⟨hvalues, hlast⟩
  rw [← Tableau.last_capped hfree, ← Tableau.last_capped hfree, ← Tableau.last_capped hfree]
    at hlast
  rw [← Tableau.last_capped hfree, ← Tableau.objectives_capped, ← Tableau.objectives_capped,
    ← Tableau.objectives_capped] at hvalues
  refine ⟨⟨hlast, ?_, hvalues⟩, ?_, ?_, ?_⟩
  · have hlength := congrArg List.length hvalues
    rwa [List.length_append, Trace.length_objectives, Trace.length_objectives,
      Trace.length_objectives] at hlength
  · intro i
    have hrules : (o.capped k).SameRules o := ⟨rfl, rfl, rfl⟩
    rw [← Tableau.after_congr hrules]
    exact Tableau.getElem?_path (o := o.capped k) hfree T i
  · intro limit hle
    have hrules : (o.capped k).SameRules { o with maxIterations := limit } := ⟨rfl, rfl, rfl⟩
    exact Tableau.path_prefix hrules hfree hfree hle
  · intro hstatus
    rcases Tableau.verdict_of_status hstatus with ⟨hnext, hverdict⟩
    exact Tableau.run_of_verdict (o := o.capped j) hfree hnext hverdict

-- The first limit stops the run between its two pivots. A limit that is not reached
-- lets it come to a verdict, after which nothing happens.
theorem run_capped_split_hoist :
    let o : Options Rat := { Options.sharp with tolerance := 1 / 2 }
    let start := Tableau.ofProgram (.exact 0) hoist
    let first := start.run (.exact 0) (o.capped 1)
    let second := first.last.run (.exact 0) (o.capped 5)
    let whole := start.run (.exact 0) (o.capped 6)
    first.last.status = .maxIterationsExceeded ∧ first.objectives = [1] ∧
      second.last.status = .optimal ∧ second.last = whole.last ∧
      first.objectives ++ second.objectives = whole.objectives ∧ whole.objectives = [1, 2] ∧
      (whole.last.run (.exact 0) (o.capped 1)).last = whole.last := by
  intro o start first second whole
  have hfree : o.checking ≠ .stopOnError := by decide
  have hsplit := (run_capped_split (.exact 0) hfree start 1 5).1
  have hstatus : whole.last.status = .optimal := by decide +kernel
  have hagain := (run_capped_split (.exact 0) hfree start 6 1).2.2.2 (Or.inl hstatus)
  exact ⟨by decide +kernel, by decide +kernel, by rw [hsplit.1]; exact hstatus, hsplit.1,
    hsplit.2.2, by decide +kernel, hagain.2⟩

end SimplexMethod
