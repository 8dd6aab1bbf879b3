import SimplexMethod.Report
import SimplexMethod.Proofs.SpecialValues

/-!
# Admission

Which data the gate lets through, and what it says of those it refuses.

The gate asks three questions in a fixed order. Are there as many rows as right hand
sides? Has every row one entry per coefficient of the objective? Is no right hand side
negative? The first that goes wrong is the one it answers with, and a refusal names the
first row where it does. So a cause says as much about the questions before it as about
its own: a negative right hand side is reported only where the shapes agree, and
disagreeing shapes are reported whatever the right hand sides are. `Rejection.AppliesTo`
states this for each cause without the search that finds it.

The third question looks for a right hand side that is less than zero, where the method
needs all of them to be at least zero. Among numbers the two are opposites. What is not a
number is neither, so it passes, and the origin of a program that has it on the right of a
row is not feasible.

## Main definitions

* `FirstWith`: The first entry of an array with a property, and its place.
* `Rejection.AppliesTo`: What data are like that are refused for a cause.

## Theorems

* `Program.rejection?_eq_none_iff`: What is not refused.
* `Program.rejection?_eq_some_iff`: What is refused, and for which cause.
* `accept_exact`: What the gate says of any data in double precision.
* `accept_admits_fog`: It lets a right hand side pass that is not a number.
-/

namespace SimplexMethod

/-- The entry `x` at place `i` is the first of the array with a property. -/
structure FirstWith {β : Type} (a : Array β) (p : β → Prop) (i : Nat) (x : β) : Prop where
  /-- It stands at its place. -/
  getElem?_eq : a[i]? = some x
  /-- It has the property. -/
  holds : p x
  /-- No entry before it has. -/
  before : ∀ k < i, ∀ y ∈ a[k]?, ¬ p y

section Search

variable {β : Type} {a : Array β} {p : β → Bool}

/-- A search that keeps places finds the first entry with the property. -/
theorem find?_zipIdx_eq_some_iff {x : β} {i : Nat} :
    a.toList.zipIdx.find? (fun entry => p entry.1) = some (x, i) ↔
      FirstWith a (fun y => p y = true) i x := by
  rw [List.find?_eq_some_iff_getElem]
  constructor
  · rintro ⟨hp, k, hk, hentry, hbefore⟩
    rw [List.getElem_zipIdx, Nat.zero_add, Prod.mk.injEq] at hentry
    rcases hentry with ⟨hx, rfl⟩
    have hk : k < a.size := by rwa [List.length_zipIdx, Array.length_toList] at hk
    refine ⟨?_, hp, fun j hj y hy => ?_⟩
    · rw [Array.getElem?_eq_getElem hk, ← Array.getElem_toList, hx]
    · have hfails := hbefore j hj
      rw [List.getElem_zipIdx, Array.getElem_toList] at hfails
      rw [Option.mem_def, Array.getElem?_eq_getElem (by omega), Option.some.injEq] at hy
      rw [← hy]
      simpa using hfails
  · rintro ⟨hx, hp, hbefore⟩
    rcases Array.getElem?_eq_some_iff.mp hx with ⟨hi, rfl⟩
    refine ⟨hp, i, by rwa [List.length_zipIdx, Array.length_toList], ?_, fun j hj => ?_⟩
    · rw [List.getElem_zipIdx, Nat.zero_add, Array.getElem_toList]
    · rw [List.getElem_zipIdx, Array.getElem_toList]
      have hfails := hbefore j hj a[j] (Array.getElem?_eq_getElem (by omega))
      simpa using hfails

theorem find?_zipIdx_eq_none_iff :
    a.toList.zipIdx.find? (fun entry => p entry.1) = none ↔ ∀ x ∈ a, p x = false := by
  rw [List.find?_eq_none]
  constructor
  · intro h x hx
    rcases Array.mem_iff_getElem?.mp hx with ⟨i, hi⟩
    have hmem : (x, i) ∈ a.toList.zipIdx := by
      rwa [List.mk_mem_zipIdx_iff_getElem?, Array.getElem?_toList]
    exact Bool.eq_false_iff.mpr (h (x, i) hmem)
  · intro h entry hentry
    have hmem := List.fst_mem_of_mem_zipIdx hentry
    exact Bool.eq_false_iff.mp (h entry.1 (Array.mem_toList_iff.mp hmem))

end Search

variable {α : Type}

/-- What data are like that are refused for a cause. Each cause but the first presupposes
    that what comes before it is in order. -/
def Rejection.AppliesTo (K : Arithmetic α) (P : Program α) : Rejection α → Prop
  | rowCount rows bounds =>
    rows = P.matrix.size ∧ bounds = P.bounds.size ∧ P.matrix.size ≠ P.bounds.size
  | rowLength i columns coefficients =>
    P.matrix.size = P.bounds.size ∧ coefficients = P.objective.size ∧
      ∃ row, FirstWith P.matrix (fun row => row.size ≠ P.objective.size) i row ∧
        columns = row.size
  | negativeBound i bound =>
    P.matrix.size = P.bounds.size ∧ (∀ row ∈ P.matrix, row.size = P.objective.size) ∧
      FirstWith P.bounds (fun bound => K.lt bound K.zero = true) i bound

namespace Program

variable {K : Arithmetic α} {P : Program α}

theorem oddRow?_eq_none_iff {matrix : Array (Array α)} {length : Nat} :
    oddRow? matrix length = none ↔ ∀ row ∈ matrix, row.size = length := by
  rw [oddRow?, Option.map_eq_none_iff,
    find?_zipIdx_eq_none_iff (p := fun row : Array α => row.size != length)]
  simp only [bne_eq_false_iff_eq]

theorem oddRow?_eq_some_iff {matrix : Array (Array α)} {length i columns : Nat} :
    oddRow? matrix length = some (i, columns) ↔
      ∃ row, FirstWith matrix (fun row => row.size ≠ length) i row ∧ columns = row.size := by
  have hfirst := fun row => find?_zipIdx_eq_some_iff (a := matrix) (x := row) (i := i)
    (p := fun row => row.size != length)
  simp only [bne_iff_ne] at hfirst
  rw [oddRow?, Option.map_eq_some_iff]
  constructor
  · rintro ⟨⟨row, k⟩, hfound, heq⟩
    rw [Prod.mk.injEq] at heq
    rcases heq with ⟨rfl, rfl⟩
    exact ⟨row, (hfirst row).mp hfound, rfl⟩
  · rintro ⟨row, hrow, rfl⟩
    exact ⟨(row, i), (hfirst row).mpr hrow, rfl⟩

theorem negativeBound?_eq_none_iff {bounds : Array α} :
    negativeBound? K bounds = none ↔ ∀ bound ∈ bounds, K.lt bound K.zero = false := by
  rw [negativeBound?, Option.map_eq_none_iff,
    find?_zipIdx_eq_none_iff (p := fun bound => K.lt bound K.zero)]

theorem negativeBound?_eq_some_iff {bounds : Array α} {i : Nat} {bound : α} :
    negativeBound? K bounds = some (i, bound) ↔
      FirstWith bounds (fun bound => K.lt bound K.zero = true) i bound := by
  rw [negativeBound?, Option.map_eq_some_iff,
    ← find?_zipIdx_eq_some_iff (p := fun bound => K.lt bound K.zero)]
  constructor
  · rintro ⟨⟨found, k⟩, hfound, heq⟩
    rw [Prod.mk.injEq] at heq
    rcases heq with ⟨rfl, rfl⟩
    exact hfound
  · exact fun hfound => ⟨(bound, i), hfound, rfl⟩

/-- What is not refused: the shapes agree, and no right hand side is negative. -/
theorem rejection?_eq_none_iff :
    P.rejection? K = none ↔
      (P.matrix.size = P.bounds.size ∧ ∀ row ∈ P.matrix, row.size = P.objective.size) ∧
        ∀ bound ∈ P.bounds, K.lt bound K.zero = false := by
  unfold rejection?
  by_cases hsize : P.matrix.size = P.bounds.size
  · rw [if_neg (not_not_intro hsize), ← oddRow?_eq_none_iff, ← negativeBound?_eq_none_iff]
    cases hodd : oddRow? P.matrix P.objective.size with
    | some odd => simp
    | none => simp [hsize]
  · simp [hsize]

/-- What is refused, and for which cause. -/
theorem rejection?_eq_some_iff {cause : Rejection α} :
    P.rejection? K = some cause ↔ cause.AppliesTo K P := by
  unfold rejection?
  by_cases hsize : P.matrix.size = P.bounds.size
  · rw [if_neg (not_not_intro hsize)]
    cases hodd : oddRow? P.matrix P.objective.size with
    | some odd =>
        have hrows : ¬ ∀ row ∈ P.matrix, row.size = P.objective.size := by
          rw [← oddRow?_eq_none_iff, hodd]
          exact Option.some_ne_none odd
        cases cause with
        | rowCount rows bounds => simp [Rejection.AppliesTo, hsize]
        | rowLength i columns coefficients =>
            simp only [Rejection.AppliesTo, ← oddRow?_eq_some_iff, hodd, hsize, true_and,
              Option.some.injEq, Rejection.rowLength.injEq, Prod.ext_iff]
            tauto
        | negativeBound i bound => simp [Rejection.AppliesTo, hrows]
    | none =>
        have hrows := oddRow?_eq_none_iff.mp hodd
        cases cause with
        | rowCount rows bounds => simp [Rejection.AppliesTo, hsize]
        | rowLength i columns coefficients =>
            simp [Rejection.AppliesTo, ← oddRow?_eq_some_iff, hodd]
        | negativeBound i bound =>
            simp only [Rejection.AppliesTo, ← negativeBound?_eq_some_iff, hsize, true_and]
            simpa using fun _ => hrows
  · rw [if_pos hsize]
    cases cause with
    | rowCount rows bounds =>
        simp only [Rejection.AppliesTo, Option.some.injEq, Rejection.rowCount.injEq]
        tauto
    | rowLength i columns coefficients => simp [Rejection.AppliesTo, hsize]
    | negativeBound i bound => simp [Rejection.AppliesTo, hsize]

/-- The kind of a cause tells whether the shapes agree. -/
theorem kind_eq_dimension_iff {cause : Rejection α} (h : cause.AppliesTo K P) :
    cause.kind = .dimension ↔
      ¬ (P.matrix.size = P.bounds.size ∧ ∀ row ∈ P.matrix, row.size = P.objective.size) := by
  cases cause with
  | rowCount rows bounds => exact iff_of_true rfl fun hshapes => h.2.2 hshapes.1
  | rowLength i columns coefficients =>
      rcases h with ⟨_, _, row, hfirst, _⟩
      have hmem : row ∈ P.matrix := Array.mem_of_getElem? hfirst.getElem?_eq
      exact iff_of_true rfl fun hshapes => hfirst.holds (hshapes.2 row hmem)
  | negativeBound i bound =>
      exact iff_of_false Rejection.Kind.noConfusion (not_not_intro ⟨h.1, h.2.1⟩)

end Program

-- Only a comparison with a number can be turned round.
theorem Arithmetic.Extended.lt_eq_false_iff {K : Arithmetic α} {kind : α → NumberKind}
    (hK : K.Extended kind) {x y : α} (hy : kind y ≠ .nan) :
    K.lt x y = false ↔ K.le y x = true ∨ kind x = .nan := by
  by_cases hx : kind x = .nan
  · exact iff_of_true (hK.lt_eq_false_of_nan (Or.inl hx)) (Or.inr hx)
  · rw [hK.le_iff hy hx]
    exact (or_iff_left hx).symm

open Program Binary64

/-- The gate in double precision, for any objective, any matrix, ragged or not, and any right
    hand sides, infinite or not numbers at all. What is accepted is stored as it is. That
    happens exactly if there are as many rows as right hand sides, every row has one entry
    per coefficient, and each right hand side is at least zero or not a number. Anything
    else is refused, for the cause that applies to it. The cause is one of dimension exactly
    if the shapes disagree, whatever the right hand sides are, and otherwise it is a negative
    right hand side. -/
theorem accept_exact (data : Program Float) :
    let K := Arithmetic.binary64
    let shapesAgree := data.matrix.size = data.bounds.size ∧
      ∀ row ∈ data.matrix, row.size = data.objective.size
    (∀ P, data.accept K = .ok P ↔ P = data ∧ shapesAgree ∧
      ∀ bound ∈ data.bounds, K.le K.zero bound = true ∨ kindOf bound = .nan) ∧
    (∀ cause, data.accept K = .error cause ↔ cause.AppliesTo K data) ∧
    ((∃ cause, data.accept K = .error cause ∧ cause.kind = .dimension) ↔ ¬ shapesAgree) ∧
    ((∃ cause, data.accept K = .error cause ∧ cause.kind = .infeasibleOrigin) ↔
      shapesAgree ∧ ∃ bound ∈ data.bounds, K.lt bound K.zero = true) := by
  intro K shapesAgree
  have hzero : kindOf K.zero ≠ .nan := by decide +kernel
  have hrefused : ∀ {cause}, data.accept K = .error cause ↔ cause.AppliesTo K data :=
    accept_eq_error.trans rejection?_eq_some_iff
  have hpassed : data.rejection? K = none ↔ shapesAgree ∧
      ∀ bound ∈ data.bounds, K.le K.zero bound = true ∨ kindOf bound = .nan :=
    rejection?_eq_none_iff.trans <| and_congr_right fun _ => forall₂_congr fun _ _ =>
      Arithmetic.extended_binary64.lt_eq_false_iff hzero
  refine ⟨fun P => ?_, fun cause => hrefused, ⟨?_, fun hshapes => ?_⟩, ⟨?_, ?_⟩⟩
  · rw [accept_eq_ok, hpassed]
    exact and_comm
  · rintro ⟨cause, hcause, hkind⟩
    exact (kind_eq_dimension_iff (hrefused.mp hcause)).mp hkind
  · have hsome : data.rejection? K ≠ none := fun hnone => hshapes (hpassed.mp hnone).1
    rcases Option.ne_none_iff_exists'.mp hsome with ⟨cause, hcause⟩
    exact ⟨cause, accept_eq_error.mpr hcause,
      (kind_eq_dimension_iff (rejection?_eq_some_iff.mp hcause)).mpr hshapes⟩
  · rintro ⟨cause, hcause, hkind⟩
    cases cause with
    | rowCount rows bounds => exact Rejection.Kind.noConfusion hkind
    | rowLength i columns coefficients => exact Rejection.Kind.noConfusion hkind
    | negativeBound i bound =>
        rcases hrefused.mp hcause with ⟨hsize, hrows, hfirst⟩
        exact ⟨⟨hsize, hrows⟩, bound, Array.mem_of_getElem? hfirst.getElem?_eq, hfirst.holds⟩
  · rintro ⟨hshapes, bound, hmem, hnegative⟩
    have hsome : data.rejection? K ≠ none := by
      rw [Ne, rejection?_eq_none_iff]
      exact fun hnone => absurd (hnone.2 bound hmem) (by rw [hnegative]; decide)
    rcases Option.ne_none_iff_exists'.mp hsome with ⟨cause, hcause⟩
    have hdimension := kind_eq_dimension_iff (rejection?_eq_some_iff.mp hcause)
    refine ⟨cause, accept_eq_error.mpr hcause, ?_⟩
    cases hkind : cause.kind with
    | dimension => exact absurd hshapes (hdimension.mp hkind)
    | infeasibleOrigin => rfl

/-- A row is too short, and the right hand sides are no better. -/
def tatter : Program Float where
  name := "tatter"
  sense := .minimize
  objective := #[1, 1]
  matrix := #[#[1, 2], #[3], #[]]
  bounds := #[-1, 0 / 0, 2]

/-- Right hand sides of many kinds, two of them negative. -/
def reef : Program Float where
  name := "reef"
  sense := .maximize
  objective := #[1]
  matrix := #[#[1], #[2], #[3], #[4], #[5]]
  bounds := #[1 / 0, -0.0, 0 / 0, -1, -1 / 0]

-- The short row comes before the negative right hand side and the shorter row. The zero is
-- not negative whatever its sign, and of two negative right hand sides the first is named.
theorem accept_exact_reef :
    let K := Arithmetic.binary64
    tatter.accept K = .error (.rowLength 1 1 2) ∧ reef.accept K = .error (.negativeBound 3 (-1)) ∧
      { reef with bounds := #[1 / 0, -0.0, 0 / 0, 1, 0] }.accept K =
        .ok { reef with bounds := #[1 / 0, -0.0, 0 / 0, 1, 0] } := by
  intro K
  refine ⟨((accept_exact tatter).2.1 _).mpr ?_, ((accept_exact reef).2.1 _).mpr ?_,
    ((accept_exact _).1 _).mpr ⟨rfl, ⟨rfl, by decide +kernel⟩, ?_⟩⟩
  · refine ⟨rfl, rfl, #[3], ⟨rfl, by decide +kernel, fun k hk row hrow => ?_⟩, rfl⟩
    interval_cases k
    rw [← Option.some.inj hrow]
    decide +kernel
  · refine ⟨rfl, by decide +kernel, rfl, by decide +kernel, fun k hk bound hbound => ?_⟩
    interval_cases k
    all_goals
      rw [← Option.some.inj hbound]
      decide +kernel
  · simp only [List.mem_toArray, List.forall_mem_cons]
    decide +kernel

/-- A right hand side that cannot be made out. -/
def fog : Program Float where
  name := "fog"
  sense := .maximize
  objective := #[1]
  matrix := #[#[1]]
  bounds := #[0 / 0]

-- The gate lets it through, though the origin is not feasible, and the run that starts there
-- ends at an optimum that is no number.
theorem accept_admits_fog :
    let K := Arithmetic.binary64
    let report := fog.solve K (.standard K)
    fog.accept K = .ok fog ∧ (∃ bound ∈ fog.bounds, K.le K.zero bound = false) ∧
      report.status = .optimal ∧ kindOf report.value = .nan := by
  intro K report
  have haccept : fog.accept K = .ok fog :=
    accept_eq_ok.mpr ⟨Option.isNone_iff_eq_none.mp (by decide +kernel), rfl⟩
  exact ⟨haccept, ⟨0 / 0, Array.mem_singleton.mpr rfl, by decide +kernel⟩, by decide +kernel,
    by decide +kernel⟩

end SimplexMethod
