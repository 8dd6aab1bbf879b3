import SimplexMethod.Proofs.GuardedOrigin

/-!
# Guarded tables

Programs and tableaux as text, with every access guarded.

A layout looks values up row by row and column by column, and has no result if it is asked
for more values than it was given. Layouts are guarded computations already; the text of
a table is empty where the layout has no result. A shaped program and a shaped tableau
have all that their tables show, so this never happens.

## Main definitions

* `Guarded.programText`, `Guarded.listing`: A program as a table and in algebraic form.
* `Guarded.text`, `Guarded.pointText`: A tableau and its point.

## Theorems

* `Guarded.exists_mapM`: A list of lines is laid out if each line is.
* `Guarded.programText_eq_some`, `Guarded.listing_eq_some`: The texts of a shaped program are
  in range.
* `Guarded.text_eq_some`, `Guarded.pointText_eq_some`: So are those of a shaped tableau.
-/

namespace SimplexMethod

namespace Guarded

section Layouts

variable {α : Type}

theorem exists_mapM {β γ : Type} {f : β → Guarded γ} {l : List β}
    (h : ∀ x ∈ l, ∃ y, f x = some y) : ∃ ys, l.mapM f = some ys := by
  induction l with
  | nil => exact ⟨[], rfl⟩
  | cons x rest ih =>
      rcases h x List.mem_cons_self with ⟨y, hy⟩
      rcases ih fun z hz => h z (List.mem_cons_of_mem x hz) with ⟨ys, hys⟩
      exact ⟨y :: ys, by rw [List.mapM_cons, hy, some_bind, hys]; rfl⟩

theorem exists_bind {β γ : Type} {first : Guarded β} {next : β → Guarded γ}
    (hfirst : ∃ x, first = some x) (hnext : ∀ x, ∃ y, next x = some y) :
    ∃ y, (first >>= next) = some y := by
  rcases hfirst with ⟨x, rfl⟩
  exact hnext x

-- A labelled row is one of the rows.
theorem lt_of_mem_zipIdx {labels : List String} {entry : String × Nat}
    (h : entry ∈ labels.zipIdx) : entry.2 < labels.length := by
  simpa using List.snd_lt_of_mem_zipIdx h

theorem valuesOf?_eq_some {f : Frame} {values : Array α} (h : f.columns.length ≤ values.size) :
    f.valuesOf? values = some (values.toList.take f.columns.length) := if_pos h

end Layouts

section Programs

variable {α : Type} (K : Arithmetic α) (N : NumberText α) {P : Program α}

/-- The program as a table, under its name and size. -/
def programText (P : Program α) : Guarded String := do
  let table ← (← frame P).programTable? N P.sense P.objective P.matrix P.bounds
  return Layout.unlines (P.facts ++ table)

/-- The algebraic form of the program. -/
def listing (P : Program α) : Guarded String := do
  let lines ← (← frame P).listing? K N P.sense P.objective P.matrix P.bounds
  return Layout.unlines ("" :: lines)

theorem length_columns_program (P : Program α) : P.frame.columns.length = P.variableCount := by
  rw [Program.frame, List.length_map, List.length_range]

theorem length_rows_program (P : Program α) : P.frame.rows.length = P.rowCount := by
  rw [Program.frame, List.length_map, List.length_range]

theorem objective_values (P : Program α) : P.frame.valuesOf? P.objective =
    some (P.objective.toList.take P.frame.columns.length) :=
  valuesOf?_eq_some (Nat.le_of_eq (length_columns_program P))

-- What the line of a constraint shows.
theorem exists_values (hP : P.Shaped) {i : Nat} (hi : i < P.rowCount) :
    ∃ row values bound, P.matrix[i]? = some row ∧ P.frame.valuesOf? row = some values ∧
      P.bounds[i]? = some bound := by
  have hrow : i < P.matrix.size := by rw [hP.matrix_size]; exact hi
  have hvalues : P.frame.columns.length ≤ (P.matrix.getD i #[]).size :=
    Nat.le_of_eq (by rw [length_columns_program, hP.row_size i hi])
  exact ⟨_, _, _, read_eq_some hrow #[], valuesOf?_eq_some hvalues, Array.getElem?_eq_getElem hi⟩

theorem exists_matrix (hP : P.Shaped) :
    ∃ lines, P.frame.matrix? N #[] P.matrix P.bounds = some lines := by
  refine exists_mapM ?_
  rintro ⟨name, i⟩ hline
  have hi : i < P.rowCount := by
    have hlt := lt_of_mem_zipIdx hline
    rwa [length_rows_program] at hlt
  rcases exists_values hP hi with ⟨row, values, bound, hrow, hvalues, hbound⟩
  refine ⟨P.frame.relation N name values "<=" bound, ?_⟩
  simp [hrow, hvalues, hbound]

theorem programText_eq_some (hP : P.Shaped) : programText N P = some (P.text N) := by
  rcases exists_matrix N hP with ⟨lines, hlines⟩
  have htable : ∃ table,
      P.frame.programTable? N P.sense P.objective P.matrix P.bounds = some table := by
    unfold Frame.programTable? Frame.headings? Frame.objective?
    rw [objective_values, hlines]
    exact ⟨_, rfl⟩
  rcases htable with ⟨table, htable⟩
  rw [programText, frame_eq_some, some_bind, htable, some_bind, Option.pure_def, Program.text,
    htable, Option.getD_some]

theorem listing_eq_some (hP : P.Shaped) : listing K N P = some (P.listing K N) := by
  have hlisting : ∃ lines,
      P.frame.listing? K N P.sense P.objective P.matrix P.bounds = some lines := by
    unfold Frame.listing?
    rw [objective_values, some_bind]
    refine exists_bind (exists_mapM ?_) fun _ => ⟨_, rfl⟩
    rintro ⟨name, i⟩ hline
    have hi : i < P.rowCount := by
      have hlt := lt_of_mem_zipIdx hline
      rwa [length_rows_program] at hlt
    rcases exists_values hP hi with ⟨row, values, bound, hrow, hvalues, hbound⟩
    dsimp only
    rw [hrow, some_bind, hvalues, some_bind, hbound, some_bind]
    exact ⟨_, rfl⟩
  rcases hlisting with ⟨lines, hlisting⟩
  rw [listing, frame_eq_some, some_bind, hlisting, some_bind, Option.pure_def, Program.listing,
    hlisting, Option.getD_some]

end Programs

section Tableaux

variable {α : Type} (K : Arithmetic α) (N : NumberText α) {T : Tableau α}

/-- The tableau as a table, with the shadow prices and the point. -/
def text (T : Tableau α) : Guarded String := do
  let f ← slackFrame T.program
  return Layout.unlines (← f.tableauTable? N T.basis T.rows (← duals K T) T.point)

/-- The point of the tableau. -/
def pointText (T : Tableau α) : Guarded String := do
  let lines ← (← slackFrame T.program).solution? N T.point
  return Layout.unlines ("" :: lines)

theorem length_rows (T : Tableau α) : T.frame.rows.length = T.rowCount := by
  rw [Tableau.frame, List.length_map, List.length_range]

-- A row of the tableau has a value for each column and one more.
theorem exists_tableauRow (h : T.Shaped) {i : Nat} (hi : i ≤ T.rowCount) (name sign : String) :
    ∃ row line, T.rows[i]? = some row ∧ T.frame.tableauRow? N name sign row = some line := by
  have hlt : i < T.rows.size := by rw [h.rows_size]; omega
  have hsize : (T.rows.getD i #[]).size = T.frame.columns.length + 1 := by
    rw [length_columns, h.size_row hi]
  have hline : ∃ line, T.frame.tableauRow? N name sign (T.rows.getD i #[]) = some line := by
    rw [Frame.tableauRow?, valuesOf?_eq_some (by omega), some_bind,
      Array.getElem?_eq_getElem (by omega), some_bind]
    exact ⟨_, rfl⟩
  rcases hline with ⟨line, hline⟩
  exact ⟨_, line, read_eq_some hlt #[], hline⟩

theorem basicLabel?_eq_some (h : T.Shaped) {i : Nat} (hi : i < T.rowCount) :
    T.frame.basicLabel? T.basis.columns i = some (T.label (T.basicColumn i)) := by
  have hlt : i < T.basis.columns.size := by rw [h.columns_size]; exact hi
  have hrange := h.columns_range _ (Array.getElem_mem_toList hlt)
  have hcolumn : T.basicColumn i = (T.basis.columns[i]).toNat := by
    rw [Tableau.basicColumn, Basis.column, Array.getD_eq_getD_getElem?,
      Array.getElem?_eq_getElem hlt, Option.getD_some]
  rw [Frame.basicLabel?, Array.getElem?_eq_getElem hlt, some_bind,
    if_neg (Int.not_lt.mpr hrange.1), ← hcolumn,
    heading_eq_some T (Tableau.basicColumn_lt h hi), some_bind, Option.pure_def]

theorem exists_rows (h : T.Shaped) :
    ∃ lines, T.frame.tableau? N T.basis.columns T.rows = some lines := by
  rcases exists_tableauRow N h (Nat.le_refl _) "REDUCED COSTS" "OBJ"
    with ⟨costs, line, hcosts, hline⟩
  rw [Frame.tableau?, length_rows, hcosts]
  refine exists_bind (exists_mapM ?_) fun constraints =>
    ⟨constraints ++ [line], by rw [some_bind, hline, some_bind, Option.pure_def]⟩
  rintro ⟨_, i⟩ hi
  have hi : i < T.rowCount := by
    have hlt := lt_of_mem_zipIdx hi
    rwa [length_rows] at hlt
  rcases exists_tableauRow N h (Nat.le_of_lt hi) (T.label (T.basicColumn i)) "="
    with ⟨row, line, hrow, hline⟩
  dsimp only
  rw [basicLabel?_eq_some h hi, some_bind, hrow, some_bind]
  exact ⟨line, hline⟩

theorem exists_point (h : T.Shaped) : ∃ lines, T.frame.solution? N T.point = some lines :=
  ⟨_, if_pos (Nat.le_of_eq (by rw [h.point_size, length_columns]))⟩

theorem text_eq_some (h : T.Shaped) : text K N T = some (T.text K N) := by
  rcases exists_rows N h with ⟨rows, hrows⟩
  rcases exists_point N h with ⟨point, hpoint⟩
  have hmarks : T.frame.columns.length ≤ T.basis.marks.size :=
    Nat.le_of_eq (by rw [length_columns, h.marks_size])
  have htable : ∃ table,
      T.frame.tableauTable? N T.basis T.rows (T.duals K) T.point = some table := by
    unfold Frame.tableauTable? Frame.headings?
    dsimp only
    rw [valuesOf?_eq_some hmarks, hrows, hpoint]
    exact ⟨_, rfl⟩
  rcases htable with ⟨table, htable⟩
  rw [text, slackFrame_eq_some, some_bind, duals_eq_some K h, some_bind, htable, some_bind,
    Option.pure_def, Tableau.text, htable, Option.getD_some]

theorem pointText_eq_some (h : T.Shaped) : pointText N T = some (T.pointText N) := by
  rcases exists_point N h with ⟨lines, hlines⟩
  rw [pointText, slackFrame_eq_some, some_bind, hlines, some_bind, Option.pure_def,
    Tableau.pointText, hlines, Option.getD_some]

end Tableaux

end Guarded

end SimplexMethod
