import Mathlib.Data.String.Basic
import SimplexMethod.Proofs.GuardedTables

/-!
# Table widths

How long the lines of a table are, and how long the rule between its parts.

A line is put together cell by cell: a label, one number per column, a sign and a right hand
side, each with a bar behind it. A number that fits its cell does not widen it. Neither does
the label of a row, if it is no longer than the label cell, nor the label of a basic column,
which never is, as the label cell is as wide as the widest column. So all lines of a table
have one length, whatever the labels of its columns are.

The rule is one run of dashes, as long as a sum over the columns says. That sum has a number
cell in it where the lines have their label cell. Both are of one width until the label of a
column is longer than a number cell. From then on the label cell grows with the longest
label, the rule does not, and the lines overhang it by what the label cell has grown.

Lengths are in characters, and the widths of columns in bytes. A text has at least as many
bytes as characters, which is all that is used, and as many if it is ASCII.

## Main definitions

* `NumberText.Fits`: A number is short enough for its cell.
* `NumberText.Grid`: Rows of such numbers.
* `Frame.InRange`: A map that sends every row to a column.
* `Frame.overhang`: How much wider the label cell is than a number cell.
* `Rectangular`: A number of lines of one length.

## Theorems

* `Frame.labelWidth_le_iff`: The label cell is the narrowest that is wide enough.
* `Frame.overhang_eq_zero_iff`: Nothing overhangs exactly if all labels are short.
* `Frame.length_cells`, `Frame.length_relation`: The cells of a line, and the line.
* `Rectangular.of_mapM`, `Rectangular.of_labels`: Lines laid out one by one.
* `Frame.rectangular_matrix`, `Frame.rectangular_tableau`: Constraints and tableaux are
  rectangular, and as wide as the rule and the overhang.
* `table_overhangs_rule`: So they are as wide as the rule exactly if all labels are short.
-/

namespace SimplexMethod

open Layout

variable {α : Type}

/-- A number is shorter than a number cell, so that a blank is left in front of it. -/
def NumberText.Fits (N : NumberText α) (x : α) : Prop := (N.cell x).length < numberWidth

instance (N : NumberText α) : DecidablePred N.Fits :=
  fun x => inferInstanceAs (Decidable ((N.cell x).length < numberWidth))

/-- At least `height` rows, the first of them with at least `width` numbers each. All numbers
    fit their cells. -/
structure NumberText.Grid (N : NumberText α) (height width : Nat) (rows : Array (Array α)) :
    Prop where
  height_le : height ≤ rows.size
  width_le : ∀ i < height, width ≤ (rows.getD i #[]).size
  fits : ∀ row ∈ rows, ∀ x ∈ row, N.Fits x

theorem NumberText.Grid.exists_row {N : NumberText α} {height width : Nat}
    {rows : Array (Array α)} (h : N.Grid height width rows) {i : Nat} (hi : i < height) :
    ∃ row, rows[i]? = some row ∧ width ≤ row.size ∧ ∀ x ∈ row, N.Fits x := by
  have hrow := Guarded.read_eq_some (Nat.lt_of_lt_of_le hi h.height_le) #[]
  exact ⟨_, hrow, h.width_le i hi, h.fits _ (Array.mem_of_getElem? hrow)⟩

section Labels

theorem length_le_utf8ByteSize (text : String) : text.length ≤ text.utf8ByteSize := by
  rw [← String.length_toList, ← String.utf8Len_toList]
  induction text.toList with
  | nil => exact Nat.le_refl _
  | cons c rest ih =>
      have hbyte := Char.utf8Size_pos c
      rw [List.length_cons, String.utf8Len_cons]
      omega

namespace Heading

theorem numberWidth_le_width (h : Heading) : numberWidth ≤ h.width := Nat.le_max_right _ _

theorem length_label_le (h : Heading) : h.label.length ≤ h.width :=
  Nat.le_trans (length_le_utf8ByteSize h.label) (Nat.le_max_left _ _)

theorem width_le_numberWidth_iff (h : Heading) :
    h.width ≤ numberWidth ↔ h.label.utf8ByteSize ≤ numberWidth := by
  unfold width
  omega

end Heading

theorem foldl_max_le_iff {widths : List Nat} {start bound : Nat} :
    widths.foldl max start ≤ bound ↔ start ≤ bound ∧ ∀ width ∈ widths, width ≤ bound := by
  induction widths generalizing start with
  | nil => simp
  | cons width rest ih =>
      rw [List.foldl_cons, ih, List.forall_mem_cons, Nat.max_le, and_assoc]

namespace Frame

variable {f : Frame}

/-- The label cell is no wider than it has to be. -/
theorem labelWidth_le_iff {bound : Nat} :
    f.labelWidth ≤ bound ↔ numberWidth ≤ bound ∧ ∀ h ∈ f.columns, h.width ≤ bound := by
  rw [labelWidth, foldl_max_le_iff, List.forall_mem_map]

theorem numberWidth_le_labelWidth (f : Frame) : numberWidth ≤ f.labelWidth :=
  (labelWidth_le_iff.mp (Nat.le_refl f.labelWidth)).1

theorem length_label_le_labelWidth {h : Heading} (hmem : h ∈ f.columns) :
    h.label.length ≤ f.labelWidth :=
  Nat.le_trans h.length_label_le ((labelWidth_le_iff.mp (Nat.le_refl f.labelWidth)).2 h hmem)

/-- How much wider the label cell is than a number cell. -/
def overhang (f : Frame) : Nat := f.labelWidth - numberWidth

/-- There is no overhang exactly if the label of every column is short enough for a number
    cell. -/
theorem overhang_eq_zero_iff :
    f.overhang = 0 ↔ ∀ h ∈ f.columns, h.label.utf8ByteSize ≤ numberWidth := by
  rw [overhang, Nat.sub_eq_zero_iff_le, labelWidth_le_iff]
  simp only [Nat.le_refl, true_and, Heading.width_le_numberWidth_iff]

end Frame

end Labels

namespace Frame

section Lines

variable {N : NumberText α} {f : Frame} {values : List α}

@[simp]
theorem length_rule (f : Frame) : f.rule.length = f.width := length_fill '-' f.width

theorem length_titleCell {width : Nat} {text : String} (h : text.length ≤ width) :
    (titleCell width text).length = width + 1 := by
  rw [titleCell, String.length_append, length_centred, Nat.max_eq_left h]
  rfl

theorem length_numberCell {width : Nat} {x : α} (hwidth : numberWidth ≤ width) (hx : N.Fits x) :
    (numberCell N width x).length = width + 1 := by
  have hcell : (" " ++ N.cell x).length ≤ width := by
    have hblank : (" " ++ N.cell x).length = 1 + (N.cell x).length :=
      String.length_append " " (N.cell x)
    have hshort : (N.cell x).length < numberWidth := hx
    omega
  rw [numberCell, String.length_append, length_flushRight, Nat.max_eq_left hcell]
  rfl

/-- One number per column: each cell is as wide as its column, and has a bar behind it. -/
theorem length_cells {columns : List Heading} (hlength : values.length = columns.length)
    (hvalues : ∀ x ∈ values, N.Fits x) :
    (concat (List.zipWith (fun h x => numberCell N h.width x) columns values)).length =
      columns.length + total (columns.map Heading.width) := by
  induction columns generalizing values with
  | nil => rfl
  | cons heading columns ih =>
      rcases List.exists_cons_of_length_eq_add_one hlength with ⟨value, values, rfl⟩
      rw [List.forall_mem_cons] at hvalues
      have hrest := ih (Nat.succ.inj hlength) hvalues.2
      have hcell := length_numberCell heading.numberWidth_le_width hvalues.1
      rw [length_concat] at hrest ⊢
      rw [List.zipWith_cons_cons, List.map_cons, total_cons, hrest, hcell, List.map_cons,
        total_cons, List.length_cons]
      omega

/-- A line of numbers with a sign and a right hand side: as long as the rule, and the overhang
    of the label cell. -/
theorem length_relation {label sign : String} {last : α} (hlabel : label.length ≤ f.labelWidth)
    (hlength : values.length = f.columns.length) (hvalues : ∀ x ∈ values, N.Fits x)
    (hsign : sign.length ≤ signWidth) (hlast : N.Fits last) :
    (f.relation N label values sign last).length = f.rule.length + f.overhang := by
  have hcell := f.numberWidth_le_labelWidth
  rw [relation, numbers, String.length_append, String.length_append, String.length_append,
    length_titleCell hlabel, length_cells hlength hvalues, length_titleCell hsign,
    length_numberCell (Nat.le_refl _) hlast, length_rule, width, overhang]
  omega

end Lines

end Frame

/-- A number of lines have been laid out, all of one length. -/
def Rectangular (table : Option (List String)) (height width : Nat) : Prop :=
  ∃ lines, table = some lines ∧ lines.length = height ∧ ∀ line ∈ lines, line.length = width

namespace Rectangular

variable {height width : Nat}

/-- Lines that are laid out one by one, each with the same length. -/
theorem of_mapM {β : Type} {layout : β → Option String} {l : List β}
    (h : ∀ x ∈ l, ∃ line, layout x = some line ∧ line.length = width) :
    Rectangular (l.mapM layout) l.length width := by
  induction l with
  | nil => exact ⟨[], rfl, rfl, fun line hline => absurd hline List.not_mem_nil⟩
  | cons x rest ih =>
      rw [List.forall_mem_cons] at h
      rcases h.1 with ⟨line, hline, hlength⟩
      rcases ih h.2 with ⟨lines, hlines, hheight, hwidth⟩
      refine ⟨line :: lines, ?_, ?_, List.forall_mem_cons.mpr ⟨hlength, hwidth⟩⟩
      · rw [List.mapM_cons, hline, Guarded.some_bind, hlines]
        rfl
      · rw [List.length_cons, List.length_cons, hheight]

/-- Lines that are laid out one per label, from the label and its place. -/
theorem of_labels {labels : List String} {layout : String × Nat → Option String}
    (h : ∀ label ∈ labels, ∀ i < labels.length,
      ∃ line, layout (label, i) = some line ∧ line.length = width) :
    Rectangular (labels.zipIdx.mapM layout) labels.length width := by
  have hheight : labels.zipIdx.length = labels.length := List.length_zipIdx
  rw [← hheight]
  refine of_mapM ?_
  intro entry hentry
  exact h entry.1 (List.fst_mem_of_mem_zipIdx hentry) entry.2 (Guarded.lt_of_mem_zipIdx hentry)

/-- One more line, below the others. -/
theorem append_line {first : Option (List String)} {last : Option String} {line : String}
    (hfirst : Rectangular first height width) (hlast : last = some line)
    (hline : line.length = width) :
    Rectangular (do return (← first) ++ [← last]) (height + 1) width := by
  rcases hfirst with ⟨lines, rfl, hheight, hwidth⟩
  refine ⟨lines ++ [line], by rw [hlast]; rfl, ?_, ?_⟩
  · rw [List.length_append, hheight, List.length_singleton]
  · intro other hother
    rcases List.mem_append.mp hother with hmem | hmem
    · exact hwidth other hmem
    · rw [List.mem_singleton.mp hmem, hline]

end Rectangular

namespace Frame

section Tables

variable {N : NumberText α} {f : Frame}

/-- A map sends every row to a column. -/
def InRange (f : Frame) (basis : Array Int) : Prop :=
  ∀ i < f.rows.length, ∃ j < f.columns.length, basis[i]? = some (j : Int)

theorem exists_basicLabel {basis : Array Int} (h : f.InRange basis) {i : Nat}
    (hi : i < f.rows.length) :
    ∃ label, f.basicLabel? basis i = some label ∧ label.length ≤ f.labelWidth := by
  rcases h i hi with ⟨j, hj, hcolumn⟩
  refine ⟨f.columns[j].label, ?_, length_label_le_labelWidth (List.getElem_mem hj)⟩
  rw [basicLabel?, hcolumn, Guarded.some_bind, if_neg (by omega), Int.toNat_natCast,
    List.getElem?_eq_getElem hj]
  rfl

theorem exists_values_fit {row : Array α} (hsize : f.columns.length ≤ row.size)
    (hrow : ∀ x ∈ row, N.Fits x) :
    ∃ values, f.valuesOf? row = some values ∧ values.length = f.columns.length ∧
      ∀ x ∈ values, N.Fits x := by
  refine ⟨_, Guarded.valuesOf?_eq_some hsize, ?_, ?_⟩
  · rw [List.length_take, Array.length_toList, Nat.min_eq_left hsize]
  · intro x hx
    exact hrow x (Array.mem_toList_iff.mp (List.mem_of_mem_take hx))

-- What comes after the label is the same for every constraint.
theorem exists_constraintLine {matrix : Array (Array α)} {bounds : Array α} {i : Nat}
    {label sign : String} (hlabel : label.length ≤ f.labelWidth)
    (hsign : sign.length ≤ signWidth) (hi : i < f.rows.length)
    (hmatrix : N.Grid f.rows.length f.columns.length matrix)
    (hsize : f.rows.length ≤ bounds.size) (hbounds : ∀ x ∈ bounds, N.Fits x) :
    ∃ line,
      (do
        let values ← f.valuesOf? (← matrix[i]?)
        let last ← bounds[i]?
        return f.relation N label values sign last) = some line ∧
      line.length = f.rule.length + f.overhang := by
  rcases hmatrix.exists_row hi with ⟨row, hrow, hwide, hfits⟩
  rcases exists_values_fit hwide hfits with ⟨values, hvalues, hlength, hvaluesFit⟩
  have hlast := Array.getElem?_eq_getElem (Nat.lt_of_lt_of_le hi hsize)
  refine ⟨_, ?_, length_relation hlabel hlength hvaluesFit hsign
    (hbounds _ (Array.mem_of_getElem? hlast))⟩
  rw [hrow, Guarded.some_bind, hvalues, Guarded.some_bind, hlast]
  rfl

/-- The constraints of a program: one line per row. -/
theorem rectangular_matrix {basis : Array Int} {matrix : Array (Array α)} {bounds : Array α}
    (hlabels : ∀ label ∈ f.rows, label.length ≤ f.labelWidth)
    (hbasis : basis = #[] ∨ f.InRange basis)
    (hmatrix : N.Grid f.rows.length f.columns.length matrix)
    (hsize : f.rows.length ≤ bounds.size) (hbounds : ∀ x ∈ bounds, N.Fits x) :
    Rectangular (f.matrix? N basis matrix bounds) f.rows.length (f.rule.length + f.overhang) := by
  refine Rectangular.of_labels ?_
  intro label hmem i hi
  -- Without a map the label is that of the row, with one it is that of a column.
  by_cases hempty : basis.isEmpty
  · simp only [if_pos hempty]
    exact exists_constraintLine (hlabels label hmem) (by decide) hi hmatrix hsize hbounds
  · simp only [if_neg hempty]
    have hrange : f.InRange basis := hbasis.resolve_left fun hnil => hempty (by rw [hnil]; rfl)
    rcases exists_basicLabel hrange hi with ⟨name, hname, hshort⟩
    rw [hname, Guarded.some_bind]
    exact exists_constraintLine hshort (by decide) hi hmatrix hsize hbounds

theorem exists_tableauLine {row : Array α} {label sign : String}
    (hlabel : label.length ≤ f.labelWidth) (hsign : sign.length ≤ signWidth)
    (hsize : f.columns.length + 1 ≤ row.size) (hrow : ∀ x ∈ row, N.Fits x) :
    ∃ line, f.tableauRow? N label sign row = some line ∧
      line.length = f.rule.length + f.overhang := by
  rcases exists_values_fit (Nat.le_of_succ_le hsize) hrow with
    ⟨values, hvalues, hlength, hvaluesFit⟩
  have hlast := Array.getElem?_eq_getElem (Nat.lt_of_succ_le hsize)
  refine ⟨_, ?_, length_relation hlabel hlength hvaluesFit hsign
    (hrow _ (Array.mem_of_getElem? hlast))⟩
  rw [tableauRow?, hvalues, Guarded.some_bind, hlast]
  rfl

/-- The rows of a tableau: one line per row, and one for the reduced costs. -/
theorem rectangular_tableau {basis : Array Int} {rows : Array (Array α)}
    (hbasis : f.InRange basis) (hrows : N.Grid (f.rows.length + 1) (f.columns.length + 1) rows) :
    Rectangular (f.tableau? N basis rows) (f.rows.length + 1) (f.rule.length + f.overhang) := by
  have htitle : "REDUCED COSTS".length ≤ f.labelWidth :=
    Nat.le_trans (by decide) f.numberWidth_le_labelWidth
  rcases hrows.exists_row (Nat.lt_succ_self _) with ⟨costs, hcosts, hwide, hfits⟩
  rcases exists_tableauLine htitle (show "OBJ".length ≤ signWidth by decide) hwide hfits with
    ⟨line, hline, hlength⟩
  rw [tableau?, hcosts]
  refine Rectangular.append_line ?_ hline hlength
  refine Rectangular.of_labels ?_
  intro _ _ i hi
  rcases exists_basicLabel hbasis hi with ⟨label, hlabel, hshort⟩
  rcases hrows.exists_row (Nat.lt_succ_of_lt hi) with ⟨row, hrow, hwide, hfits⟩
  dsimp only
  rw [hlabel, Guarded.some_bind, hrow, Guarded.some_bind]
  exact exists_tableauLine hshort (by decide) hwide hfits

end Tables

end Frame

/-- Where all numbers fit their cells, constraints and tableaux are laid out as rectangles. They
    are as wide as the rule and the overhang of the label cell, which is zero exactly if no
    column has a label of more bytes than a number cell has. -/
theorem table_overhangs_rule (N : NumberText α) (f : Frame) {map basis : Array Int}
    {matrix rows : Array (Array α)} {bounds : Array α}
    (hlabels : ∀ label ∈ f.rows, label.length ≤ f.labelWidth)
    (hmap : map = #[] ∨ f.InRange map) (hbasis : f.InRange basis)
    (hmatrix : N.Grid f.rows.length f.columns.length matrix)
    (hsize : f.rows.length ≤ bounds.size) (hbounds : ∀ x ∈ bounds, N.Fits x)
    (hrows : N.Grid (f.rows.length + 1) (f.columns.length + 1) rows) :
    Rectangular (f.matrix? N map matrix bounds) f.rows.length (f.rule.length + f.overhang) ∧
      Rectangular (f.tableau? N basis rows) (f.rows.length + 1) (f.rule.length + f.overhang) ∧
      (f.overhang = 0 ↔ ∀ h ∈ f.columns, h.label.utf8ByteSize ≤ numberWidth) :=
  ⟨Frame.rectangular_matrix hlabels hmap hmatrix hsize hbounds,
    Frame.rectangular_tableau hbasis hrows, Frame.overhang_eq_zero_iff⟩

/-- A frame whose first label is one character too long for a number cell. -/
def banner : Frame where
  columns := [⟨"nineteen_characters", false⟩, ⟨"S1", true⟩]
  rows := ["R1"]

/-- The matrix of a constraint in that frame. -/
def bannerMatrix : Array (Array Float) := #[#[1, 0.5]]

/-- A tableau in that frame, with a number that just fits its cell. -/
def bannerTableau : Array (Array Float) := #[#[1, 0.5, 1234567890.25], #[-3, 0, 0]]

theorem length_rule_banner : banner.rule.length = 84 := by
  rw [Frame.length_rule]
  decide

theorem inRange_banner : banner.InRange #[1] := by
  unfold Frame.InRange
  decide

theorem grid_bannerMatrix : NumberText.binary64.Grid 1 2 bannerMatrix where
  height_le := by decide
  width_le := by decide
  fits := by decide +kernel

theorem grid_bannerTableau : NumberText.binary64.Grid 2 3 bannerTableau where
  height_le := by decide
  width_le := by decide
  fits := by decide +kernel

/-- Lines of 85 characters, one more than the rule has. -/
theorem table_overhangs_rule_banner :
    banner.rule.length = 84 ∧ banner.overhang = 1 ∧
      Rectangular (banner.matrix? .binary64 #[] bannerMatrix #[12.5]) 1 85 ∧
      Rectangular (banner.tableau? .binary64 #[1] bannerTableau) 2 85 := by
  have hoverhang : banner.overhang = 1 := by decide
  have hbanner := table_overhangs_rule .binary64 banner (by decide) (Or.inl rfl) inRange_banner
    grid_bannerMatrix (show 1 ≤ #[12.5].size by decide) (by decide +kernel) grid_bannerTableau
  rw [length_rule_banner, hoverhang] at hbanner
  exact ⟨length_rule_banner, hoverhang, hbanner.1, hbanner.2.1⟩

/-- The labels are ASCII, that of the row fits its cell, the map is in range and the numbers fit
    theirs, and yet no line is as long as the rule. -/
theorem table_outgrows_rule_banner :
    (∀ h ∈ banner.columns, ∀ c ∈ h.label.toList, c.toNat < 128) ∧
      (∀ label ∈ banner.rows, label.length ≤ banner.labelWidth) ∧ banner.InRange #[1] ∧
      NumberText.binary64.Grid 1 2 bannerMatrix ∧ NumberText.binary64.Fits 12.5 ∧
      NumberText.binary64.Grid 2 3 bannerTableau ∧ banner.rule.length = 84 ∧
      (banner.matrix? .binary64 #[] bannerMatrix #[12.5]).map (List.map String.length) =
        some [85] ∧
      (banner.tableau? .binary64 #[1] bannerTableau).map (List.map String.length) =
        some [85, 85] :=
  ⟨by simp [banner], by decide, inRange_banner, grid_bannerMatrix, by decide +kernel,
    grid_bannerTableau, length_rule_banner, by decide +kernel, by decide +kernel⟩

end SimplexMethod
