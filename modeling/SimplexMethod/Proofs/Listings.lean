import SimplexMethod.Proofs.DecimalTexts
import SimplexMethod.Proofs.Entries
import SimplexMethod.Proofs.GuardedTables

/-!
# Listings

The algebraic form of a program can be read back.

A listing leaves out the terms with a zero coefficient, and neither numbers nor labels have
a fixed width. Yet there is one way to read it. A number and a label are words: no blank and
no semicolon is in them, and one of the two comes after each. So a term is read from the left
without looking ahead, and its label tells which coefficients were left out before it, as
labels do not repeat and come in the order of the columns. A sum is over at a semicolon, or
at a blank before a relation sign, which no number begins with.

What the listing does not show is the sign of a zero coefficient. Right hand sides are
always written, and they are determined with their signs.

## Main definitions

* `Listing.Word`, `Listing.Broken`: Text without a break, and text that begins with one.
* `Listing.Closing`: Text that goes on after a sum.
* `NumberText.Legible`: Numbers are words that tell them apart.
* `Arithmetic.Alike`: Equal, or both zero.
* `Program.Entrywise`, `Program.Comparable`: Programs whose numbers are exact, and two of
  one size.
* `Listing.objectiveLine`, `Listing.constraintLine`: The lines of a listing.

## Theorems

* `Listing.word_append_inj`: Where a word ends can be seen.
* `Listing.label_mem_of_terms`: The first label in a sum is that of a column.
* `Listing.terms_append_inj`: A sum determines its coefficients, but for zeros.
* `Listing.listing_eq_lines`: A listing is made of its lines.
* `Listing.constraintLine_append_inj`, `Listing.constraints_inj`: The line of a constraint
  determines row and right hand side, and so do all of them together.
* `Listing.listing_inj`: A listing determines the program, in any arithmetic with legible
  numbers.
* `Binary64.legible_term`: Doubles are legible if they are exact to six places.
* `listing_determines`: So their listings determine the program.
-/

namespace SimplexMethod

namespace Listing

section Words

/-- A character that ends a number or a label. -/
def IsBreak (c : Char) : Prop := c = ' ' ∨ c = ';'

instance : DecidablePred IsBreak := fun c => inferInstanceAs (Decidable (c = ' ' ∨ c = ';'))

/-- Text without a break. -/
def Word (text : List Char) : Prop := ∀ c ∈ text, ¬ IsBreak c

/-- Text that begins with a break. -/
def Broken (text : List Char) : Prop := ∃ c rest, text = c :: rest ∧ IsBreak c

/-- Text that goes on after a sum. -/
inductive Closing : List Char → Prop where
  /-- The line ends. -/
  | line (rest : List Char) : Closing (';' :: rest)
  /-- A right hand side follows. -/
  | relation (rest : List Char) : Closing (' ' :: '<' :: rest)

theorem Broken.blank (rest : List Char) : Broken (' ' :: rest) := ⟨' ', rest, rfl, Or.inl rfl⟩

theorem Broken.semicolon (rest : List Char) : Broken (';' :: rest) := ⟨';', rest, rfl, Or.inr rfl⟩

theorem Closing.broken {s : List Char} (h : Closing s) : Broken s := by
  cases h with
  | line rest => exact Broken.semicolon rest
  | relation rest => exact Broken.blank _

-- A word does not begin with a break.
theorem Word.not_broken_append {c : Char} {word s : List Char} (hword : Word (c :: word)) :
    ¬ Broken (c :: word ++ s) := by
  rintro ⟨d, rest, heq, hbreak⟩
  rw [List.cons_append, List.cons.injEq] at heq
  rw [← heq.1] at hbreak
  exact hword c List.mem_cons_self hbreak

/-- Where a word ends can be seen. -/
theorem word_append_inj {a b s t : List Char} (ha : Word a) (hb : Word b) (hs : Broken s)
    (ht : Broken t) (h : a ++ s = b ++ t) : a = b ∧ s = t := by
  induction a generalizing b with
  | nil =>
      cases b with
      | nil => exact ⟨rfl, h⟩
      | cons d b => exact absurd (h ▸ hs : Broken (d :: b ++ t)) hb.not_broken_append
  | cons c a ih =>
      cases b with
      | nil => exact absurd (h ▸ ht : Broken (c :: a ++ s)) ha.not_broken_append
      | cons d b =>
          rw [List.cons_append, List.cons_append, List.cons.injEq] at h
          rcases ih (List.forall_mem_cons.mp ha).2 (List.forall_mem_cons.mp hb).2 h.2 with
            ⟨hab, hst⟩
          exact ⟨by rw [h.1, hab], hst⟩

end Words

end Listing

open Listing

/-- The numbers of listings are words, none begins like a relation sign, and they tell apart
    the numbers that are exact. -/
structure NumberText.Legible {α : Type} (N : NumberText α) (exact : α → Prop) : Prop where
  word : ∀ {x}, exact x → Word (N.term x).toList
  signed : ∀ {x}, exact x → ∀ rest, (N.term x).toList ≠ '<' :: rest
  inj : ∀ {x y}, exact x → exact y → N.term x = N.term y → x = y

/-- Two numbers are alike in a listing: equal, or both zero. -/
def Arithmetic.Alike {α : Type} (K : Arithmetic α) (x y : α) : Prop :=
  x = y ∨ K.eq x K.zero = true ∧ K.eq y K.zero = true

namespace Listing

section Sums

variable {α : Type} {K : Arithmetic α} {N : NumberText α} {exact : α → Prop}
variable {heading : Heading} {columns : List Heading} {rows : List String}
variable {value : α} {values others : List α} {s t : List Char}

theorem terms_cons_zero (hvalue : K.eq value K.zero = true) :
    Frame.terms ⟨heading :: columns, rows⟩ K N (value :: values) =
      Frame.terms ⟨columns, rows⟩ K N values := by
  simp only [Frame.terms, List.zipWith_cons_cons, hvalue, if_true, Layout.concat,
    List.foldr_cons, String.empty_append]

theorem toList_terms_cons (hvalue : K.eq value K.zero = false) :
    (Frame.terms ⟨heading :: columns, rows⟩ K N (value :: values)).toList =
      ' ' :: ((N.term value).toList ++ ' ' :: (heading.label.toList ++
        (Frame.terms ⟨columns, rows⟩ K N values).toList)) := by
  simp [Frame.terms, hvalue, Layout.concat, toString]

-- After a label there is a break.
theorem broken_terms_append (hs : Closing s) :
    Broken ((Frame.terms ⟨columns, rows⟩ K N values).toList ++ s) := by
  induction columns generalizing values with
  | nil => exact hs.broken
  | cons heading columns ih =>
      cases values with
      | nil => exact hs.broken
      | cons value values =>
          cases hvalue : K.eq value K.zero with
          | true =>
              rw [terms_cons_zero hvalue]
              exact ih
          | false =>
              rw [toList_terms_cons hvalue]
              exact Broken.blank _

-- What closes a sum is not a term.
theorem Closing.ne_term {number rest : List Char} (hs : Closing s)
    (hnumber : ∀ rest, number ≠ '<' :: rest) : s ≠ ' ' :: (number ++ ' ' :: rest) := by
  cases hs with
  | line rest => simp
  | relation rest =>
      cases number with
      | nil => simp
      | cons c number =>
          intro heq
          simp only [List.cons_append, List.cons.injEq, true_and] at heq
          exact hnumber number (by rw [heq.1])

/-- The first label in a sum is that of a column. -/
theorem label_mem_of_terms (hN : N.Legible exact)
    (hcolumns : ∀ h ∈ columns, Word h.label.toList) (hvalues : ∀ x ∈ values, exact x)
    (hs : Closing s) {number label rest : List Char} (hnumber : Word number)
    (hsigned : ∀ rest, number ≠ '<' :: rest) (hlabel : Word label) (hrest : Broken rest)
    (h : (Frame.terms ⟨columns, rows⟩ K N values).toList ++ s =
      ' ' :: (number ++ ' ' :: (label ++ rest))) :
    ∃ heading ∈ columns, heading.label.toList = label := by
  induction columns generalizing values with
  | nil => exact absurd h (hs.ne_term hsigned)
  | cons heading columns ih =>
      cases values with
      | nil => exact absurd h (hs.ne_term hsigned)
      | cons value values =>
          have hexact := hvalues value List.mem_cons_self
          cases hvalue : K.eq value K.zero with
          | true =>
              rw [terms_cons_zero hvalue] at h
              rcases ih (List.forall_mem_cons.mp hcolumns).2
                (List.forall_mem_cons.mp hvalues).2 h with ⟨found, hmem, hfound⟩
              exact ⟨found, List.mem_cons_of_mem _ hmem, hfound⟩
          | false =>
              rw [toList_terms_cons hvalue, List.cons_append, List.append_assoc, List.cons_append,
                List.append_assoc, List.cons.injEq] at h
              rcases word_append_inj (hN.word hexact) hnumber (Broken.blank _) (Broken.blank _)
                h.2 with ⟨_, htail⟩
              rcases word_append_inj (hcolumns heading List.mem_cons_self) hlabel
                (broken_terms_append hs) hrest (List.cons.inj htail).2 with ⟨heq, _⟩
              exact ⟨heading, List.mem_cons_self, heq⟩

-- A sum over later columns does not begin with the term of an earlier one.
theorem terms_append_ne (hN : N.Legible exact)
    (hcolumns : ∀ h ∈ heading :: columns, Word h.label.toList)
    (hlabels : ((heading :: columns).map Heading.label).Nodup) (hvalues : ∀ x ∈ values, exact x)
    (hexact : exact value) (hvalue : K.eq value K.zero = false) (hs : Closing s)
    (ht : Closing t) :
    (Frame.terms ⟨columns, rows⟩ K N values).toList ++ s ≠
      (Frame.terms ⟨heading :: columns, rows⟩ K N (value :: others)).toList ++ t := by
  intro h
  rw [toList_terms_cons hvalue, List.cons_append, List.append_assoc, List.cons_append,
    List.append_assoc] at h
  rcases label_mem_of_terms hN (List.forall_mem_cons.mp hcolumns).2 hvalues hs
    (hN.word hexact) (hN.signed hexact) (hcolumns heading List.mem_cons_self)
    (broken_terms_append ht) h with ⟨found, hmem, hfound⟩
  rw [List.map_cons, List.nodup_cons] at hlabels
  exact hlabels.1 (List.mem_map.mpr ⟨found, hmem, String.toList_injective hfound⟩)

/-- A sum determines its coefficients, but for zeros, and what comes after it. -/
theorem terms_append_inj (hN : N.Legible exact)
    (hcolumns : ∀ h ∈ columns, Word h.label.toList) (hlabels : (columns.map Heading.label).Nodup)
    (hvalues : ∀ x ∈ values, exact x) (hothers : ∀ x ∈ others, exact x)
    (hlength : values.length = columns.length) (hlength' : others.length = columns.length)
    (hs : Closing s) (ht : Closing t)
    (h : (Frame.terms ⟨columns, rows⟩ K N values).toList ++ s =
      (Frame.terms ⟨columns, rows⟩ K N others).toList ++ t) :
    List.Forall₂ K.Alike values others ∧ s = t := by
  induction columns generalizing values others with
  | nil =>
      rw [List.length_nil, List.length_eq_zero_iff] at hlength hlength'
      subst hlength hlength'
      exact ⟨List.Forall₂.nil, h⟩
  | cons heading columns ih =>
      rcases List.exists_cons_of_length_eq_add_one hlength with ⟨value, values, rfl⟩
      rcases List.exists_cons_of_length_eq_add_one hlength' with ⟨other, others, rfl⟩
      rw [List.forall_mem_cons] at hvalues hothers
      have hrest := ih (List.forall_mem_cons.mp hcolumns).2
        (List.nodup_cons.mp hlabels).2 hvalues.2 hothers.2 (Nat.succ.inj hlength)
        (Nat.succ.inj hlength')
      cases hvalue : K.eq value K.zero with
      | true =>
          rw [terms_cons_zero hvalue] at h
          cases hother : K.eq other K.zero with
          | true =>
              rw [terms_cons_zero hother] at h
              rcases hrest h with ⟨halike, hst⟩
              exact ⟨List.Forall₂.cons (Or.inr ⟨hvalue, hother⟩) halike, hst⟩
          | false =>
              -- The label of this column would have to come up again among the later ones.
              exact absurd h
                (terms_append_ne hN hcolumns hlabels hvalues.2 hothers.1 hother hs ht)
      | false =>
          cases hother : K.eq other K.zero with
          | true =>
              rw [terms_cons_zero hother] at h
              exact absurd h.symm
                (terms_append_ne hN hcolumns hlabels hothers.2 hvalues.1 hvalue ht hs)
          | false =>
              -- Number, blank, label: each is read off, and the sums go on alike.
              rw [toList_terms_cons hvalue, toList_terms_cons hother] at h
              simp only [List.cons_append, List.append_assoc, List.cons.injEq, true_and] at h
              rcases word_append_inj (hN.word hvalues.1) (hN.word hothers.1) (Broken.blank _)
                (Broken.blank _) h with ⟨hnumber, htail⟩
              rcases hrest (List.append_cancel_left (List.cons.inj htail).2) with ⟨halike, hst⟩
              have heq := hN.inj hvalues.1 hothers.1 (String.toList_injective hnumber)
              exact ⟨List.Forall₂.cons (Or.inl heq) halike, hst⟩

end Sums

section Labels

theorem toList_variableLabel (j : Nat) :
    (Program.variableLabel j).toList = 'X' :: Nat.toDigits 10 (j + 1) := by
  simp [Program.variableLabel, toString]

theorem variableLabel_injective : Function.Injective Program.variableLabel := by
  intro i j h
  have hchars := congrArg String.toList h
  rw [toList_variableLabel, toList_variableLabel, List.cons.injEq] at hchars
  exact Nat.succ.inj (Decimal.toDigits_inj hchars.2)

-- Digits are not breaks.
theorem not_isBreak_of_isDigit {c : Char} (h : c.isDigit = true) : ¬ IsBreak c := by
  rintro (rfl | rfl) <;> exact absurd h (by decide)

theorem word_variableLabel (j : Nat) : Word (Program.variableLabel j).toList := by
  intro c hc
  rw [toList_variableLabel, List.mem_cons] at hc
  rcases hc with rfl | hdigit
  · decide
  · exact not_isBreak_of_isDigit (Decimal.isDigit_of_mem_toDigits hdigit)

variable {α : Type} (P : Program α)

theorem word_label : ∀ h ∈ P.frame.columns, Word h.label.toList := by
  intro h hmem
  rcases List.mem_map.mp hmem with ⟨j, _, rfl⟩
  exact word_variableLabel j

theorem nodup_labels : (P.frame.columns.map Heading.label).Nodup := by
  rw [Program.frame, List.map_map]
  exact List.nodup_range.map variableLabel_injective

end Labels

end Listing

/-- All numbers of a program meet a condition. -/
structure Program.Entrywise {α : Type} (P : Program α) (condition : α → Prop) : Prop where
  objective : ∀ x ∈ P.objective, condition x
  matrix : ∀ row ∈ P.matrix, ∀ x ∈ row, condition x
  bounds : ∀ x ∈ P.bounds, condition x

/-- Two programs of one size, shaped, whose numbers are exact. -/
structure Program.Comparable {α : Type} (exact : α → Prop) (P Q : Program α) : Prop where
  left_shaped : P.Shaped
  right_shaped : Q.Shaped
  left_exact : P.Entrywise exact
  right_exact : Q.Entrywise exact
  variableCount_eq : P.variableCount = Q.variableCount
  rowCount_eq : P.rowCount = Q.rowCount

namespace Listing

section Lines

variable {α : Type} (K : Arithmetic α) (N : NumberText α) {exact : α → Prop} {P Q : Program α}

/-- The first word of a listing. -/
def goal : Sense → String
  | .maximize => "max: "
  | .minimize => "min: "

/-- The line of the objective. -/
def objectiveLine (P : Program α) : String :=
  goal P.sense ++ P.frame.terms K N P.objective.toList ++ ";"

/-- The line of a constraint. -/
def constraintLine (P : Program α) (i : Nat) : String :=
  let sum := P.frame.terms K N (P.matrix.getD i #[]).toList
  s!"{Program.rowLabel i}:{sum} <= {N.term (P.bounds.getD i K.zero)};"

-- A row with one value per column is shown as a whole.
theorem values_of_size {values : Array α} (h : values.size = P.variableCount) :
    P.frame.valuesOf? values = some values.toList := by
  have hcolumns : P.frame.columns.length = values.size :=
    (Guarded.length_columns_program P).trans h.symm
  rw [Guarded.valuesOf?_eq_some (Nat.le_of_eq hcolumns), hcolumns, ← Array.length_toList,
    List.take_length]

theorem listing_eq_lines (hP : P.Shaped) :
    P.listing K N = Layout.unlines
      ("" :: objectiveLine K N P :: (List.range P.rowCount).map (constraintLine K N P)) := by
  have hrows : P.frame.rows.zipIdx =
      (List.range P.rowCount).map fun i => (Program.rowLabel i, i) := by
    apply List.ext_getElem
    · simp [Program.frame]
    · intro i hi hi'
      simp [Program.frame]
  unfold Program.listing Frame.listing?
  rw [values_of_size rfl, Guarded.some_bind, hrows, List.mapM_map,
    Guarded.mapM_eq_some (g := constraintLine K N P)]
  · rfl
  · intro i hi
    have hi : i < P.rowCount := List.mem_range.mp hi
    have hrow := Guarded.read_eq_some (hP.matrix_size.symm ▸ hi : i < P.matrix.size) #[]
    have hbound := Guarded.read_eq_some (show i < P.bounds.size from hi) K.zero
    dsimp only [Function.comp_apply]
    rw [hrow, Guarded.some_bind, values_of_size (hP.row_size i hi), Guarded.some_bind, hbound]
    rfl

variable {K N}

theorem toList_unlines_cons (line : String) (lines : List String) :
    (Layout.unlines (line :: lines)).toList =
      line.toList ++ '\n' :: (Layout.unlines lines).toList := by
  simp [Layout.unlines, Layout.concat]

theorem toList_constraintLine (i : Nat) :
    (constraintLine K N P i).toList = (Program.rowLabel i).toList ++ ':' ::
      ((P.frame.terms K N (P.matrix.getD i #[]).toList).toList ++
        ' ' :: '<' :: '=' :: ' ' :: ((N.term (P.bounds.getD i K.zero)).toList ++ [';'])) := by
  simp [constraintLine, toString]

theorem exact_row (hP : P.Shaped) (hexact : P.Entrywise exact) {i : Nat} (hi : i < P.rowCount) :
    ∀ x ∈ (P.matrix.getD i #[]).toList, exact x := by
  intro x hx
  have hrow := Guarded.read_eq_some (hP.matrix_size.symm ▸ hi : i < P.matrix.size) #[]
  exact hexact.matrix _ (Array.mem_of_getElem? hrow) x (Array.mem_toList_iff.mp hx)

theorem exact_bound (hexact : P.Entrywise exact) {i : Nat} (hi : i < P.rowCount) :
    exact (P.bounds.getD i K.zero) :=
  hexact.bounds _ (Array.mem_of_getElem? (Guarded.read_eq_some hi K.zero))

theorem frame_eq (hPQ : Program.Comparable exact P Q) : P.frame = Q.frame := by
  rw [Program.frame, Program.frame, hPQ.variableCount_eq, hPQ.rowCount_eq]

/-- A sum in the frame of a program, with one coefficient per variable, determines them. -/
theorem frame_terms_inj (hN : N.Legible exact) {values others : List α} {s t : List Char}
    (hvalues : ∀ x ∈ values, exact x) (hothers : ∀ x ∈ others, exact x)
    (hlength : values.length = P.variableCount) (hlength' : others.length = P.variableCount)
    (hs : Closing s) (ht : Closing t)
    (h : (P.frame.terms K N values).toList ++ s = (P.frame.terms K N others).toList ++ t) :
    List.Forall₂ K.Alike values others ∧ s = t := by
  rw [← Guarded.length_columns_program] at hlength hlength'
  exact terms_append_inj hN (word_label P) (nodup_labels P) hvalues hothers hlength hlength' hs ht
    h

/-- The line of a constraint determines row and right hand side, and what comes after it. -/
theorem constraintLine_append_inj (hN : N.Legible exact) (hPQ : Program.Comparable exact P Q)
    {i : Nat} (hi : i < P.rowCount) {s t : List Char}
    (h : (constraintLine K N P i).toList ++ s = (constraintLine K N Q i).toList ++ t) :
    List.Forall₂ K.Alike (P.matrix.getD i #[]).toList (Q.matrix.getD i #[]).toList ∧
      P.bounds.getD i K.zero = Q.bounds.getD i K.zero ∧ s = t := by
  have hi' : i < Q.rowCount := hPQ.rowCount_eq ▸ hi
  have hlength : (P.matrix.getD i #[]).toList.length = P.variableCount := by
    rw [Array.length_toList, hPQ.left_shaped.row_size i hi]
  have hlength' : (Q.matrix.getD i #[]).toList.length = P.variableCount := by
    rw [Array.length_toList, hPQ.right_shaped.row_size i hi', hPQ.variableCount_eq]
  have hbound := exact_bound (K := K) hPQ.left_exact hi
  have hbound' := exact_bound (K := K) hPQ.right_exact hi'
  rw [toList_constraintLine, toList_constraintLine, ← frame_eq hPQ] at h
  simp only [List.append_assoc, List.cons_append, List.append_cancel_left_eq, List.cons.injEq,
    true_and, List.nil_append] at h
  rcases frame_terms_inj hN (exact_row hPQ.left_shaped hPQ.left_exact hi)
    (exact_row hPQ.right_shaped hPQ.right_exact hi') hlength hlength' (Closing.relation _)
    (Closing.relation _) h with ⟨hrow, htail⟩
  simp only [List.cons.injEq, true_and] at htail
  rcases word_append_inj (hN.word hbound) (hN.word hbound') (Broken.semicolon _)
    (Broken.semicolon _) htail with ⟨hterm, hrest⟩
  exact ⟨hrow, hN.inj hbound hbound' (String.toList_injective hterm), (List.cons.inj hrest).2⟩

/-- Lines of constraints determine rows and right hand sides. -/
theorem constraints_inj (hN : N.Legible exact) (hPQ : Program.Comparable exact P Q)
    {l : List Nat} (hl : ∀ i ∈ l, i < P.rowCount)
    (h : (Layout.unlines (l.map (constraintLine K N P))).toList =
      (Layout.unlines (l.map (constraintLine K N Q))).toList) :
    ∀ i ∈ l, List.Forall₂ K.Alike (P.matrix.getD i #[]).toList (Q.matrix.getD i #[]).toList ∧
      P.bounds.getD i K.zero = Q.bounds.getD i K.zero := by
  induction l with
  | nil => exact fun i hi => absurd hi List.not_mem_nil
  | cons k l ih =>
      rw [List.forall_mem_cons] at hl
      rw [List.map_cons, List.map_cons, toList_unlines_cons, toList_unlines_cons] at h
      rcases constraintLine_append_inj hN hPQ hl.1 h with ⟨hrow, hbound, hrest⟩
      rw [List.forall_mem_cons]
      exact ⟨⟨hrow, hbound⟩, ih hl.2 (List.cons.inj hrest).2⟩

-- The second letter tells the senses apart.
theorem goal_append_inj {a b : Sense} {s t : List Char}
    (h : (goal a).toList ++ s = (goal b).toList ++ t) : a = b ∧ s = t := by
  cases a <;> cases b <;> simp_all [goal]

/-- The line of an objective determines sense and objective, and what comes after it. -/
theorem objectiveLine_append_inj (hN : N.Legible exact) (hPQ : Program.Comparable exact P Q)
    {s t : List Char}
    (h : (objectiveLine K N P).toList ++ s = (objectiveLine K N Q).toList ++ t) :
    P.sense = Q.sense ∧ List.Forall₂ K.Alike P.objective.toList Q.objective.toList ∧ s = t := by
  simp only [objectiveLine, String.toList_append, List.append_assoc] at h
  rcases goal_append_inj h with ⟨hsense, hsum⟩
  rw [← frame_eq hPQ] at hsum
  rcases frame_terms_inj hN (fun x hx => hPQ.left_exact.objective x (Array.mem_toList_iff.mp hx))
    (fun x hx => hPQ.right_exact.objective x (Array.mem_toList_iff.mp hx)) Array.length_toList
    (Array.length_toList.trans hPQ.variableCount_eq.symm) (Closing.line _) (Closing.line _)
    hsum with ⟨hobjective, hrest⟩
  exact ⟨hsense, hobjective, (List.cons.inj hrest).2⟩

-- Matrices are alike if their rows are.
theorem forall₂_rows {R : α → α → Prop} (hPQ : Program.Comparable exact P Q)
    (h : ∀ i < P.rowCount,
      List.Forall₂ R (P.matrix.getD i #[]).toList (Q.matrix.getD i #[]).toList) :
    List.Forall₂ (fun row other => List.Forall₂ R row.toList other.toList) P.matrix.toList
      Q.matrix.toList := by
  have hP := hPQ.left_shaped.matrix_size
  have hQ := hPQ.right_shaped.matrix_size
  rw [List.forall₂_iff_get]
  refine ⟨by rw [Array.length_toList, Array.length_toList, hP, hQ, hPQ.rowCount_eq], ?_⟩
  intro i hi hi'
  rw [Array.length_toList] at hi hi'
  have hrow := h i (hP ▸ hi)
  simpa [Array.getD_eq_getD_getElem?, hi, hi'] using hrow

/-- A listing determines sense and right hand sides, and the coefficients but for zeros. -/
theorem listing_inj (hN : N.Legible exact) (hPQ : Program.Comparable exact P Q)
    (h : P.listing K N = Q.listing K N) :
    P.sense = Q.sense ∧ P.bounds = Q.bounds ∧
      List.Forall₂ K.Alike P.objective.toList Q.objective.toList ∧
      List.Forall₂ (fun row other => List.Forall₂ K.Alike row.toList other.toList)
        P.matrix.toList Q.matrix.toList := by
  have hchars := congrArg String.toList h
  rw [listing_eq_lines K N hPQ.left_shaped, listing_eq_lines K N hPQ.right_shaped,
    ← hPQ.rowCount_eq] at hchars
  simp only [toList_unlines_cons, String.toList_empty, List.nil_append, List.cons.injEq,
    true_and] at hchars
  rcases objectiveLine_append_inj hN hPQ hchars with ⟨hsense, hobjective, htail⟩
  have hlines := constraints_inj hN hPQ (fun i hi => List.mem_range.mp hi) (List.cons.inj htail).2
  have hbounds : P.bounds = Q.bounds := by
    refine eq_of_getD_eq K.zero hPQ.rowCount_eq fun i hi => ?_
    exact (hlines i (List.mem_range.mpr (hPQ.rowCount_eq ▸ hi))).2
  exact ⟨hsense, hbounds, hobjective,
    forall₂_rows hPQ fun i hi => (hlines i (List.mem_range.mpr hi)).1⟩

end Lines

end Listing

namespace Binary64

/-- Doubles that are exact to six decimal places are legible. -/
theorem legible_term : NumberText.binary64.Legible (ExactTo 6) where
  word := by
    intro x hx c hc
    rcases hx.reading with ⟨negative, mantissa, exponent, hreading, units, hunits⟩
    change c ∈ (Decimal.signedFixed 6 x).toList at hc
    rw [toList_signedFixed hreading hunits, List.mem_cons] at hc
    rcases hc with rfl | hdigits
    · cases negative <;> decide
    · rcases Decimal.mem_fixedText hdigits with hdigit | rfl
      · exact not_isBreak_of_isDigit hdigit
      · decide
  signed := by
    intro x hx rest heq
    rcases hx.reading with ⟨negative, mantissa, exponent, hreading, units, hunits⟩
    change (Decimal.signedFixed 6 x).toList = '<' :: rest at heq
    rw [toList_signedFixed hreading hunits, List.cons.injEq] at heq
    cases negative <;> exact absurd heq.1 (by decide)
  inj := signedFixed_inj

/-- Numbers that are alike in a listing are the same number. -/
theorem sameNumber_of_alike {x y : Float} (h : Arithmetic.binary64.Alike x y) :
    SameNumber x y := by
  have hzero : ∀ {z : Float}, Arithmetic.binary64.eq z 0 = true → z = 0 ∨ z = -0 := by
    intro z hz
    rcases Float.beq_iff_ne_nan_and_eq.mp hz with ⟨_, _, rfl | ⟨rfl, _⟩ | ⟨rfl, _⟩⟩
    · exact Or.inl rfl
    · exact Or.inl rfl
    · exact Or.inr rfl
  rcases h with rfl | ⟨hx, hy⟩
  · rfl
  · rcases hzero hx with rfl | rfl <;> rcases hzero hy with rfl | rfl <;> rfl

end Binary64

open Binary64

/-- Of two accepted programs of one size whose numbers are exact to six decimal places, if
    the listings are equal, so are senses and right hand sides, and objective and matrix are
    the same but for the signs of zeros. -/
theorem listing_determines {dataP dataQ P Q : Program Float}
    (hP : dataP.accept .binary64 = .ok P) (hQ : dataQ.accept .binary64 = .ok Q)
    (hvariables : P.variableCount = Q.variableCount) (hrows : P.rowCount = Q.rowCount)
    (hexactP : P.Entrywise (ExactTo 6)) (hexactQ : Q.Entrywise (ExactTo 6))
    (h : P.listing .binary64 .binary64 = Q.listing .binary64 .binary64) :
    P.sense = Q.sense ∧ P.bounds = Q.bounds ∧
      List.Forall₂ SameNumber P.objective.toList Q.objective.toList ∧
      List.Forall₂ (fun row other => List.Forall₂ SameNumber row.toList other.toList)
        P.matrix.toList Q.matrix.toList := by
  rcases Program.accept_eq_ok.mp hP with ⟨hacceptP, rfl⟩
  rcases Program.accept_eq_ok.mp hQ with ⟨hacceptQ, rfl⟩
  have hPQ : Program.Comparable (ExactTo 6) P Q :=
    ⟨Program.Shaped.of_rejection? hacceptP, Program.Shaped.of_rejection? hacceptQ, hexactP,
      hexactQ, hvariables, hrows⟩
  rcases Listing.listing_inj legible_term hPQ h with ⟨hsense, hbounds, hobjective, hmatrix⟩
  exact ⟨hsense, hbounds, hobjective.imp fun _ _ => sameNumber_of_alike,
    hmatrix.imp fun _ _ hrow => hrow.imp fun _ _ => sameNumber_of_alike⟩

/-- Eleven variables, of which few are used, around a zero that is left out. -/
def pier (zero : Float) : Program Float where
  name := "PIER"
  sense := .minimize
  objective := #[1, zero, zero, zero, zero, zero, zero, zero, zero, zero, -2.5]
  matrix := #[#[zero, zero, zero, zero, zero, zero, zero, zero, zero, zero, 1],
    #[zero, zero, zero, zero, zero, zero, zero, zero, zero, zero, zero]]
  bounds := #[0.015625, 0]

theorem pier_entrywise {zero : Float} (hzero : ExactTo 6 zero) :
    (pier zero).Entrywise (ExactTo 6) := by
  have hone : ExactTo 6 1 :=
    ExactTo.of_reading 1000000 false 4503599627370496 (-52) rfl (by norm_num)
  have hobjective : ExactTo 6 (-2.5) :=
    ExactTo.of_reading (-2500000) true 5629499534213120 (-51) rfl (by norm_num)
  have hbound : ExactTo 6 0.015625 :=
    ExactTo.of_reading 15625 false 4503599627370496 (-58) rfl (by norm_num)
  have hlast : ExactTo 6 0 := ExactTo.of_reading 0 false 0 0 rfl (by norm_num)
  exact ⟨by simp [pier, hone, hzero, hobjective], by simp [pier, hone, hzero],
    by simp [pier, hbound, hlast]⟩

/-- The signs of its zeros are all that the listing does not show. -/
theorem listing_determines_pier :
    (pier 0).listing .binary64 .binary64 = (pier (-0)).listing .binary64 .binary64 ∧
      (pier 0).bounds = (pier (-0)).bounds ∧
      List.Forall₂ SameNumber (pier 0).objective.toList (pier (-0)).objective.toList := by
  have hexact : ExactTo 6 0 := ExactTo.of_reading 0 false 0 0 rfl (by norm_num)
  have hexact' : ExactTo 6 (-0) := ExactTo.of_reading 0 true 0 0 rfl (by norm_num)
  have hlisting : (pier 0).listing .binary64 .binary64 =
      (pier (-0)).listing .binary64 .binary64 := by decide +kernel
  have haccept : ∀ zero, (pier zero).accept .binary64 = .ok (pier zero) :=
    fun _ => Program.accept_eq_ok.mpr ⟨rfl, rfl⟩
  have hpier := listing_determines (haccept 0) (haccept (-0)) rfl rfl (pier_entrywise hexact)
    (pier_entrywise hexact') hlisting
  exact ⟨hlisting, hpier.2.1, hpier.2.2.1⟩

end SimplexMethod
