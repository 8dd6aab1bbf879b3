/-!
# Layout of text

Cells of a given width, and lines of text.

A cell is padded with blanks to its width, counted in characters; a longer text
is not cut. Centring puts the odd blank on the right.

## Main definitions

* `fill`, `blanks`: One character, repeated.
* `centred`, `flushRight`: Padding to a width.
* `total`: The sum of widths.
* `unlines`: Lines, each ended by a newline.

## Theorems

* `length_centred`, `length_flushRight`: A cell is as wide as its width, or as
  its text if that is wider.
* `length_concat`: Lengths add up.
-/

namespace SimplexMethod

namespace Layout

/-- One character, repeated. -/
def fill (c : Char) (count : Nat) : String := String.ofList (List.replicate count c)

/-- A run of blanks. -/
def blanks (count : Nat) : String := fill ' ' count

/-- The text in the middle of a cell. -/
def centred (width : Nat) (text : String) : String :=
  let pad := width - text.length
  blanks (pad / 2) ++ text ++ blanks (pad - pad / 2)

/-- The text at the right of a cell. -/
def flushRight (width : Nat) (text : String) : String :=
  blanks (width - text.length) ++ text

@[simp]
theorem length_fill (c : Char) (count : Nat) : (fill c count).length = count := by
  rw [fill, String.length_ofList, List.length_replicate]

@[simp]
theorem length_blanks (count : Nat) : (blanks count).length = count :=
  length_fill ' ' count

theorem length_centred (width : Nat) (text : String) :
    (centred width text).length = max width text.length := by
  simp only [centred, String.length_append, length_blanks]
  omega

theorem length_flushRight (width : Nat) (text : String) :
    (flushRight width text).length = max width text.length := by
  simp only [flushRight, String.length_append, length_blanks]
  omega

/-- The texts one after another. -/
def concat (texts : List String) : String := texts.foldr (· ++ ·) ""

/-- The sum of widths. -/
def total (widths : List Nat) : Nat := widths.foldr (· + ·) 0

theorem total_cons (width : Nat) (rest : List Nat) : total (width :: rest) = width + total rest :=
  rfl

theorem length_concat (texts : List String) :
    (concat texts).length = total (texts.map String.length) := by
  induction texts with
  | nil => rfl
  | cons text rest ih =>
      rw [concat, List.foldr_cons, ← concat, String.length_append, ih, List.map_cons,
        total_cons]

/-- Lines of text, each ended by a newline. -/
def unlines (lines : List String) : String := concat (lines.map fun line => line ++ "\n")

end Layout

end SimplexMethod
