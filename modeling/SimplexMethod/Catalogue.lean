import SimplexMethod.Program

/-!
# A catalogue of programs

Small programs that show what the method can meet: an optimum, an unbounded ray,
a start that is not feasible, ties, a program on which the method cycles under
one rule and not under another, a program on which it visits every vertex, and a
minimization.

## Main definitions

* `catalogue`: The programs, in order.
-/

namespace SimplexMethod

/-- The programs of the catalogue. -/
def catalogue : List (Program Float) :=
  [{ name := "two_var_max"
     sense := .maximize
     objective := #[3, 2]
     matrix := #[#[1, 1], #[1, 0], #[0, 1]]
     bounds := #[4, 2, 3] },
   { name := "unbounded_ray"
     sense := .maximize
     objective := #[1, 1]
     matrix := #[#[1, -1]]
     bounds := #[1] },
   { name := "infeasible_origin"
     sense := .maximize
     objective := #[1, 0]
     matrix := #[#[1, 0]]
     bounds := #[-1] },
   { name := "degenerate_tie"
     sense := .maximize
     objective := #[2, 1]
     matrix := #[#[1, 0], #[1, 1], #[0, 1]]
     bounds := #[2, 2, 3] },
   { name := "beale_cycling"
     sense := .maximize
     objective := #[10, -57, -9, -24]
     matrix := #[#[0.5, -5.5, -2.5, 9], #[0.5, -1.5, -0.5, 1], #[1, 0, 0, 0]]
     bounds := #[0, 0, 1] },
   { name := "klee_minty_3"
     sense := .maximize
     objective := #[100, 10, 1]
     matrix := #[#[1, 0, 0], #[20, 1, 0], #[200, 20, 1]]
     bounds := #[1, 100, 10000] },
   { name := "three_var_min"
     sense := .minimize
     objective := #[2, 3, -1]
     matrix := #[#[1, 1, 1], #[2, 1, 0], #[0, 1, 3]]
     bounds := #[10, 8, 9] }]

end SimplexMethod
