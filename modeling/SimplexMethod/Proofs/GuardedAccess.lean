/-!
# Guarded access

Arrays that refuse an index they do not have.

Reading outside an array can be given a default, and writing outside it can be defined to
do nothing. A computation written that way always has a result, and an index out of range
goes unnoticed. A *guarded* computation has a result only if every index it used was in
range, and nothing stands in for a missing entry. The entries that are read but not needed
in the end count as well.

To show that a computation uses no index out of range is to show that its guarded form has
a result; if that is moreover the result of the computation itself, the guarded form is a
faithful account of what it does. The lemmas below do this for single accesses and for
loops. A loop is in range if each of its passes is, and a pass may rely on what the passes
before it have kept.

## Main definitions

* `Guarded`: A computation that uses only indices in range.
* `Guarded.index`, `Guarded.write`, `Guarded.slice`: Guarded access. Reading is the
  optional look-up that arrays have.
* `Guarded.fill`: Writing a part of an array, entry by entry.
* `Guarded.orElse`: A second search where the first finds nothing.

## Theorems

* `Guarded.mapM_eq_some`, `Guarded.foldlM_eq_some`, `Guarded.find_eq_some`,
  `Guarded.findSome_eq_some`: A loop is in range if each pass is.
* `Guarded.fill_eq_some`: What an array contains after a part of it is written.
* `Guarded.orElse_eq_some`: A second search may rely on the first having found nothing.
-/

namespace SimplexMethod

/-- A computation on arrays. It has no result if it uses an index out of range. -/
abbrev Guarded (β : Type) : Type := Option β

namespace Guarded

variable {β γ σ : Type}

/-- An integer as an index. A negative one is in no range. -/
def index (i : Int) : Guarded Nat := if i < 0 then none else some i.toNat

/-- Overwrite an entry. -/
def write (a : Array β) (i : Nat) (x : β) : Guarded (Array β) :=
  if i < a.size then some (a.setIfInBounds i x) else none

/-- The entries from `start` up to `stop`. -/
def slice (a : Array β) (start stop : Nat) : Guarded (Array β) :=
  if start ≤ stop ∧ stop ≤ a.size then some (a.extract start stop) else none

/-- Write `f i` at `start + i`, for every `i` below `count`. -/
def fill (a : Array β) (start count : Nat) (f : Nat → Guarded β) : Guarded (Array β) :=
  (List.range count).foldlM (fun a i => do write a (start + i) (← f i)) a

/-- A second search where the first finds nothing. -/
def orElse (first second : Guarded (Option β)) : Guarded (Option β) := do
  match ← first with
  | some found => return some found
  | none => second

theorem some_bind (x : β) (f : β → Guarded γ) : (some x >>= f) = f x := rfl

theorem index_eq_some {i : Int} (hi : 0 ≤ i) : index i = some i.toNat :=
  if_neg (Int.not_lt.mpr hi)

theorem read_eq_some {a : Array β} {i : Nat} (hi : i < a.size) (default : β) :
    a[i]? = some (a.getD i default) := by
  rw [Array.getD_eq_getD_getElem?, Array.getElem?_eq_getElem hi, Option.getD_some]

theorem write_eq_some {a : Array β} {i : Nat} (hi : i < a.size) (x : β) :
    write a i x = some (a.setIfInBounds i x) := if_pos hi

theorem slice_eq_some {a : Array β} {start stop : Nat} (hstart : start ≤ stop)
    (hstop : stop ≤ a.size) : slice a start stop = some (a.extract start stop) :=
  if_pos ⟨hstart, hstop⟩

theorem mapM_eq_some {f : β → Guarded γ} {g : β → γ} {l : List β}
    (h : ∀ x ∈ l, f x = some (g x)) : l.mapM f = some (l.map g) := by
  induction l with
  | nil => rfl
  | cons x rest ih =>
      have hrest := ih fun y hy => h y (List.mem_cons_of_mem x hy)
      rw [List.mapM_cons, h x List.mem_cons_self, hrest]
      rfl

/-- A loop with a state is in range if each pass is, where a pass may rely on what the
    passes before it have kept. -/
theorem foldlM_eq_some {f : σ → β → Guarded σ} {g : σ → β → σ} (I : σ → Prop) {l : List β}
    (hpass : ∀ s, I s → ∀ x ∈ l, f s x = some (g s x)) (hkeep : ∀ s, I s → ∀ x ∈ l, I (g s x))
    {s : σ} (hs : I s) : l.foldlM f s = some (l.foldl g s) := by
  induction l generalizing s with
  | nil => rfl
  | cons x rest ih =>
      rw [List.foldlM_cons, hpass s hs x List.mem_cons_self, List.foldl_cons]
      exact ih (fun s hs y hy => hpass s hs y (List.mem_cons_of_mem x hy))
        (fun s hs y hy => hkeep s hs y (List.mem_cons_of_mem x hy))
        (hkeep s hs x List.mem_cons_self)

theorem find_eq_some {f : β → Guarded Bool} {p : β → Bool} {l : List β}
    (h : ∀ x ∈ l, f x = some (p x)) : l.findM? f = some (l.find? p) := by
  induction l with
  | nil => rfl
  | cons x rest ih =>
      have hrest := ih fun y hy => h y (List.mem_cons_of_mem x hy)
      unfold List.findM?
      rw [h x List.mem_cons_self, List.find?_cons]
      cases p x with
      | true => rfl
      | false => exact hrest

theorem findSome_eq_some {f : β → Guarded (Option γ)} {g : β → Option γ} {l : List β}
    (h : ∀ x ∈ l, f x = some (g x)) : l.findSomeM? f = some (l.findSome? g) := by
  induction l with
  | nil => rfl
  | cons x rest ih =>
      have hrest := ih fun y hy => h y (List.mem_cons_of_mem x hy)
      rw [List.findSomeM?_cons, h x List.mem_cons_self, List.findSome?_cons]
      cases g x with
      | some found => rfl
      | none => exact hrest

/-- What `fill` writes, as a map over the array. -/
theorem fill_eq_some {a : Array β} {start count : Nat} (hrange : start + count ≤ a.size)
    {f : Nat → Guarded β} {g : Nat → β} (hf : ∀ i < count, f i = some (g i)) :
    fill a start count f =
      some (a.mapIdx fun j x => if start ≤ j ∧ j < start + count then g (j - start) else x) := by
  induction count with
  | zero =>
      have hsame : (a.mapIdx fun j x => if start ≤ j ∧ j < start + 0 then g (j - start) else x)
          = a := by
        refine Array.ext Array.size_mapIdx fun j _ _ => ?_
        rw [Array.getElem_mapIdx, if_neg (by omega)]
      rw [hsame]
      rfl
  | succ count ih =>
      have hbefore := ih (by omega) fun i hi => hf i (by omega)
      unfold fill at hbefore ⊢
      rw [List.range_succ, List.foldlM_append, hbefore, some_bind, List.foldlM_cons,
        hf count (by omega), some_bind, write_eq_some (by rw [Array.size_mapIdx]; omega), some_bind,
        List.foldlM_nil, Option.pure_def, Option.some.injEq]
      refine Array.ext (by simp only [Array.size_setIfInBounds, Array.size_mapIdx]) ?_
      intro j hj hj'
      rw [Array.size_setIfInBounds] at hj
      rw [Array.getElem_setIfInBounds hj, Array.getElem_mapIdx, Array.getElem_mapIdx]
      -- The last pass writes at `start + count` and leaves the rest.
      by_cases hlast : start + count = j
      · rw [if_pos hlast, if_pos (by omega), ← hlast, Nat.add_sub_cancel_left]
      · have hsame : start ≤ j ∧ j < start + count ↔ start ≤ j ∧ j < start + (count + 1) := by
          omega
        simp only [hlast, if_false, hsame]

/-- The second search is made only if the first finds nothing, so it need be in range
    only then. -/
theorem orElse_eq_some {first second : Guarded (Option β)} {a b : Option β}
    (hfirst : first = some a) (hsecond : a = none → second = some b) :
    orElse first second = some (a <|> b) := by
  rw [orElse, hfirst, some_bind]
  cases a with
  | some found => rfl
  | none => exact hsecond rfl

-- An array, rebuilt from its entries one by one.
theorem range_map_toArray (a : Array β) (default : β) (f : Nat → β → γ) :
    ((List.range a.size).map fun i => f i (a.getD i default)).toArray = a.mapIdx f := by
  refine Array.ext (by simp) fun i _ hi => ?_
  rw [Array.size_mapIdx] at hi
  simp [Array.getD_eq_getD_getElem?, Array.getElem?_eq_getElem hi]

-- A search over an array that knows its places is one over the indices.
theorem findSome?_zipIdx (a : Array β) (default : β) (f : β × Nat → Option γ) :
    a.toList.zipIdx.findSome? f =
      (List.range a.size).findSome? fun i => f (a.getD i default, i) := by
  have hlist : a.toList.zipIdx = (List.range a.size).map fun i => (a.getD i default, i) := by
    refine List.ext_getElem (by simp) fun i hi _ => ?_
    have hlt : i < a.size := by simpa using hi
    simp [Array.getD_eq_getD_getElem?, Array.getElem?_eq_getElem hlt]
  rw [hlist, List.findSome?_map]
  rfl

-- So is a search whose result is worked on.
theorem map_find?_zipIdx (a : Array β) (default : β) (p : β × Nat → Bool)
    (f : β × Nat → γ) :
    (a.toList.zipIdx.find? p).map f = (List.range a.size).findSome? fun i =>
      if p (a.getD i default, i) then some (f (a.getD i default, i)) else none := by
  rw [List.find?_eq_findSome?_guard, List.map_findSome?, findSome?_zipIdx a default]
  congr 1
  funext i
  rw [Function.comp_apply, Option.guard]
  split <;> rfl

end Guarded

end SimplexMethod
