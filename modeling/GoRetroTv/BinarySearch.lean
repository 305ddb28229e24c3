import Mathlib.Tactic.Common

/-!
# Binary search

The search of a predicate that rises once along a range: it finds the place where the
predicate begins to hold, or the end of the range.
-/

namespace GoRetroTv

namespace BinarySearch

/-- The first place of `[i, j)` where the predicate holds. -/
def search (f : Nat → Bool) (i j : Nat) : Nat :=
  if i < j then
    let h := (i + j) / 2
    if f h then search f i h else search f (h + 1) j
  else i
termination_by j - i

/-- Once the predicate holds it keeps holding, up to the end of the range. -/
def Rises (f : Nat → Bool) (n : Nat) : Prop :=
  ∀ k l, k ≤ l → l < n → f k = true → f l = true

variable {f : Nat → Bool} {n i j k : Nat}

theorem search_bounds (ordered : i ≤ j) : i ≤ search f i j ∧ search f i j ≤ j := by
  fun_induction search f i j with
  | case1 i j before h holds ih =>
    have middle : h = (i + j) / 2 := rfl
    have := ih (by omega)
    omega
  | case2 i j before h fails ih =>
    have middle : h = (i + j) / 2 := rfl
    have := ih (by omega)
    omega
  | case3 i j empty => exact ⟨Nat.le_refl i, ordered⟩

/-- Before the found place the predicate fails. -/
theorem not_of_lt_search (rises : Rises f n) (inside : j ≤ n) (from_ : i ≤ k)
    (before : k < search f i j) : f k = false := by
  fun_induction search f i j with
  | case1 i j window h holds ih =>
    have middle : h = (i + j) / 2 := rfl
    exact ih (by omega) from_ before
  | case2 i j window h fails ih =>
    have middle : h = (i + j) / 2 := rfl
    by_cases later : h + 1 ≤ k
    · exact ih inside later before
    · have notYet : ¬f k = true := fun holds =>
        fails (rises k h (by omega) (by omega) holds)
      exact Bool.not_eq_true _ ▸ notYet
  | case3 i j empty => exact absurd from_ (Nat.not_le.mpr before)

/-- From the found place on the predicate holds. -/
theorem of_search_le (rises : Rises f n) (inside : j ≤ n) (found : search f i j ≤ k)
    (before : k < j) : f k = true := by
  fun_induction search f i j with
  | case1 i j window h holds ih =>
    have middle : h = (i + j) / 2 := rfl
    by_cases earlier : k < h
    · exact ih (by omega) found earlier
    · exact rises h k (by omega) (by omega) holds
  | case2 i j window h fails ih => exact ih inside found before
  | case3 i j empty => omega

end BinarySearch

end GoRetroTv
