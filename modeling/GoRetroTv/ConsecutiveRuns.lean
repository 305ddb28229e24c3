import Mathlib.Logic.Basic
import Mathlib.Tactic.Common

/-!
# Runs of one property

How often in a row something has held so far, counted as a loop counts it: one more each time it
holds, and from zero again when it does not.
-/

namespace GoRetroTv

variable {p : Nat → Prop} [DecidablePred p]

/-- For how many of the indices just before this one the property has held without a break. -/
def runLength (p : Nat → Prop) [DecidablePred p] : Nat → Nat
  | 0 => 0
  | n + 1 => if p n then runLength p n + 1 else 0

@[simp]
theorem runLength_zero : runLength p 0 = 0 :=
  rfl

@[simp]
theorem runLength_succ_of_pos {n : Nat} (holds : p n) :
    runLength p (n + 1) = runLength p n + 1 :=
  if_pos holds

@[simp]
theorem runLength_succ_of_neg {n : Nat} (fails : ¬ p n) : runLength p (n + 1) = 0 :=
  if_neg fails

theorem runLength_le (n : Nat) : runLength p n ≤ n := by
  induction n with
  | zero => exact Nat.le_refl 0
  | succ n ih =>
    by_cases holds : p n
    · rw [runLength_succ_of_pos holds]
      exact Nat.succ_le_succ ih
    · rw [runLength_succ_of_neg holds]
      exact Nat.zero_le _

/-- A run is as long as the indices it reaches back over. -/
theorem le_runLength_iff {j n : Nat} :
    j ≤ runLength p n ↔ j ≤ n ∧ ∀ k, n ≤ k + j → k < n → p k := by
  induction n generalizing j with
  | zero =>
    simp
  | succ n ih =>
    cases j with
    | zero =>
      simp only [Nat.zero_le, Nat.add_zero, true_and, true_iff]
      intro k reached before
      omega
    | succ j =>
      by_cases holds : p n
      · rw [runLength_succ_of_pos holds, Nat.succ_le_succ_iff, ih, Nat.succ_le_succ_iff]
        refine and_congr_right fun _ =>
          ⟨fun earlier k reached before => ?_, fun all k reached before => ?_⟩
        · by_cases last : k = n
          · rwa [last]
          · exact earlier k (by omega) (by omega)
        · exact all k (by omega) (by omega)
      · rw [runLength_succ_of_neg holds]
        refine iff_of_false (Nat.not_succ_le_zero j) fun ⟨_, all⟩ => ?_
        exact holds (all n (by omega) (by omega))

end GoRetroTv
