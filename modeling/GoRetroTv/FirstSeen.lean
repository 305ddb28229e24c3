import Mathlib.Data.List.Induction
import Mathlib.Data.List.Nodup

/-!
# The order of first occurrences

The distinct items of a history, each at the place it was first seen, and what is kept of them
by a record of bounded capacity.
-/

namespace GoRetroTv

namespace FirstSeen

variable {α : Type} [DecidableEq α]

/-- One more item, if it is new. -/
def see (seen : List α) (a : α) : List α :=
  if a ∈ seen then seen else seen ++ [a]

def order (history : List α) : List α :=
  history.foldl see []

/-- One more item in a record that keeps at most `capacity` of them. -/
def keep (capacity : Nat) (kept : List α) (a : α) : List α :=
  if a ∈ kept ∨ capacity ≤ kept.length then kept else kept ++ [a]

variable {seen history : List α} {a b : α} {capacity : Nat}

theorem order_append_singleton : order (history ++ [a]) = see (order history) a := by
  unfold order
  rw [List.foldl_append]
  rfl

theorem mem_see : b ∈ see seen a ↔ b ∈ seen ∨ b = a := by
  unfold see
  split
  next old =>
    constructor
    · exact .inl
    · rintro (member | rfl)
      · exact member
      · exact old
  next new => simp

theorem mem_order : a ∈ order history ↔ a ∈ history := by
  induction history using List.reverseRecOn with
  | nil => rfl
  | append_singleton history b ih =>
    rw [order_append_singleton, mem_see, ih, List.mem_append, List.mem_singleton]

theorem see_nodup (distinct : seen.Nodup) : (see seen a).Nodup := by
  unfold see
  split
  · exact distinct
  next new => exact List.nodup_append.mpr ⟨distinct, List.nodup_singleton a,
      fun b member c isLast same => new (List.mem_singleton.mp isLast ▸ same ▸ member)⟩

theorem order_nodup (history : List α) : (order history).Nodup := by
  induction history using List.reverseRecOn with
  | nil => exact List.nodup_nil
  | append_singleton history b ih =>
    rw [order_append_singleton]
    exact see_nodup ih

/-- A bounded record is the start of the unbounded one. -/
theorem take_see (capacity : Nat) (seen : List α) (a : α) :
    (see seen a).take capacity = keep capacity (seen.take capacity) a := by
  unfold see keep
  rw [List.length_take]
  by_cases full : capacity ≤ seen.length
  · have filled : a ∈ seen.take capacity ∨ capacity ≤ min capacity seen.length :=
      .inr (Nat.le_min.mpr ⟨Nat.le_refl capacity, full⟩)
    rw [if_pos filled]
    split
    · rfl
    · exact List.take_append_of_le_length full
  · rw [List.take_of_length_le (show seen.length ≤ capacity by omega)]
    by_cases old : a ∈ seen
    · rw [if_pos old, if_pos (.inl old), List.take_of_length_le (by omega)]
    · have room : ¬(a ∈ seen ∨ capacity ≤ min capacity seen.length) := by
        rintro (member | filled)
        · exact old member
        · omega
      rw [if_neg old, if_neg room, List.take_of_length_le]
      rw [List.length_append, List.length_singleton]
      omega

theorem order_take_append_singleton : (order (history ++ [a])).take capacity =
    keep capacity ((order history).take capacity) a := by
  rw [order_append_singleton, take_see]

end FirstSeen

end GoRetroTv
