import Mathlib.Data.List.Basic

/-!
# A buffer that keeps the beginning of a stream

A buffer of a fixed capacity takes items until it is full and drops those that
come after.  What it holds is the beginning of everything pushed.
-/

namespace GoRetroTv

namespace CappedBuffers

variable {α : Type*}

/-- One more item, if there is room for it. -/
def push (capacity : Nat) (buffer : List α) (item : α) : List α :=
  if buffer.length < capacity then buffer ++ [item] else buffer

/-- The next item behind a stream of which the buffer is the beginning. -/
theorem push_take (capacity : Nat) (stream : List α) (item : α) :
    push capacity (stream.take capacity) item = (stream ++ [item]).take capacity := by
  unfold push
  rw [List.length_take]
  split
  · next short =>
    have whole : stream.length < capacity := by omega
    rw [List.take_of_length_le (Nat.le_of_lt whole),
      List.take_of_length_le (by rw [List.length_append, List.length_singleton]; omega)]
  · next full =>
    rw [List.take_append_of_le_length (by omega)]

/-- A full buffer does not change. -/
theorem take_snoc_of_full {capacity : Nat} {stream : List α} (full : capacity ≤ stream.length)
    (item : α) : (stream ++ [item]).take capacity = stream.take capacity :=
  List.take_append_of_le_length full

end CappedBuffers

end GoRetroTv
