import GoRetroTv.ConsecutiveRuns
import GoRetroTv.HostPolicies

/-!
# The host's policies over whole runs

Each policy acts on the guest once.  What the guest was like at every tick decides when.
-/

namespace GoRetroTv

open Cpu

namespace Handoff

/-- What a tick sees: whether a delay slot is pending, and the board. -/
abbrev Sight :=
  Bool × Board

/-- The policy before a tick of a run. -/
def before (sights : Nat → Sight) : Nat → Handoff
  | 0 => {}
  | n + 1 => ((before sights n).tick (sights n).1 (sights n).2).2.1

/-- What a tick of a run answers. -/
def answer (sights : Nat → Sight) (n : Nat) : Except String (Option Word) :=
  ((before sights n).tick (sights n).1 (sights n).2).1

/-- The boot loader was idle at a tick. -/
def IdleAt (sights : Nat → Sight) (n : Nat) : Prop :=
  Idle (sights n).2

instance (sights : Nat → Sight) : DecidablePred (IdleAt sights) :=
  fun n => inferInstanceAs (Decidable (Idle (sights n).2))

/-- The boot loader has been idle for 12,500 ticks, no delay slot is pending and the image in
flash is the one that the loader checks for. -/
structure Ripe (sights : Nat → Sight) (n : Nat) : Prop where
  idle : 12500 ≤ runLength (IdleAt sights) (n + 1)
  slot : (sights n).1 = false
  agrees : (sights n).2.flashU202.read 0x20000 .word = (sights n).2.flashU202.read 0x12584 .word

section Runs

variable {sights : Nat → Sight} {n : Nat}

/-- The threshold in ticks. -/
theorem threshold_iff {ticks : Nat} (fits : ticks < 2 ^ 60) :
    BitVec.ofNat 64 (16 * ticks) < idleThreshold ↔ ticks < 12500 := by
  unfold idleThreshold
  rw [BitVec.lt_def, BitVec.toNat_ofNat, Nat.mod_eq_of_lt (by omega)]
  change 16 * ticks < 200000 ↔ _
  omega

theorem spin_add (ticks : Nat) :
    BitVec.ofNat 64 (16 * ticks) + 16 = BitVec.ofNat 64 (16 * (ticks + 1)) := by
  rw [Nat.mul_add, BitVec.ofNat_add]
  rfl

theorem before_ticked (sights : Nat → Sight) (n : Nat) :
    Ticked (sights n).1 (sights n).2 (before sights n) (answer sights n)
      (before sights (n + 1)) :=
  (tick_ticked _ _ _).2

/-- The policy counts the ticks of the run that it is in, until it acts. -/
structure Counts (sights : Nat → Sight) (n : Nat) : Prop where
  spin : (before sights n).done = false →
    (before sights n).idleSpin = BitVec.ofNat 64 (16 * runLength (IdleAt sights) n)
  done : (before sights n).done = true ↔ ∃ k < n, Ripe sights k

theorem idle_pos (idle : 12500 ≤ runLength (IdleAt sights) (n + 1)) : Idle (sights n).2 := by
  by_contra busy
  rw [runLength_succ_of_neg (show ¬ IdleAt sights n from busy)] at idle
  exact absurd idle (by decide)

/-- What a tick of a run does. -/
theorem tick_cases (counts : Counts sights n) (fits : n + 1 < 2 ^ 60) :
    ((∃ k < n, Ripe sights k) ∧ answer sights n = .ok none ∧
      before sights (n + 1) = before sights n) ∨
    (¬ (∃ k < n, Ripe sights k) ∧ Ripe sights n ∧
      answer sights n = .ok (some (entryOf ((sights n).2.flashU202.read 0x2002c .word))) ∧
      (before sights (n + 1)).done = true) ∨
    (¬ (∃ k < n, Ripe sights k) ∧ ¬ Ripe sights n ∧
      (∀ entry, answer sights n ≠ .ok (some entry)) ∧
      before sights (n + 1) =
        { idleSpin := BitVec.ofNat 64 (16 * runLength (IdleAt sights) (n + 1)), done := false }) := by
  have ticked := before_ticked sights n
  have short : runLength (IdleAt sights) n + 1 < 2 ^ 60 := by
    have le := runLength_le (p := IdleAt sights) n
    omega
  have open_ (undone : (before sights n).done = false) : ¬ ∃ k < n, Ripe sights k := fun earlier => by
    rw [counts.done.mpr earlier] at undone
    cases undone
  have spun (undone : (before sights n).done = false) (idle : Idle (sights n).2) :
      (before sights n).idleSpin + 16 =
        BitVec.ofNat 64 (16 * runLength (IdleAt sights) (n + 1)) := by
    rw [counts.spin undone, spin_add, runLength_succ_of_pos (show IdleAt sights n from idle)]
  have reached (undone : (before sights n).done = false) (idle : Idle (sights n).2) :
      ¬ (before sights n).idleSpin + 16 < idleThreshold ↔
        12500 ≤ runLength (IdleAt sights) (n + 1) := by
    rw [runLength_succ_of_pos (show IdleAt sights n from idle), counts.spin undone, spin_add,
      threshold_iff short, Nat.not_lt]
  generalize answer sights n = answered at ticked ⊢
  generalize before sights (n + 1) = after at ticked ⊢
  cases ticked with
  | finished done => exact .inl ⟨counts.done.mp done, rfl, rfl⟩
  | busy undone busy =>
    have zero : runLength (IdleAt sights) (n + 1) = 0 := runLength_succ_of_neg busy
    refine .inr (.inr ⟨open_ undone, fun ripe => busy (idle_pos ripe.idle), ?_, ?_⟩)
    · exact fun entry same => (by cases same)
    · rw [zero, undone]
      rfl
  | waits undone idle early =>
    refine .inr (.inr ⟨open_ undone, fun ripe => ?_, ?_, ?_⟩)
    · rcases early with early | slot
      · exact (reached undone idle).mpr ripe.idle early
      · cases slot.symm.trans ripe.slot
    · exact fun entry same => (by cases same)
    · rw [spun undone idle, undone]
  | refuses error undone idle long noSlot differs =>
    refine .inr (.inr ⟨open_ undone, fun ripe => differs ripe.agrees, ?_, ?_⟩)
    · exact fun entry same => (by cases same)
    · rw [spun undone idle, undone]
  | hands undone idle long noSlot agrees =>
    exact .inr (.inl ⟨open_ undone, ⟨(reached undone idle).mp long, noSlot, agrees⟩, rfl, rfl⟩)

theorem counts_succ (counts : Counts sights n) (fits : n + 1 < 2 ^ 60) :
    Counts sights (n + 1) := by
  have later : (∃ k < n + 1, Ripe sights k) ↔ (∃ k < n, Ripe sights k) ∨ Ripe sights n := by
    constructor
    · rintro ⟨k, before, ripe⟩
      rcases Nat.lt_succ_iff_lt_or_eq.mp before with earlier | rfl
      · exact .inl ⟨k, earlier, ripe⟩
      · exact .inr ripe
    · rintro (⟨k, earlier, ripe⟩ | ripe)
      · exact ⟨k, Nat.lt_succ_of_lt earlier, ripe⟩
      · exact ⟨n, Nat.lt_succ_self n, ripe⟩
  rcases tick_cases counts fits with
    ⟨earlier, -, same⟩ | ⟨-, ripe, -, done⟩ | ⟨open_, unripe, -, counted⟩
  · have done := counts.done.mpr earlier
    refine ⟨fun undone => ?_, ?_⟩
    · rw [same, done] at undone
      cases undone
    · rw [same, later]
      exact iff_of_true done (.inl earlier)
  · refine ⟨fun undone => ?_, ?_⟩
    · rw [done] at undone
      cases undone
    · rw [later]
      exact iff_of_true done (.inr ripe)
  · constructor
    · intro _
      rw [counted]
    · rw [counted, later]
      exact iff_of_false Bool.false_ne_true (not_or.mpr ⟨open_, unripe⟩)

/-- **Every run of ticks** is counted. -/
theorem counts_run (fits : n < 2 ^ 60) : Counts sights n := by
  induction n with
  | zero =>
    refine ⟨fun _ => rfl, ?_⟩
    exact iff_of_false Bool.false_ne_true fun ⟨k, before, _⟩ => Nat.not_lt_zero k before
  | succ n ih => exact counts_succ (ih (by omega)) fits

/-- **The handoff.**  In a run of ticks from a reset the core is moved at the first tick, if any,
at which the boot loader has been idle for 12,500 ticks without a break, no delay slot is pending
and the image agrees with the loader; and at no other. -/
theorem hands_over_once (fits : n + 1 < 2 ^ 60) (entry : Word) :
    answer sights n = .ok (some entry) ↔
      (∀ k < n, ¬ Ripe sights k) ∧
        (12500 ≤ n + 1 ∧ ∀ k, n < k + 12500 → k ≤ n → Idle (sights k).2) ∧
        (sights n).1 = false ∧
        (sights n).2.flashU202.read 0x20000 .word = (sights n).2.flashU202.read 0x12584 .word ∧
        entry = entryOf ((sights n).2.flashU202.read 0x2002c .word) := by
  have earlier : (∀ k < n, ¬ Ripe sights k) ↔ ¬ ∃ k < n, Ripe sights k := by
    simp only [not_exists, not_and]
  have idle : (12500 ≤ n + 1 ∧ ∀ k, n < k + 12500 → k ≤ n → Idle (sights k).2) ↔
      12500 ≤ runLength (IdleAt sights) (n + 1) := by
    rw [le_runLength_iff]
    refine and_congr_right fun _ => ⟨fun all k reached before => ?_, fun all k reached before => ?_⟩
    · exact all k (by omega) (by omega)
    · exact all k (by omega) (by omega)
  rw [earlier, idle]
  rcases tick_cases (counts_run (by omega)) fits with
    ⟨some_, none_, -⟩ | ⟨open_, ripe, answered, -⟩ | ⟨-, unripe, other, -⟩
  · rw [none_]
    exact iff_of_false (fun same => by cases same) fun ⟨open_, _⟩ => open_ some_
  · rw [answered]
    constructor
    · intro same
      cases same
      exact ⟨open_, ripe.idle, ripe.slot, ripe.agrees, rfl⟩
    · rintro ⟨-, -, -, -, rfl⟩
      rfl
  · refine iff_of_false (other entry) fun ⟨_, idle, slot, agrees, _⟩ => unripe ⟨idle, slot, agrees⟩

/-- A board with erased firmware whose boot loader idles. -/
def idling : Board where
  ram := Memory.Ram.write 0x83cc .word 0x100 {}
  i2c := { store := some {}, demod := some {} }
  flashU203 := { name := Region.flashU203.name, bytes := Board.erased }
  flashU202 := { name := Region.flashU202.name, bytes := Board.erased }

theorem idling_idle : Idle idling := by
  decide

theorem idling_hands_over :
    answer (fun _ => (false, idling)) 12499 = .ok (some entryStub) := by
  have erased (off : Word) (inside : off.toNat + 4 ≤ Board.flashSize) :
      idling.flashU202.read off .word = 0xffffffff := by
    have byte (i : Nat) (small : i < 4) :
        Board.erased.getD (off + BitVec.ofNat 32 i).toNat 0 = 0xff := by
      have size : Board.flashSize = 0x200000 := rfl
      have place : (off + BitVec.ofNat 32 i).toNat < Board.flashSize := by
        rw [BitVec.toNat_add, BitVec.toNat_ofNat]
        omega
      rw [List.getD_eq_getElem?_getD, Board.erased, List.getElem?_replicate, if_pos place]
      rfl
    change idling.flashU202.peek off .word = _
    change (((((0 <<< 8 ||| (Board.erased.getD _ 0).setWidth 32) <<< 8 |||
      (Board.erased.getD _ 0).setWidth 32) <<< 8 ||| (Board.erased.getD _ 0).setWidth 32) <<< 8 |||
      (Board.erased.getD _ 0).setWidth 32) : Word) = _
    rw [byte 0 (by decide), byte 1 (by decide), byte 2 (by decide), byte 3 (by decide)]
    decide
  refine (hands_over_once (by decide) entryStub).mpr ⟨fun k early ripe => ?_, ⟨?_, ?_⟩, rfl, ?_, ?_⟩
  · have long := ripe.idle.trans (runLength_le _)
    omega
  · exact Nat.le_refl 12500
  · exact fun _ _ _ => idling_idle
  · rw [erased _ (by decide), erased _ (by decide)]
  · rw [erased _ (by decide)]
    decide

end Runs

end Handoff

namespace SkyGates

/-- What a tick finds: the instructions retired, whether the core was handed over, and the
board. -/
structure Visit where
  icount : DoubleWord
  handoffDone : Bool
  board : Board

section Runs

variable (persist : I2c.Persist) (g : SkyGates) (visits : Nat → Visit)

/-- A tick of a run, by the gates before it. -/
def visited (g : SkyGates) (v : Visit) : Except String Bool × SkyGates × Board :=
  g.tick persist v.icount v.handoffDone v.board

/-- The gates before a tick of a run. -/
def before : Nat → SkyGates
  | 0 => g
  | n + 1 => (visited persist (before n) (visits n)).2.1

/-- What a tick of a run answers. -/
def answer (n : Nat) : Except String Bool :=
  (visited persist (before persist g visits n) (visits n)).1

/-- The board that a tick of a run leaves. -/
def after (n : Nat) : Board :=
  (visited persist (before persist g visits n) (visits n)).2.2

/-- A tick of a run that looks at the guest. -/
def Checked (n : Nat) : Prop :=
  (before persist g visits n).Due (visits n).icount (visits n).handoffDone

variable {persist g visits} {n k : Nat}

/-- What a tick of a run does. -/
theorem visit_cases (persist : I2c.Persist) (g : SkyGates) (visits : Nat → Visit) (n : Nat) :
    (¬ Checked persist g visits n ∧ answer persist g visits n = .ok false ∧
      after persist g visits n = (visits n).board ∧
      before persist g visits (n + 1) = before persist g visits n) ∨
    (Checked persist g visits n ∧
      (before persist g visits (n + 1)).next = (visits n).icount + checkInterval ∧
      ((¬ Closed (visits n).board ∧ answer persist g visits n ≠ .ok true ∧
          after persist g visits n = (visits n).board) ∨
        (Closed (visits n).board ∧ answer persist g visits n = .ok true ∧
          after persist g visits n = answered (visits n).board ∧
          (before persist g visits (n + 1)).done = true))) := by
  have ticked : Ticked (visits n).icount (visits n).handoffDone (visits n).board
      (before persist g visits n) (answer persist g visits n)
      (before persist g visits (n + 1)) (after persist g visits n) :=
    tick_ticked persist _ _ _ _
  unfold Checked
  generalize answer persist g visits n = answered_ at ticked ⊢
  generalize before persist g visits (n + 1) = later at ticked ⊢
  generalize after persist g visits n = board at ticked ⊢
  cases ticked with
  | off early => exact .inl ⟨early, rfl, rfl, rfl⟩
  | fails due error unanswered =>
    exact .inr ⟨due, rfl, .inl ⟨unanswered, fun same => (by cases same), rfl⟩⟩
  | waits due unanswered =>
    exact .inr ⟨due, rfl, .inl ⟨unanswered, fun same => (by cases same), rfl⟩⟩
  | answers due closed => exact .inr ⟨due, rfl, .inr ⟨closed, rfl, rfl, rfl⟩⟩

/-- Where no count is near its end the interval does not wrap. -/
theorem interval_toNat {icount : DoubleWord} (fits : icount.toNat + 4000000 < 2 ^ 64) :
    (icount + checkInterval).toNat = icount.toNat + 4000000 := by
  have interval : checkInterval.toNat = 4000000 := rfl
  rw [BitVec.toNat_add, interval, Nat.mod_eq_of_lt fits]

/-- The next check only moves on. -/
theorem next_mono (fits : ∀ n, (visits n).icount.toNat + 4000000 < 2 ^ 64) :
    (before persist g visits n).next.toNat ≤ (before persist g visits (n + 1)).next.toNat := by
  rcases visit_cases persist g visits n with ⟨-, -, -, same⟩ | ⟨checked, next, -⟩
  · rw [same]
  · have late : (before persist g visits n).next.toNat ≤ (visits n).icount.toNat :=
      BitVec.le_def.mp checked.late
    rw [next, interval_toNat (fits n)]
    omega

/-- Gates that are answered stay answered. -/
theorem done_mono (done : (before persist g visits n).done = true) :
    (before persist g visits (n + 1)).done = true := by
  rcases visit_cases persist g visits n with ⟨-, -, -, same⟩ | ⟨checked, -⟩
  · rw [same]
    exact done
  · cases checked.undone.symm.trans done

/-- After a check nothing is looked at for an interval, nor ever if the gates were answered. -/
theorem checked_later (fits : ∀ n, (visits n).icount.toNat + 4000000 < 2 ^ 64) (order : k < n)
    (checked : Checked persist g visits k) :
    (visits k).icount.toNat + 4000000 ≤ (before persist g visits n).next.toNat ∧
      (answer persist g visits k = .ok true → (before persist g visits n).done = true) := by
  induction n, order using Nat.le_induction with
  | base =>
    rcases visit_cases persist g visits k with ⟨unchecked, -⟩ | ⟨-, next, ends⟩
    · exact absurd checked unchecked
    · refine ⟨?_, fun answered => ?_⟩
      · rw [next, interval_toNat (fits k)]
      · rcases ends with ⟨-, other, -⟩ | ⟨-, -, -, done⟩
        · exact absurd answered other
        · exact done
  | succ n _ ih => exact ⟨ih.1.trans (next_mono fits), fun answered => done_mono (ih.2 answered)⟩

/-- **The gates.**  In a run of ticks they are answered at the first check, if any, that finds the
application with its tasks and both gates closed; no other tick touches the board, no check comes
within four million instructions of another, and none after the answer. -/
theorem gates_answered_once (fits : ∀ n, (visits n).icount.toNat + 4000000 < 2 ^ 64) (n : Nat) :
    (answer persist g visits n = .ok true ↔
      Checked persist g visits n ∧ Closed (visits n).board) ∧
    (answer persist g visits n = .ok true →
      after persist g visits n = answered (visits n).board) ∧
    (answer persist g visits n ≠ .ok true → after persist g visits n = (visits n).board) ∧
    (∀ k < n, Checked persist g visits k → Checked persist g visits n →
      answer persist g visits k ≠ .ok true ∧
        (visits k).icount.toNat + 4000000 ≤ (visits n).icount.toNat) := by
  have apart (k : Nat) (order : k < n) (first : Checked persist g visits k)
      (second : Checked persist g visits n) : answer persist g visits k ≠ .ok true ∧
        (visits k).icount.toNat + 4000000 ≤ (visits n).icount.toNat := by
    obtain ⟨next, done⟩ := checked_later fits order first
    refine ⟨fun answered => ?_, next.trans (BitVec.le_def.mp second.late)⟩
    cases second.undone.symm.trans (done answered)
  rcases visit_cases persist g visits n with
    ⟨unchecked, none_, same, -⟩ | ⟨checked, -, ⟨open_, other, same⟩ | ⟨closed, some_, left, -⟩⟩
  · rw [none_]
    refine ⟨iff_of_false (fun same => by cases same) fun both => unchecked both.1,
      fun same => (by cases same), fun _ => same, apart⟩
  · exact ⟨iff_of_false other fun both => open_ both.2, fun same => absurd same other,
      fun _ => same, apart⟩
  · exact ⟨iff_of_true some_ ⟨checked, closed⟩, fun _ => left, fun other => absurd some_ other,
      apart⟩

/-- A board with both gates closed. -/
def ringBoard : Board where
  ram := Nucleus.ring
  i2c := { store := some {}, demod := some {} }
  flashU203 := { name := Region.flashU203.name, bytes := Board.erased }
  flashU202 := {
    name := Region.flashU202.name
    bytes := List.replicate Board.flashSize 0x75 }

theorem ringBoard_closed : Closed ringBoard where
  tasks := Nucleus.ring_tasks
  gate := by decide +kernel
  image := List.getElem?_replicate.trans (if_pos (by decide))

/-- The core is handed over behind the first tick; the second answers the gates and the third
looks at nothing. -/
theorem ringBoard_answered :
    let visits : Nat → Visit := fun n => ⟨5, decide (0 < n), ringBoard⟩
    let disk : I2c.Persist := fun _ _ => none
    after disk { enabled := true } visits 0 = ringBoard ∧
      answer disk { enabled := true } visits 1 = .ok true ∧
      after disk { enabled := true } visits 1 = answered ringBoard ∧
      ¬ Checked disk { enabled := true } visits 2 := by
  intro visits disk
  have fits (n : Nat) : (visits n).icount.toNat + 4000000 < 2 ^ 64 :=
    show (5 : DoubleWord).toNat + 4000000 < 2 ^ 64 by decide
  have early : ¬ Checked disk { enabled := true } visits 0 := fun checked =>
    Bool.false_ne_true checked.handedOver
  have open_ : before disk { enabled := true } visits 1 = { enabled := true } := by
    rcases visit_cases disk { enabled := true } visits 0 with ⟨-, -, -, same⟩ | ⟨checked, -⟩
    · exact same
    · exact absurd checked early
  have checked : Checked disk { enabled := true } visits 1 := by
    unfold Checked
    rw [open_]
    exact ⟨rfl, rfl, rfl, by decide⟩
  obtain ⟨answers, left, -⟩ := @gates_answered_once disk { enabled := true } visits fits 1
  have answered_ := answers.mpr ⟨checked, ringBoard_closed⟩
  obtain ⟨answers', -, same, -⟩ := @gates_answered_once disk { enabled := true } visits fits 0
  obtain ⟨-, -, -, apart⟩ := @gates_answered_once disk { enabled := true } visits fits 2
  exact ⟨same fun ok => early (answers'.mp ok).1, answered_, left answered_,
    fun later => (apart 1 (by decide) checked later).1 answered_⟩

end Runs

end SkyGates

end GoRetroTv
