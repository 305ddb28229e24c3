import GoRetroTv.HardwareTimer

/-!
# The timer's cadence

A pump of the board's timer counts the deadlines since the last one.  The count and the
next deadline follow from the instant the timer was armed at and the instant it has
reached, whatever pumps lie between.
-/

namespace GoRetroTv

namespace Hwtimer

open Cpu

/-- A guest's write to the window. -/
structure Access where
  off : Word
  size : Size
  value : Word
  deriving DecidableEq

inductive Action where
  | write (access : Access)
  | pump (now : DoubleWord)

def Attached.perform (t : Attached) : Action → Attached
  | .write a => t.1.write a.off a.size a.value t.2
  | .pump now => t.1.pump now t.2

/-- A run of a new timer. -/
def run (wire : Irq.Wire) (actions : List Action) : Attached :=
  actions.foldl Attached.perform ({}, wire)

/-- The instant of the last pump, from a given one. -/
def lastPump (now : DoubleWord) : List Action → DoubleWord
  | [] => now
  | .write _ :: actions => lastPump now actions
  | .pump later :: actions => lastPump later actions

/-- The writes, each with the instant of the last pump before it. -/
def writes : DoubleWord → List Action → List (DoubleWord × Access)
  | _, [] => []
  | now, .write a :: actions => (now, a) :: writes now actions
  | _, .pump later :: actions => writes later actions

/-- The pumps do not go back, and their instants leave room for a period. -/
def Paced : DoubleWord → List Action → Prop
  | _, [] => True
  | now, .write _ :: actions => Paced now actions
  | now, .pump later :: actions =>
      now.toNat ≤ later.toNat ∧ later.toNat < 2 ^ 64 - 20000 ∧ Paced later actions

instance Paced.decidable : (now : DoubleWord) → (actions : List Action) →
    Decidable (Paced now actions)
  | _, [] => inferInstanceAs (Decidable True)
  | now, .write _ :: actions => Paced.decidable now actions
  | _, .pump later :: actions =>
      have := Paced.decidable later actions
      inferInstanceAs (Decidable (_ ∧ _ ∧ Paced later actions))

/-- A write that programs the timer. -/
def Access.arms (a : Access) : Bool :=
  (register a.off a.size).isSome && a.off != 0xe0

/-- The instant the timer is armed at. -/
def armedAt (writes : List (DoubleWord × Access)) : Option DoubleWord :=
  (writes.find? fun write => write.2.arms).map Prod.fst

/-- The timer's counts follow from its arming instant and the last pump. -/
def Timer.Kept (t : Timer) : Option DoubleWord → Prop
  | none => t.armed = false ∧ t.ticks = 0 ∧ t.next = 0
  | some armed => t.armed = true ∧ armed.toNat ≤ t.now.toNat ∧
      t.ticks.toNat = (t.now.toNat - armed.toNat) / 20000 ∧
      t.next.toNat = armed.toNat + 20000 * ((t.now.toNat - armed.toNat) / 20000 + 1)

/-- A write arms an unarmed timer and leaves the counts alone. -/
theorem write_kept {t : Timer} {armed : Option DoubleWord} (kept : t.Kept armed)
    (fits : t.now.toNat < 2 ^ 64 - 20000) (a : Access) (wire : Irq.Wire) :
    (t.write a.off a.size a.value wire).1.now = t.now ∧
      (t.write a.off a.size a.value wire).1.Kept
        (armed.or (if a.arms then some t.now else none)) := by
  unfold Timer.write Access.arms
  cases found : register a.off a.size with
  | none =>
    rw [Option.isSome_none, Bool.false_and, if_neg Bool.false_ne_true, Option.or_none]
    exact ⟨rfl, kept⟩
  | some reg =>
    dsimp only
    by_cases acknowledge : a.off = 0xe0
    · rw [if_pos acknowledge, acknowledge, bne_self_eq_false, Bool.and_false,
        if_neg Bool.false_ne_true, Option.or_none]
      exact ⟨rfl, kept⟩
    · have other : (a.off != 0xe0) = true := bne_iff_ne.mpr acknowledge
      rw [if_neg acknowledge, other, Option.isSome_some, Bool.true_and, if_pos rfl]
      cases armed with
      | some armed =>
        have running : (t.set reg a.value).armed = true := kept.1
        rw [if_pos running]
        exact ⟨rfl, kept⟩
      | none =>
        have idle : ¬(t.set reg a.value).armed = true := by
          rw [show (t.set reg a.value).armed = t.armed from rfl, kept.1]
          exact Bool.false_ne_true
        rw [if_neg idle]
        have period : periodInstructions.toNat = 20000 := rfl
        have ticks : t.ticks.toNat = (t.now.toNat - t.now.toNat) / 20000 := by
          rw [kept.2.1, Nat.sub_self, Nat.zero_div]
          rfl
        have next : (t.now + periodInstructions).toNat =
            t.now.toNat + 20000 * ((t.now.toNat - t.now.toNat) / 20000 + 1) := by
          rw [BitVec.toNat_add, period, Nat.sub_self, Nat.zero_div, Nat.mod_eq_of_lt (by omega)]
        exact ⟨rfl, rfl, Nat.le_refl _, ticks, next⟩

/-- A pump counts the deadlines that have passed, on the schedule of the arming instant. -/
theorem pump_kept {t : Timer} {armed : Option DoubleWord} (kept : t.Kept armed)
    {now : DoubleWord} (later : t.now.toNat ≤ now.toNat) (fits : now.toNat < 2 ^ 64 - 20000)
    (wire : Irq.Wire) :
    (t.pump now wire).1.now = now ∧ (t.pump now wire).1.Kept armed := by
  unfold Timer.pump
  dsimp only
  cases armed with
  | none =>
    rw [if_pos (.inl kept.1)]
    exact ⟨rfl, kept⟩
  | some armed =>
    obtain ⟨running, start, ticks, next⟩ := kept
    by_cases early : now < t.next
    · rw [if_pos (.inr early)]
      rw [BitVec.lt_def] at early
      have periods : (t.now.toNat - armed.toNat) / 20000 = (now.toNat - armed.toNat) / 20000 := by
        omega
      rw [periods] at ticks next
      exact ⟨rfl, running, Nat.le_trans start later, ticks, next⟩
    · have due : ¬(t.armed = false ∨ now < t.next) := by
        rw [running]
        exact fun either => either.elim Bool.noConfusion early
      rw [if_neg due]
      rw [BitVec.lt_def] at early
      have period : periodInstructions.toNat = 20000 := rfl
      have elapsed : ((now - t.next) / periodInstructions + 1).toNat =
          (now.toNat - t.next.toNat) / 20000 + 1 := by
        have difference : (now - t.next).toNat = now.toNat - t.next.toNat := by
          rw [BitVec.toNat_sub]
          omega
        rw [BitVec.toNat_add, BitVec.toNat_udiv, difference, period]
        exact Nat.mod_eq_of_lt (show _ + 1 < 2 ^ 64 by omega)
      have product : (((now - t.next) / periodInstructions + 1) * periodInstructions).toNat =
          ((now.toNat - t.next.toNat) / 20000 + 1) * 20000 := by
        rw [BitVec.toNat_mul, elapsed, period, Nat.mod_eq_of_lt (by omega)]
      have ticks' : (t.ticks + ((now - t.next) / periodInstructions + 1)).toNat =
          (now.toNat - armed.toNat) / 20000 := by
        rw [BitVec.toNat_add, elapsed, ticks, Nat.mod_eq_of_lt (by omega)]
        omega
      have next' : (t.next + ((now - t.next) / periodInstructions + 1) * periodInstructions).toNat =
          armed.toNat + 20000 * ((now.toNat - armed.toNat) / 20000 + 1) := by
        rw [BitVec.toNat_add, product, Nat.mod_eq_of_lt (by omega)]
        omega
      exact ⟨rfl, running, Nat.le_trans start later, ticks', next'⟩

theorem armedAt_cons (now : DoubleWord) (a : Access) (writes : List (DoubleWord × Access)) :
    armedAt ((now, a) :: writes) = (if a.arms then some now else none).or (armedAt writes) := by
  unfold armedAt
  rw [List.find?_cons]
  cases a.arms <;> rfl

/-- A run keeps the counts on schedule. -/
theorem run_kept {t : Attached} {armed : Option DoubleWord} {actions : List Action}
    (kept : t.1.Kept armed) (fits : t.1.now.toNat < 2 ^ 64 - 20000)
    (paced : Paced t.1.now actions) :
    (actions.foldl Attached.perform t).1.now = lastPump t.1.now actions ∧
      (actions.foldl Attached.perform t).1.Kept (armed.or (armedAt (writes t.1.now actions))) := by
  induction actions generalizing t armed with
  | nil =>
    rw [writes, armedAt, List.find?_nil, Option.map_none, Option.or_none]
    exact ⟨rfl, kept⟩
  | cons action actions ih =>
    cases action with
    | write a =>
      obtain ⟨now, written⟩ := write_kept kept fits a t.2
      have same : (t.perform (.write a)).1.now = t.1.now := now
      have rest := @ih (t.perform (.write a)) _ written (by rwa [same]) (by rwa [same])
      rw [same] at rest
      rw [writes, armedAt_cons, ← Option.or_assoc]
      exact rest
    | pump later =>
      obtain ⟨order, room, paced⟩ := paced
      obtain ⟨now, pumped⟩ := pump_kept kept order room t.2
      have same : (t.perform (.pump later)).1.now = later := now
      have rest := @ih (t.perform (.pump later)) _ pumped (by rwa [same]) (by rwa [same])
      rw [same] at rest
      exact rest

theorem new_kept : ({} : Timer).Kept none :=
  ⟨rfl, rfl, rfl⟩

/-- The timer is on the schedule of its arming instant. -/
theorem run_schedule (wire : Irq.Wire) {actions : List Action} (paced : Paced 0 actions) :
    (run wire actions).1.now = lastPump 0 actions ∧
      (run wire actions).1.Kept (armedAt (writes 0 actions)) := by
  have kept := @run_kept ({}, wire) none actions new_kept
    (show (0 : DoubleWord).toNat < 2 ^ 64 - 20000 by decide) paced
  rw [Option.none_or] at kept
  exact kept

/-- What is kept with an arming instant and a last pump is determined by them. -/
theorem Timer.Kept.determined {t u : Timer} {armed : Option DoubleWord} (first : t.Kept armed)
    (second : u.Kept armed) (same : t.now = u.now) : t.ticks = u.ticks ∧ t.next = u.next := by
  cases armed with
  | none => exact ⟨first.2.1.trans second.2.1.symm, first.2.2.trans second.2.2.symm⟩
  | some armed =>
    obtain ⟨-, -, ticks, next⟩ := first
    obtain ⟨-, -, ticks', next'⟩ := second
    rw [same] at ticks next
    exact ⟨BitVec.eq_of_toNat_eq (ticks.trans ticks'.symm),
      BitVec.eq_of_toNat_eq (next.trans next'.symm)⟩

/-- The next deadline is the first multiple of the period after the arming instant that lies
beyond an instant. -/
def FirstBeyond (armed now next : DoubleWord) : Prop :=
  now < next ∧ (∃ k, 0 < k ∧ next.toNat = armed.toNat + k * periodInstructions.toNat) ∧
    ∀ k, 0 < k → now.toNat < armed.toNat + k * periodInstructions.toNat →
      next.toNat ≤ armed.toNat + k * periodInstructions.toNat

theorem Timer.Kept.firstBeyond {t : Timer} {armed : DoubleWord} (kept : t.Kept (some armed)) :
    FirstBeyond armed t.now t.next := by
  obtain ⟨-, start, -, next⟩ := kept
  have period : periodInstructions.toNat = 20000 := rfl
  unfold FirstBeyond
  rw [BitVec.lt_def, period]
  refine ⟨by omega, ⟨(t.now.toNat - armed.toNat) / 20000 + 1, by omega, by omega⟩, ?_⟩
  intro k positive beyond
  omega

/-- **The cadence does not matter.**  Two runs with the same writes, the same last pump before
each of them and the same last pump end with the same count and the same next deadline, which
is the first of the arming instant's schedule beyond the last pump. -/
theorem cadence_independent (wire wire' : Irq.Wire) (first second : List Action)
    (paced : Paced 0 first) (paced' : Paced 0 second) (same : writes 0 first = writes 0 second)
    (ends : lastPump 0 first = lastPump 0 second) :
    (run wire first).1.ticks = (run wire' second).1.ticks ∧
      (run wire first).1.next = (run wire' second).1.next ∧
      ∀ armed, armedAt (writes 0 first) = some armed →
        FirstBeyond armed (lastPump 0 first) (run wire first).1.next := by
  obtain ⟨now, kept⟩ := run_schedule wire paced
  obtain ⟨now', kept'⟩ := run_schedule wire' paced'
  rw [← same] at kept'
  obtain ⟨ticks, next⟩ := kept.determined kept' (now.trans (ends.trans now'.symm))
  refine ⟨ticks, next, fun armed isArmed => ?_⟩
  rw [isArmed] at kept
  exact now ▸ kept.firstBeyond

theorem cadence_independent_two :
    let early : List Action := [.write ⟨0, .word, 1⟩, .pump 20000, .pump 45000]
    let late : List Action := [.write ⟨0, .word, 1⟩, .pump 45000]
    (run {} early).1.ticks = (run {} late).1.ticks ∧
      (run {} early).1.next = (run {} late).1.next ∧
      FirstBeyond 0 45000 (run {} early).1.next := by
  obtain ⟨ticks, next, beyond⟩ := cadence_independent {} {}
    [.write ⟨0, .word, 1⟩, .pump 20000, .pump 45000] [.write ⟨0, .word, 1⟩, .pump 45000]
    (by decide) (by decide) rfl rfl
  exact ⟨ticks, next, beyond 0 rfl⟩

end Hwtimer

end GoRetroTv
