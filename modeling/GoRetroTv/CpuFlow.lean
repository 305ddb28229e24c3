import GoRetroTv.CpuStep

/-!
# Where an executed instruction goes

Every instruction of both sets keeps the frame, and the transfer it asks for
lands where its instruction set can execute.  The one exception is a transfer
through a register, whose low bits the program chose: `jumpValue` is the value
it goes to.
-/

namespace GoRetroTv

namespace Cpu

/-- An address an instruction set can execute at. -/
structure Aligned (pc : Word) (isa : Bool) : Prop where
  half : pc &&& 1 = 0
  word : isa = false → pc &&& 3 = 0

theorem and_three_eq_zero_iff (v : Word) :
    v &&& 3 = 0 ↔ v.setWidth 2 = 0 := by
  rw [← BitVec.toNat_inj, ← BitVec.toNat_inj]
  simp only [BitVec.toNat_and, BitVec.toNat_setWidth]
  exact Eq.congr (Nat.and_two_pow_sub_one_eq_mod v.toNat 2) rfl

theorem and_one_eq_zero_iff (v : Word) :
    v &&& 1 = 0 ↔ v.setWidth 1 = 0 := by
  rw [← BitVec.toNat_inj, ← BitVec.toNat_inj]
  simp only [BitVec.toNat_and, BitVec.toNat_setWidth]
  exact Eq.congr (Nat.and_two_pow_sub_one_eq_mod v.toNat 1) rfl

/-- An address aligned to words is aligned to halfwords. -/
theorem and_one_eq_zero_of_and_three {v : Word} (aligned : v &&& 3 = 0) :
    v &&& 1 = 0 := by
  have : v &&& 1 = (v &&& 3) &&& 1 := by
    rw [BitVec.and_assoc]
    rfl
  rw [this, aligned]
  rfl

theorem Aligned.of_word {v : Word} (aligned : v &&& 3 = 0) (isa : Bool) : Aligned v isa :=
  ⟨and_one_eq_zero_of_and_three aligned, fun _ => aligned⟩

theorem Aligned.of_half {v : Word} (aligned : v &&& 1 = 0) : Aligned v true :=
  ⟨aligned, fun isFalse => by cases isFalse⟩

theorem and_three_add {v offset : Word} (aligned : v &&& 3 = 0) (offsetAligned : offset &&& 3 = 0) :
    v + offset &&& 3 = 0 := by
  rw [and_three_eq_zero_iff] at aligned offsetAligned ⊢
  rw [BitVec.setWidth_add _ _ (by decide), aligned, offsetAligned]
  rfl

theorem and_one_add {v offset : Word} (aligned : v &&& 1 = 0) (offsetAligned : offset &&& 1 = 0) :
    v + offset &&& 1 = 0 := by
  rw [and_one_eq_zero_iff] at aligned offsetAligned ⊢
  rw [BitVec.setWidth_add _ _ (by decide), aligned, offsetAligned]
  rfl

theorem shiftLeft_two_and_three (v : Word) : v <<< 2 &&& 3 = 0 := by
  rw [and_three_eq_zero_iff]
  ext i bound
  simp

theorem shiftLeft_one_and_one (v : Word) : v <<< 1 &&& 1 = 0 := by
  rw [and_one_eq_zero_iff]
  ext i bound
  simp

/-- The target of an absolute jump: a segment and a word index. -/
theorem jump_target_and_three (pc index : Word) :
    jumpTarget pc index &&& 3 = 0 := by
  have segment : (pc &&& 0xf0000000) &&& 3 = 0 := by
    rw [BitVec.and_assoc]
    exact BitVec.and_zero
  rw [jumpTarget, BitVec.and_or_distrib_right, segment, shiftLeft_two_and_three]
  rfl

/-- A register's value lands where its low bit says unless its low bits are
binary ten. -/
theorem aligned_of_value {v : Word} (lands : v &&& 3 ≠ 2) :
    Aligned (v &&& ~~~1) (v &&& 1 != 0) := by
  refine ⟨?_, fun isFalse => ?_⟩
  · rw [BitVec.and_assoc]
    exact BitVec.and_zero
  · have even : v &&& 1 = 0 := by simpa using isFalse
    have cleared : v &&& ~~~1 &&& 3 = v &&& 3 &&& 2 := by
      rw [BitVec.and_assoc, BitVec.and_assoc]
      rfl
    have kept : v &&& 3 &&& 1 = 0 := by
      rw [BitVec.and_assoc]
      exact even
    have small : (v &&& 3).toNat ≤ 3 := by
      rw [BitVec.toNat_and]
      exact Nat.and_le_right
    rw [cleared]
    generalize v &&& 3 = low at lands kept small
    have cases : low = 0 ∨ low = 1 ∨ low = 2 ∨ low = 3 := by
      rcases Nat.lt_or_ge low.toNat 2 with below | above <;> bv_omega
    rcases cases with rfl | rfl | rfl | rfl
    · rfl
    · exact absurd kept (by decide)
    · exact absurd rfl lands
    · exact absurd kept (by decide)

/-- A transfer of control that both instruction sets can carry out. -/
structure Branch.Lands (effect : Branch) : Prop where
  exclusive : effect.armed = true → effect.immediate = false
  aligned : effect.armed = true ∨ effect.immediate = true → Aligned effect.target effect.isa

theorem lands_none (target : Word) : Branch.Lands { target } where
  exclusive _ := rfl
  aligned moves := by simp at moves

theorem lands_taken {target : Word} {isa : Bool} (aligned : Aligned target isa) :
    (taken target isa).Lands :=
  ⟨fun _ => rfl, fun _ => aligned⟩

theorem lands_immediate {target : Word} {isa : Bool} (aligned : Aligned target isa) :
    Branch.Lands { target, isa, immediate := true } where
  exclusive isArmed := by simp at isArmed
  aligned _ := aligned

theorem lands_jumpTo {v : Word} (lands : v &&& 3 ≠ 2) : (jumpTo v).Lands :=
  lands_taken (aligned_of_value lands)

/-- An instruction run on `c` kept the frame, and what it yields is good. -/
structure Yields {α β : Type} (good : α → Prop) (c : Core β)
    (result : Core β × Except String α) : Prop where
  frame : Core.Frame c result.1
  good : ∀ effect, result.2 = .ok effect → good effect

open Mips32

namespace Core

variable {β : Type}

/-- The value a 32-bit instruction takes its target and instruction set from. -/
def jumpValue32 (w : Word) (c : Core β) : Option Word :=
  if op w = 0 ∧ fn w = 8 then some (c.gpr (rs w))
  else if op w = 0 ∧ fn w = 9 then some ((c.set (rd w) (c.pc + 4 + 4)).gpr (rs w))
  else if w = 0x42000018 then
    some (if c.cop0 12 &&& 4 != 0 then c.cop0 30 else c.cop0 14)
  else none

/-- The instruction keeps the frame, and lands if its jump is allowed to. -/
abbrev Executes32 (allowed : Prop) (c : Core β) (result : Executed β) : Prop :=
  Yields (fun effect => allowed → effect.Lands) c result

namespace Executes32

variable {allowed : Prop} {c c' : Core β}

theorem transfer (frame : Frame c c') {effect : Branch} (lands : allowed → effect.Lands) :
    Executes32 allowed c (c'.transfer effect) where
  frame := frame
  good effect isEffect := by
    rw [Core.transfer, Except.ok.injEq] at isEffect
    exact isEffect ▸ lands

theorem retire (frame : Frame c c') : Executes32 allowed c c'.retire :=
  transfer frame fun _ => lands_none 0

theorem refuse (frame : Frame c c') (error : String) : Executes32 allowed c (c'.refuse error) where
  frame := frame
  good effect isEffect := by cases isEffect

theorem branchTo (frame : Frame c c') (aligned : c.pc &&& 3 = 0) (w : Word) (ok : Bool) :
    Executes32 allowed c (c'.branchTo w ok) := by
  unfold Core.branchTo
  split
  · apply transfer frame
    intro _
    apply lands_taken
    apply Aligned.of_word
    rw [frame.pc]
    exact and_three_add (and_three_add aligned rfl) (shiftLeft_two_and_three _)
  · exact retire frame

theorem branchLikelyTo (frame : Frame c c') (aligned : c.pc &&& 3 = 0) (w : Word) (ok : Bool) :
    Executes32 allowed c (c'.branchLikelyTo w ok) := by
  unfold Core.branchLikelyTo
  split
  · exact branchTo frame aligned w true
  · exact transfer frame fun _ => lands_none _

end Executes32

variable {c : Core β} {w : Word}

/-- The program's own jump lands. -/
def JumpLands32 (w : Word) (c : Core β) : Prop :=
  ∀ v, c.jumpValue32 w = some v → v &&& 3 ≠ 2

theorem special_executes (isSpecial : op w = 0) :
    Executes32 (c.JumpLands32 w) c (c.special w) := by
  have same := Frame.refl c
  unfold special
  dsimp only
  split
  case h_7 isJr =>
    apply Executes32.transfer same
    intro jumps
    apply lands_jumpTo
    apply jumps
    simp [jumpValue32, isSpecial, isJr]
  case h_8 isJalr =>
    apply Executes32.transfer (same.set _ _)
    intro jumps
    apply lands_jumpTo
    apply jumps
    simp [jumpValue32, isSpecial, isJalr]
  case h_16 | h_17 =>
    split
    · exact .retire (same.setHiLo _ _)
    · exact .retire same
  all_goals first
    | exact .retire (same.set _ _)
    | exact .retire (same.setHiLo _ _)
    | exact .retire same
    | exact .refuse same _

theorem regimm_executes (aligned : c.pc &&& 3 = 0) :
    Executes32 (c.JumpLands32 w) c (c.regimm w) := by
  have same := Frame.refl c
  have linked := same.set 31 (c.pc + 4 + 4)
  unfold regimm
  dsimp only
  split
  all_goals first
    | exact .branchTo same aligned w _
    | exact .branchTo linked aligned w _
    | exact .branchLikelyTo same aligned w _
    | exact .branchLikelyTo linked aligned w _
    | exact .refuse same _

theorem coprocessor0_executes : Executes32 (c.JumpLands32 w) c (c.coprocessor0 w) := by
  have same := Frame.refl c
  unfold coprocessor0
  dsimp only
  split
  · exact .retire (same.set _ _)
  · split
    · have moved := same.setCop0 (rd w) (c.gpr (rt w))
      exact .retire ⟨moved.pc, moved.isa, moved.delayed, moved.zero, moved.lines⟩
    · exact .retire (same.setCop0 _ _)
  · split
    · exact .refuse same _
    next isEret =>
      -- ERET goes where the exception level it leaves had come from.
      have isEret : w = 0x42000018 := by simpa using isEret
      subst isEret
      split
      next errorLevel =>
        apply Executes32.transfer (same.setCop0 _ _)
        intro jumps
        apply lands_immediate
        apply aligned_of_value
        apply jumps
        simp only [jumpValue32]
        rw [if_neg (by decide), if_neg (by decide), if_pos trivial, if_pos errorLevel]
      next errorLevel =>
        apply Executes32.transfer (same.setCop0 _ _)
        intro jumps
        apply lands_immediate
        apply aligned_of_value
        apply jumps
        simp only [jumpValue32]
        rw [if_neg (by decide), if_neg (by decide), if_pos trivial, if_neg errorLevel]
  · exact .refuse same _

theorem memory_executes (ops : BusOps β) : Executes32 (c.JumpLands32 w) c (c.memory ops w) := by
  have same := Frame.refl c
  have loaded (size : Size) := same.load ops (c.gpr (rs w) + simm w) size
  have stored (size : Size) := same.store ops (c.gpr (rs w) + simm w) size (c.gpr (rt w))
  unfold memory
  dsimp only
  split
  case h_9 =>
    have kept := (loaded .word).set (rt w) (c.load ops (c.gpr (rs w) + simm w) .word).1
    exact .retire ⟨kept.pc, kept.isa, kept.delayed, kept.zero, kept.lines⟩
  case h_10 =>
    split
    · exact .retire ((stored .word).set _ _).dropReservation
    · exact .retire (same.set _ _).dropReservation
  all_goals first
    | exact .retire ((loaded _).set _ _)
    | exact .retire (stored _).dropReservation
    | exact .retire same

theorem unaligned_frame (ops : BusOps β) (opcode : Nat) (register : Register) (ea : Word) :
    Frame c (c.unaligned ops opcode register ea) := by
  have loaded := (Frame.refl c).load ops (ea &&& ~~~3) .word
  unfold unaligned
  dsimp only
  split
  · exact loaded.set _ _
  · exact loaded.set _ _
  · exact (loaded.store ops _ _ _).dropReservation
  · exact (loaded.store ops _ _ _).dropReservation
  · exact loaded

/-- Every 32-bit instruction keeps the frame and lands. -/
theorem execute32_executes (ops : BusOps β) (aligned : c.pc &&& 3 = 0) :
    Executes32 (c.JumpLands32 w) c (c.execute32 ops w) := by
  have same := Frame.refl c
  have linked := same.set 31 (c.pc + 4 + 4)
  have jump := jump_target_and_three (c.pc + 4) (w &&& 0x03ffffff)
  unfold execute32
  dsimp only
  split
  case h_1 isSpecial => exact special_executes isSpecial
  case h_2 => exact regimm_executes aligned
  case h_3 => exact .transfer same fun _ => lands_taken (.of_word jump false)
  case h_4 => exact .transfer linked fun _ => lands_taken (.of_word jump false)
  case h_5 => exact .transfer linked fun _ => lands_taken (.of_word jump true)
  all_goals first
    | exact .branchTo same aligned w _
    | exact .branchLikelyTo same aligned w _
    | exact .retire (same.set _ _)
    | exact coprocessor0_executes
    | exact memory_executes ops
    | exact .retire (unaligned_frame ops _ _ _)
    | exact .retire same
    | exact .refuse same _

/-- The value a 16-bit instruction takes its target and instruction set from. -/
def jumpValue16 (f : Fetched16) (c : Core β) : Option Word :=
  if f.op = 0x1d ∧ f.extended = false ∧ (f.h &&& 31).toNat = 0 ∧ f.ry ≠ 3 ∧ f.ry ≠ 7 ∧
      ((f.ry = 1 ∨ f.ry = 5) → f.rx = 0) then
    some (c.gpr (jumpSource f))
  else none

def JumpLands16 (f : Fetched16) (c : Core β) : Prop :=
  ∀ v, c.jumpValue16 f = some v → v &&& 3 ≠ 2

/-- What a 16-bit instruction reports: a transfer that lands and an even
length. -/
structure Lands16 (allowed : Prop) (effect : Branch × Word) : Prop where
  lands : allowed → effect.1.Lands
  length : effect.2 &&& 1 = 0

abbrev Executes16 (allowed : Prop) (c : Core β) (result : Executed16 β) : Prop :=
  Yields (Lands16 allowed) c result

end Core

theorem Fetched16.length_and_one (f : Fetched16) : f.length &&& 1 = 0 := by
  unfold Fetched16.length
  split <;> rfl

theorem Fetched16.next_and_one {f : Fetched16} (aligned : f.pc &&& 1 = 0) : f.next &&& 1 = 0 :=
  and_one_add aligned f.length_and_one

namespace Core

variable {β : Type}

namespace Executes16

variable {allowed : Prop} {c c' : Core β} {f : Fetched16}

theorem transfer (frame : Frame c c') {effect : Branch} (lands : allowed → effect.Lands) :
    Executes16 allowed c (c'.transfer16 f effect) where
  frame := frame
  good effect isEffect := by
    rw [Core.transfer16, Except.ok.injEq] at isEffect
    exact isEffect ▸ ⟨lands, f.length_and_one⟩

theorem retire (frame : Frame c c') : Executes16 allowed c (c'.retire16 f) :=
  transfer frame fun _ => lands_none 0

theorem refuse (frame : Frame c c') (reason : String) :
    Executes16 allowed c (c'.refuse16 f reason) where
  frame := frame
  good effect isEffect := by cases isEffect

theorem instantIf (frame : Frame c c') (aligned : f.pc &&& 1 = 0) (ok : Bool) {offset : Word}
    (even : offset &&& 1 = 0) :
    Executes16 allowed c (c'.instantIf f ok offset) := by
  unfold Core.instantIf
  split
  · apply transfer frame
    intro _
    apply lands_immediate
    apply Aligned.of_half
    exact and_one_add (Fetched16.next_and_one aligned) even
  · exact retire frame

end Executes16

variable {c : Core β} {f : Fetched16}

theorem jal16_executes (ops : BusOps β) : Executes16 (c.JumpLands16 f) c (c.jal16 ops f) := by
  have same := Frame.refl c
  unfold jal16
  dsimp only
  split
  · exact .refuse same _
  · have loaded := same.load ops (f.pc + 2) .half
    refine ⟨loaded.set 31 (f.pc + 6 ||| 1), fun effect isEffect => ?_⟩
    rw [Except.ok.injEq] at isEffect
    subst isEffect
    exact ⟨fun _ => lands_taken (.of_word (jump_target_and_three _ _) _),
      show (4 : Word) &&& 1 = 0 from rfl⟩

theorem shift16_executes : Executes16 (c.JumpLands16 f) c (c.shift16 f) := by
  have same := Frame.refl c
  unfold shift16
  dsimp only
  split
  · exact .refuse same _
  · split
    · exact .refuse same _
    · split
      all_goals exact .retire (same.set _ _)

theorem i8_executes (ops : BusOps β) (aligned : f.pc &&& 1 = 0) :
    Executes16 (c.JumpLands16 f) c (c.i8 ops f) := by
  have same := Frame.refl c
  unfold i8
  dsimp only
  split
  case h_5 | h_8 => exact .refuse same _
  all_goals split
  all_goals first
    | exact .refuse same _
    | exact .instantIf same aligned _ (shiftLeft_one_and_one _)
    | exact .retire (same.set _ _)
    | exact .retire (same.store ops _ _ _)

theorem memory16_executes (ops : BusOps β) :
    Executes16 (c.JumpLands16 f) c (c.memory16 ops f) := by
  have same := Frame.refl c
  unfold memory16
  dsimp only
  split
  all_goals first
    | exact .retire ((same.load ops _ _).set _ _)
    | exact .retire (same.store ops _ _ _)

theorem wordAccess16_executes (ops : BusOps β) :
    Executes16 (c.JumpLands16 f) c (c.wordAccess16 ops f) := by
  have same := Frame.refl c
  unfold wordAccess16
  dsimp only
  split
  · split
    · exact .retire (same.store ops _ _ _)
    · exact .retire ((same.load ops _ _).set _ _)
    · exact .retire ((same.load ops _ _).set _ _)
  · exact .refuse same _

theorem jr16_executes (isRR : f.op = 0x1d) (short : f.extended = false)
    (isJr : (f.h &&& 31).toNat = 0) :
    Executes16 (c.JumpLands16 f) c (c.jr16 f) := by
  have same := Frame.refl c
  unfold jr16
  dsimp only
  split
  · exact .refuse same _
  next valid =>
    have linked : Frame c
        (if f.ry = 2 then c.set 31 (f.pc + 4 ||| 1)
          else if f.ry = 6 then c.set 31 (f.pc + 2 ||| 1) else c) := by
      split
      · exact same.set _ _
      · split
        · exact same.set _ _
        · exact same
    -- A jump that is carried out is the one `jumpValue16` reports.
    have lands : f.ry ≠ 3 → f.ry ≠ 7 → c.JumpLands16 f →
        c.gpr (jumpSource f) &&& 3 ≠ 2 := by
      intro notThree notSeven jumps
      apply jumps
      rw [jumpValue16, if_pos]
      exact ⟨isRR, short, isJr, notThree, notSeven,
        fun isRA => Decidable.not_not.mp fun other => valid ⟨isRA, other⟩⟩
    split
    next delayed =>
      apply Executes16.transfer linked
      intro jumps
      exact lands_jumpTo (lands (by omega) (by omega) jumps)
    · split
      next compact =>
        apply Executes16.transfer linked
        intro jumps
        exact lands_immediate (aligned_of_value (lands (by omega) (by omega) jumps))
      · exact .refuse linked _

theorem rr_executes (isRR : f.op = 0x1d) : Executes16 (c.JumpLands16 f) c (c.rr f) := by
  have same := Frame.refl c
  unfold rr
  dsimp only
  split
  · exact .refuse same _
  next notExtended =>
    split
    case h_1 isJr => exact jr16_executes isRR (by simpa using notExtended) isJr
    case h_15 =>
      unfold convert16
      dsimp only
      split
      all_goals first
        | exact .retire (same.set _ _)
        | exact .refuse same _
    all_goals first
      | exact .retire (same.set _ _)
      | exact .retire (same.setHiLo _ _)
      | exact .refuse same _
      | split
    all_goals first
      | exact .retire (same.set _ _)
      | exact .retire (same.setHiLo _ _)
      | exact .retire same
      | exact .refuse same _

/-- Every 16-bit instruction keeps the frame and lands. -/
theorem dispatch16_executes (ops : BusOps β) (aligned : f.pc &&& 1 = 0) :
    Executes16 (c.JumpLands16 f) c (c.dispatch16 ops f) := by
  have same := Frame.refl c
  unfold dispatch16
  dsimp only
  split
  case h_4 => exact jal16_executes ops
  case h_7 => exact shift16_executes
  case h_12 => exact i8_executes ops aligned
  case h_27 isRR => exact rr_executes isRR
  all_goals first
    | exact memory16_executes ops
    | exact wordAccess16_executes ops
    | exact .refuse same _
    | split
  all_goals first
    | exact .retire (same.set _ _)
    | exact .refuse same _
    | exact .instantIf same aligned _ (shiftLeft_one_and_one _)
    | split
  all_goals first
    | exact .retire (same.set _ _)
    | exact .refuse same _

/-- The value the instruction about to execute takes its target from. -/
def jumpValue (ops : BusOps β) (c : Core β) : Option Word :=
  if c.isa then (c.fetch16 ops).2.jumpValue16 (c.fetch16 ops).1
  else (c.load ops c.pc .word).2.jumpValue32 (c.load ops c.pc .word).1

/-- A jump through a register, ERET included, goes to an address its instruction
set can execute at. -/
def JumpLands (ops : BusOps β) (c : Core β) : Prop :=
  ∀ v, c.jumpValue ops = some v → v &&& 3 ≠ 2

theorem fetch16_spec (ops : BusOps β) (c : Core β) :
    Frame c (c.fetch16 ops).2 ∧ (c.fetch16 ops).1.pc = c.pc := by
  have same := Frame.refl c
  unfold fetch16
  dsimp only
  split
  · exact ⟨(same.load ops _ _).load ops _ _, rfl⟩
  · exact ⟨same.load ops _ _, rfl⟩

/-- An executed instruction's length keeps the next address aligned. -/
structure Completes (allowed : Prop) (isa : Bool) (effect : Branch × Word) : Prop where
  lands : allowed → effect.1.Lands
  length : Aligned effect.2 isa

theorem execute_completes (ops : BusOps β) (c : Core β) :
    Yields (Completes (c.JumpLands ops) c.isa) c (c.execute ops) := by
  unfold execute
  split
  next isMips16 =>
    split
    · exact ⟨Frame.refl c, fun effect isEffect => by cases isEffect⟩
    next notOdd =>
      have aligned : c.pc &&& 1 = 0 := by simpa using notOdd
      obtain ⟨fetched, pc⟩ := fetch16_spec ops c
      rw [← pc] at aligned
      have executed := dispatch16_executes (c := (c.fetch16 ops).2) ops aligned
      have frame := fetched.trans executed.frame
      have lands : c.JumpLands ops → (c.fetch16 ops).2.JumpLands16 (c.fetch16 ops).1 := by
        intro jumps v isValue
        apply jumps
        rw [jumpValue, if_pos isMips16, isValue]
      change Frame c (c.execute16 ops).1 at frame
      cases result : c.execute16 ops with
      | mk c' outcome =>
          rw [result] at frame
          cases outcome with
          | error error => exact ⟨frame, fun effect isEffect => by cases isEffect⟩
          | ok effect =>
              have good := executed.good effect (congrArg Prod.snd result)
              refine ⟨frame, fun effect' isEffect => ?_⟩
              rw [Except.ok.injEq] at isEffect
              rw [← isEffect, isMips16]
              exact ⟨fun jumps => good.lands (lands jumps), .of_half good.length⟩
  next isMips32 =>
    split
    · exact ⟨Frame.refl c, fun effect isEffect => by cases isEffect⟩
    next notUnaligned =>
      have aligned : c.pc &&& 3 = 0 := by simpa using notUnaligned
      have fetched := (Frame.refl c).load ops c.pc .word
      rw [← fetched.pc] at aligned
      have executed := execute32_executes (w := (c.load ops c.pc .word).1) ops aligned
      have frame := fetched.trans executed.frame
      have lands : c.JumpLands ops →
          (c.load ops c.pc .word).2.JumpLands32 (c.load ops c.pc .word).1 := by
        intro jumps v isValue
        apply jumps
        rw [jumpValue, if_neg isMips32, isValue]
      dsimp only
      cases result : (c.load ops c.pc .word).2.execute32 ops (c.load ops c.pc .word).1 with
      | mk c' outcome =>
          rw [result] at frame
          cases outcome with
          | error error => exact ⟨frame, fun effect isEffect => by cases isEffect⟩
          | ok effect =>
              have good := executed.good effect (congrArg Prod.snd result)
              refine ⟨frame, fun effect' isEffect => ?_⟩
              rw [Except.ok.injEq] at isEffect
              rw [← isEffect]
              exact ⟨fun jumps => good (lands jumps), .of_word (show (4 : Word) &&& 3 = 0 from rfl) _⟩

end Core

end Cpu

end GoRetroTv
