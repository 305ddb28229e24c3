import GoRetroTv.CpuEvenFlow

/-!
# A line that rises during an instruction

The pending lines are read where a step begins and nowhere else.  So whatever
the devices raise while they serve an instruction's accesses, the instruction
does what it would have done had they raised nothing.
-/

namespace GoRetroTv

namespace Cpu

/-- The same bus with devices that raise no line. -/
def BusOps.quiet {β : Type} (ops : BusOps β) : BusOps β where
  read address size bus := { ops.read address size bus with raised := 0 }
  write address size value bus := ((ops.write address size value bus).1, 0)

namespace Core

variable {β : Type}

/-- The core but for its pending external lines. -/
def withoutLines (c : Core β) : Core β :=
  { c with pendingLines := 0 }

/-- A result but for the pending external lines. -/
def quieten {α : Type} (result : Core β × α) : Core β × α :=
  (result.1.withoutLines, result.2)

section Fields

variable (c : Core β)

@[simp]
theorem withoutLines_gpr : c.withoutLines.gpr = c.gpr :=
  rfl

@[simp]
theorem withoutLines_pc : c.withoutLines.pc = c.pc :=
  rfl

@[simp]
theorem withoutLines_hi : c.withoutLines.hi = c.hi :=
  rfl

@[simp]
theorem withoutLines_lo : c.withoutLines.lo = c.lo :=
  rfl

@[simp]
theorem withoutLines_isa : c.withoutLines.isa = c.isa :=
  rfl

@[simp]
theorem withoutLines_cop0 : c.withoutLines.cop0 = c.cop0 :=
  rfl

@[simp]
theorem withoutLines_delayed : c.withoutLines.delayed = c.delayed :=
  rfl

@[simp]
theorem withoutLines_reserved : c.withoutLines.reserved = c.reserved :=
  rfl

@[simp]
theorem withoutLines_hasReservation : c.withoutLines.hasReservation = c.hasReservation :=
  rfl

@[simp]
theorem withoutLines_withoutLines : c.withoutLines.withoutLines = c.withoutLines :=
  rfl

@[simp]
theorem withoutLines_set (register : Register) (value : Word) :
    c.withoutLines.set register value = (c.set register value).withoutLines := by
  unfold Core.set
  split <;> rfl

@[simp]
theorem withoutLines_setCop0 (register : Register) (value : Word) :
    c.withoutLines.setCop0 register value = (c.setCop0 register value).withoutLines :=
  rfl

@[simp]
theorem withoutLines_setHiLo (hi lo : Word) :
    c.withoutLines.setHiLo hi lo = (c.setHiLo hi lo).withoutLines :=
  rfl

@[simp]
theorem withoutLines_dropReservation :
    c.withoutLines.dropReservation = c.dropReservation.withoutLines :=
  rfl

@[simp]
theorem quieten_ite {α : Type} (p : Prop) [Decidable p] (first second : Core β × α) :
    quieten (if p then first else second) = if p then quieten first else quieten second :=
  apply_ite quieten p first second

@[simp]
theorem withoutLines_load (ops : BusOps β) (address : Word) (size : Size) :
    c.withoutLines.load ops.quiet address size =
      ((c.load ops address size).1, (c.load ops address size).2.withoutLines) :=
  congrArg (Prod.mk _) (raise_zero _)

@[simp]
theorem withoutLines_store (ops : BusOps β) (address : Word) (size : Size) (value : Word) :
    c.withoutLines.store ops.quiet address size value =
      (c.store ops address size value).withoutLines :=
  raise_zero _

@[simp]
theorem withoutLines_retire : c.withoutLines.retire = quieten c.retire :=
  rfl

@[simp]
theorem withoutLines_transfer (effect : Branch) :
    c.withoutLines.transfer effect = quieten (c.transfer effect) :=
  rfl

@[simp]
theorem withoutLines_refuse (error : String) :
    c.withoutLines.refuse error = quieten (c.refuse error) :=
  rfl

end Fields

open Mips32

section Executing

variable (c : Core β) (ops : BusOps β) (w : Word)

@[simp]
theorem withoutLines_branchTo (ok : Bool) :
    c.withoutLines.branchTo w ok = quieten (c.branchTo w ok) := by
  unfold branchTo
  split <;> rfl

@[simp]
theorem withoutLines_branchLikelyTo (ok : Bool) :
    c.withoutLines.branchLikelyTo w ok = quieten (c.branchLikelyTo w ok) := by
  unfold branchLikelyTo
  split <;> simp

@[simp]
theorem withoutLines_special : c.withoutLines.special w = quieten (c.special w) := by
  unfold special
  split
  all_goals simp

@[simp]
theorem withoutLines_regimm : c.withoutLines.regimm w = quieten (c.regimm w) := by
  unfold regimm
  dsimp only
  split <;> simp

@[simp]
theorem withoutLines_coprocessor0 :
    c.withoutLines.coprocessor0 w = quieten (c.coprocessor0 w) := by
  unfold coprocessor0
  dsimp only
  split
  · simp
  · split <;> rfl
  · split
    · rfl
    · simp
  · rfl

@[simp]
theorem withoutLines_memory : c.withoutLines.memory ops.quiet w = quieten (c.memory ops w) := by
  unfold memory
  dsimp only
  split
  all_goals simp
  rfl

@[simp]
theorem withoutLines_unaligned (op : Nat) (rt : Register) (ea : Word) :
    c.withoutLines.unaligned ops.quiet op rt ea = (c.unaligned ops op rt ea).withoutLines := by
  unfold unaligned
  simp only [withoutLines_load, withoutLines_gpr]
  split <;> simp

theorem withoutLines_execute32 :
    c.withoutLines.execute32 ops.quiet w = quieten (c.execute32 ops w) := by
  unfold execute32
  dsimp only
  split <;> simp

end Executing

section

variable (c : Core β) (ops : BusOps β) (f : Fetched16)

@[simp]
theorem withoutLines_retire16 : c.withoutLines.retire16 f = quieten (c.retire16 f) :=
  rfl

@[simp]
theorem withoutLines_transfer16 (effect : Branch) :
    c.withoutLines.transfer16 f effect = quieten (c.transfer16 f effect) :=
  rfl

@[simp]
theorem withoutLines_refuse16 (reason : String) :
    c.withoutLines.refuse16 f reason = quieten (c.refuse16 f reason) :=
  rfl

@[simp]
theorem withoutLines_instantIf (ok : Bool) (offset : Word) :
    c.withoutLines.instantIf f ok offset = quieten (c.instantIf f ok offset) := by
  unfold instantIf
  split <;> rfl

@[simp]
theorem withoutLines_jal16 : c.withoutLines.jal16 ops.quiet f = quieten (c.jal16 ops f) := by
  unfold jal16
  split
  · rfl
  · simp [quieten]

@[simp]
theorem withoutLines_shift16 : c.withoutLines.shift16 f = quieten (c.shift16 f) := by
  unfold shift16
  dsimp only
  split
  · rfl
  split
  · rfl
  split <;> simp

@[simp]
theorem withoutLines_i8 : c.withoutLines.i8 ops.quiet f = quieten (c.i8 ops f) := by
  unfold i8
  dsimp only
  split <;> simp

@[simp]
theorem withoutLines_memory16 :
    c.withoutLines.memory16 ops.quiet f = quieten (c.memory16 ops f) := by
  unfold memory16
  dsimp only
  split <;> simp

@[simp]
theorem withoutLines_wordAccess16 :
    c.withoutLines.wordAccess16 ops.quiet f = quieten (c.wordAccess16 ops f) := by
  unfold wordAccess16
  dsimp only
  split
  · split <;> simp
  · rfl

@[simp]
theorem withoutLines_jr16 : c.withoutLines.jr16 f = quieten (c.jr16 f) := by
  unfold jr16
  dsimp only
  split
  · rfl
  · have linked :
        (if f.ry = 2 then c.withoutLines.set 31 (f.pc + 4 ||| 1)
          else if f.ry = 6 then c.withoutLines.set 31 (f.pc + 2 ||| 1)
          else c.withoutLines) =
        (if f.ry = 2 then c.set 31 (f.pc + 4 ||| 1)
          else if f.ry = 6 then c.set 31 (f.pc + 2 ||| 1) else c).withoutLines := by
      rw [withoutLines_set, withoutLines_set, apply_ite withoutLines, apply_ite withoutLines]
    rw [linked]
    simp

@[simp]
theorem withoutLines_convert16 : c.withoutLines.convert16 f = quieten (c.convert16 f) := by
  unfold convert16
  dsimp only
  split <;> simp

@[simp]
theorem withoutLines_rr : c.withoutLines.rr f = quieten (c.rr f) := by
  unfold rr
  dsimp only
  split
  · rfl
  · split <;> simp

theorem withoutLines_dispatch16 :
    c.withoutLines.dispatch16 ops.quiet f = quieten (c.dispatch16 ops f) := by
  unfold dispatch16
  dsimp only
  split
  case h_26 =>
    simp only [withoutLines_gpr, withoutLines_set, withoutLines_retire16, withoutLines_refuse16]
    split
    · rfl
    · split <;> rfl
  all_goals simp

end

theorem withoutLines_fetch16 (c : Core β) (ops : BusOps β) :
    c.withoutLines.fetch16 ops.quiet =
      ((c.fetch16 ops).1, (c.fetch16 ops).2.withoutLines) := by
  unfold fetch16
  simp only [withoutLines_load, withoutLines_pc, withoutLines_delayed]
  split <;> rfl

/-- Raised lines do not change what an instruction does. -/
theorem withoutLines_execute (c : Core β) (ops : BusOps β) :
    c.withoutLines.execute ops.quiet = quieten (c.execute ops) := by
  unfold execute
  by_cases isMips16 : c.isa = true
  · rw [if_pos isMips16, withoutLines_isa, if_pos isMips16]
    by_cases odd : (c.pc &&& 1 != 0) = true
    · rw [if_pos odd, withoutLines_pc, if_pos odd]
      rfl
    · have executed : c.withoutLines.execute16 ops.quiet = quieten (c.execute16 ops) := by
        unfold execute16
        rw [withoutLines_fetch16]
        exact withoutLines_dispatch16 _ _ _
      rw [if_neg odd, withoutLines_pc, if_neg odd, executed]
      cases c.execute16 ops with
      | mk c' outcome => cases outcome <;> rfl
  · rw [if_neg isMips16, withoutLines_isa, if_neg isMips16]
    by_cases unaligned : (c.pc &&& 3 != 0) = true
    · rw [if_pos unaligned, withoutLines_pc, if_pos unaligned]
      rfl
    · have executed := withoutLines_execute32 (c.load ops c.pc .word).2 ops
        (c.load ops c.pc .word).1
      rw [if_neg unaligned, withoutLines_pc, if_neg unaligned, withoutLines_load]
      dsimp only
      rw [executed]
      cases (c.load ops c.pc .word).2.execute32 ops (c.load ops c.pc .word).1 with
      | mk c' outcome => cases outcome <;> rfl

theorem withoutLines_follow (c : Core β) (effect : Branch) (length : Word) :
    c.withoutLines.follow effect length = quieten (c.follow effect length) := by
  unfold follow
  rw [quieten_ite, quieten_ite, quieten_ite, quieten_ite]
  rfl

theorem withoutLines_tickCount (c : Core β) :
    c.withoutLines.tickCount = c.tickCount.withoutLines := by
  unfold tickCount
  dsimp only
  rw [apply_ite withoutLines]
  rfl

theorem withoutLines_beginStep (c : Core β) :
    c.withoutLines.beginStep = c.beginStep.withoutLines := by
  unfold beginStep
  rw [withoutLines_tickCount, apply_ite withoutLines]
  rfl

/-- A core that takes no interrupt takes none with fewer lines pending. -/
theorem withoutLines_not_accepts {c : Core β} (refused : ¬ c.Accepts) :
    ¬ c.withoutLines.Accepts := by
  rw [accepts_iff_deliverable] at refused ⊢
  rintro ⟨⟨noSlot, enabled, noException, noError⟩, ip, isEnabled, requested⟩
  apply refused
  refine ⟨⟨noSlot, enabled, noException, noError⟩, ip, isEnabled, .inr ?_⟩
  rcases requested with pending | timer
  · simp [linePending, withoutLines] at pending
  · exact timer

/-- A step that takes no interrupt executes its instruction whatever lines are
pending or rise meanwhile. -/
theorem step_quiet {c : Core β} (refused : ¬ c.Accepts) (ops : BusOps β)
    (beforeVector : Option (Pump β)) :
    quieten (c.stepWithInterruptBoundary ops beforeVector) =
      c.withoutLines.stepWithInterruptBoundary ops.quiet beforeVector := by
  have executed := withoutLines_execute c.beginStep ops
  unfold stepWithInterruptBoundary
  rw [acceptInterrupt_of_not_accepts refused,
    acceptInterrupt_of_not_accepts (withoutLines_not_accepts refused), withoutLines_beginStep]
  dsimp only
  rw [executed]
  cases c.beginStep.execute ops with
  | mk c' outcome =>
      cases outcome with
      | error error => rfl
      | ok effect => exact (withoutLines_follow c' effect.1 effect.2).symm

end Core

end Cpu

end GoRetroTv
