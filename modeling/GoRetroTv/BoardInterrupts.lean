import GoRetroTv.CpuCore
import GoRetroTv.SnapshotCodecLaws

/-!
# The board's interrupt controller

`internal/device/irq/controller.go`: the pending and enable registers that
gather the peripherals onto line two of the processor.  A `Wire` is the
controller as a device sees it, with the processor lines raised through it
since the access began.
-/

namespace GoRetroTv

namespace Irq

open Snapcodec Cpu

structure Controller where
  pending : Word := 0
  enable : Word := 0
  deriving DecidableEq

/-- The controller and the processor lines it has raised. -/
structure Wire extends Controller where
  raised : Byte := 0
  deriving DecidableEq

def read (off : Word) (size : Size) (c : Controller) : Word :=
  if size ≠ .word then 0
  else if off = 0x30 then c.pending
  else if off = 0x40 then c.enable
  else 0

namespace Wire

/-- `signal`: raise line two of the processor. -/
def signal (wire : Wire) : Wire :=
  { wire with raised := wire.raised ||| (1 : Byte) <<< 2 }

/-- Signal the enabled pending bits that were not there before. -/
def signalRising (before : Word) (wire : Wire) : Wire :=
  if wire.pending &&& wire.enable &&& ~~~before != 0 then wire.signal else wire

def write (off : Word) (size : Size) (value : Word) (wire : Wire) : Wire :=
  if size = .word ∧ off = 0x40 then
    let before := wire.pending &&& wire.enable
    { wire with enable := value }.signalRising before
  else wire

/-- `SetStatus`: mirror a device's bit without a request. -/
def setStatus (mask : Word) (asserted : Bool) (wire : Wire) : Wire :=
  { wire with
    pending := if asserted then wire.pending ||| mask else wire.pending &&& ~~~mask }

/-- `SetLine`: set or clear a device's bit and signal an enabled rising edge. -/
def setLine (mask : Word) (asserted : Bool) (wire : Wire) : Wire :=
  let before := wire.pending &&& wire.enable
  (wire.setStatus mask asserted).signalRising before

/-- `Pulse`: a fresh event, also where its bit was set. -/
def pulse (mask : Word) (wire : Wire) : Wire :=
  (wire.setStatus mask true).signal

@[simp]
theorem signal_pending (wire : Wire) : wire.signal.pending = wire.pending :=
  rfl

@[simp]
theorem signal_enable (wire : Wire) : wire.signal.enable = wire.enable :=
  rfl

@[simp]
theorem signalRising_pending (before : Word) (wire : Wire) :
    (wire.signalRising before).pending = wire.pending := by
  unfold signalRising
  split <;> rfl

@[simp]
theorem signalRising_enable (before : Word) (wire : Wire) :
    (wire.signalRising before).enable = wire.enable := by
  unfold signalRising
  split <;> rfl

@[simp]
theorem setLine_pending (mask : Word) (asserted : Bool) (wire : Wire) :
    (wire.setLine mask asserted).pending = (wire.setStatus mask asserted).pending :=
  signalRising_pending _ _

@[simp]
theorem setLine_enable (mask : Word) (asserted : Bool) (wire : Wire) :
    (wire.setLine mask asserted).enable = wire.enable :=
  signalRising_enable _ _

@[simp]
theorem pulse_pending (mask : Word) (wire : Wire) :
    (wire.pulse mask).pending = wire.pending ||| mask :=
  rfl

/-- A device that drives the level its bit already has changes nothing. -/
theorem setLine_of_level {mask : Word} {asserted : Bool} {wire : Wire}
    (level : (wire.setStatus mask asserted).pending = wire.pending) :
    wire.setLine mask asserted = wire := by
  have same : wire.setStatus mask asserted = wire := by
    obtain ⟨⟨pending, enable⟩, raised⟩ := wire
    simp only [setStatus] at level ⊢
    rw [level]
  unfold setLine signalRising
  rw [same]
  have quiet : wire.pending &&& wire.enable &&& ~~~(wire.pending &&& wire.enable) = 0 :=
    BitVec.and_not_self _
  simp [quiet]

theorem setStatus_of_level {mask : Word} {asserted : Bool} {wire : Wire}
    (level : (wire.setStatus mask asserted).pending = wire.pending) :
    wire.setStatus mask asserted = wire := by
  obtain ⟨⟨pending, enable⟩, raised⟩ := wire
  simp only [setStatus] at level ⊢
  rw [level]

/-- The bit of another device. -/
theorem setStatus_and_of_disjoint {mask other : Word} {asserted : Bool} {wire : Wire}
    (disjoint : mask &&& other = 0) :
    (wire.setStatus mask asserted).pending &&& other = wire.pending &&& other := by
  apply BitVec.eq_of_getLsbD_eq
  intro i _
  have apart := congrArg (BitVec.getLsbD · i) disjoint
  simp only [BitVec.getLsbD_and] at apart
  cases asserted with
  | true =>
    simp only [setStatus, if_true, BitVec.getLsbD_and, BitVec.getLsbD_or]
    grind
  | false =>
    simp only [setStatus, Bool.false_eq_true, if_false, BitVec.getLsbD_and, BitVec.getLsbD_not]
    grind

/-- The bit of the device itself. -/
theorem setStatus_and_self {mask : Word} {asserted : Bool} {wire : Wire} :
    (wire.setStatus mask asserted).pending &&& mask = if asserted then mask else 0 := by
  apply BitVec.eq_of_getLsbD_eq
  intro i _
  cases asserted with
  | true =>
    simp only [setStatus, if_true, BitVec.getLsbD_and, BitVec.getLsbD_or]
    grind
  | false =>
    simp only [setStatus, Bool.false_eq_true, if_false, BitVec.getLsbD_and, BitVec.getLsbD_not]
    grind

/-- A device whose bit is at its level drives nothing. -/
theorem setStatus_pending_of_and {mask : Word} {asserted : Bool} {wire : Wire}
    (level : wire.pending &&& mask = if asserted then mask else 0) :
    (wire.setStatus mask asserted).pending = wire.pending := by
  apply BitVec.eq_of_getLsbD_eq
  intro i _
  have bit := congrArg (BitVec.getLsbD · i) level
  cases asserted with
  | true =>
    simp only [setStatus, if_true, BitVec.getLsbD_and, BitVec.getLsbD_or] at bit ⊢
    grind
  | false =>
    simp only [setStatus, Bool.false_eq_true, if_false, BitVec.getLsbD_and,
      BitVec.getLsbD_not] at bit ⊢
    grind

end Wire

def snapshot (c : Controller) : Except String (List Byte) :=
  newWriter (ascii "board-irq") 1 |>.words [c.pending, c.enable] |>.blob

def readSnapshot : Reading Controller := do
  let words ← Reading.words
  Reading.wrap "irq: restore: " Reading.done
  Reading.require (decide (words.length = 2)) "irq: restore: invalid register count"
  return { pending := words.getD 0 0, enable := words.getD 1 0 }

def restore (blob : List Byte) : Except String Controller :=
  restoring blob (ascii "board-irq") 1 1 "irq: restore: " readSnapshot

theorem words_fit (c : Controller) : [c.pending, c.enable].length < wordLimit :=
  show 2 < wordLimit by decide

theorem snapshot_eq (c : Controller) :
    snapshot c =
      .ok (Writer.frame (ascii "board-irq") 1 (encodeWords [c.pending, c.enable])) := by
  simp only [snapshot, newWriter_eq 1 (show ascii "board-irq" ≠ [] by decide) (by decide)]
  rw [Writer.words_mk _ _ _ (words_fit c), List.nil_append]
  exact Writer.blob_mk _ _ _ (by decide) (by simp [wordLimit])

theorem restore_snapshot (c : Controller) :
    ∃ blob, snapshot c = .ok blob ∧ restore blob = .ok c := by
  refine ⟨_, snapshot_eq c, restoring_frame (by decide) (by simp [wordLimit]) (by decide)
    (by decide) ?_⟩
  apply Parses.bind_last (.words (words_fit c))
  apply Parses.wrapDone
  apply Parses.require rfl
  exact Parses.pure [] _

end Irq

end GoRetroTv
