import GoRetroTv.BoardInterrupts
import GoRetroTv.SnapshotRecords

/-!
# The second card slot's controller

`internal/device/smartcard/port.go`: a framed byte link with a paced reply.
Its line follows the enabled status bits when it is pumped, reset or restored,
and not when the guest writes.
-/

namespace GoRetroTv

namespace Smartcard

open Snapcodec Cpu

def irqMask : Word :=
  0x00010000

def byteInstructions : DoubleWord :=
  8000

def replyGapInstructions : DoubleWord :=
  20000

def maxFrameBytes : Nat :=
  1024

structure Port where
  control : Word := 0
  pair30 : Word := 0
  pair40 : Word := 0
  status : Word := 0
  enable : Word := 0
  rxByte : Byte := 0
  frame : List Byte := []
  reply : List Byte := []
  txDelay : DoubleWord := 0
  rxDelay : DoubleWord := 0

/-- The port with its line to the board. -/
abbrev Attached := Port × Irq.Wire

namespace Port

def read (off : Word) (size : Size) (p : Port) : Word :=
  match (off &&& ~~~3).toNat with
  | 0x20 => 0
  | 0x50 => if off = 0x53 ∧ size = .byte ∨ off = 0x50 ∧ size = .word then p.rxByte.setWidth 32 else 0
  | 0x60 => if size = .word then p.status else 0
  | 0x70 => if size = .word then p.enable else 0
  | _ => 0

/-- The reply to a command, but for its checksum. -/
def replyTo (command : Byte) : List Byte :=
  [0xe0, 0, 1, command, 0xc0]

def checksum (reply : List Byte) : Byte :=
  reply.foldl (· ^^^ ·) 0

/-- How long the frame says it is, once its length field is there. -/
def frameLength (frame : List Byte) : Nat :=
  (frame.getD 1 0).toNat <<< 8 ||| (frame.getD 2 0).toNat

/-- A complete frame is answered if the reply fits. -/
def answer (frame : List Byte) (p : Port) : Port :=
  let reply := replyTo (frame.getD 3 0)
  if maxFrameBytes < p.reply.length + reply.length + 1 then { p with frame := [] }
  else
    { p with
      frame := []
      reply := p.reply ++ reply ++ [checksum reply]
      rxDelay := 2 * replyGapInstructions }

/-- `accept`: one byte from the guest. -/
def accept (byte : Byte) (p : Port) : Port :=
  if p.frame = [] ∧ byte ≠ 0x60 then p
  else if maxFrameBytes ≤ p.frame.length then { p with frame := [] }
  else
    let frame := p.frame ++ [byte]
    let p := { p with frame }
    if frame.length < 3 then p
    else
      let need := frameLength frame + 5
      if maxFrameBytes < need then { p with frame := [] }
      else if frame.length ≠ need then p
      else p.answer frame

def write (off : Word) (size : Size) (value : Word) (p : Port) : Port :=
  if size ≠ .word then p
  else
    match off.toNat with
    | 0x00 => { p with control := value &&& 0xff }
    | 0x30 => { p with pair30 := value }
    | 0x40 => { p with pair40 := value }
    | 0x50 => { p with txDelay := byteInstructions }.accept (value.setWidth 8)
    | 0x60 => { p with status := 0 }
    | 0x70 => { p with enable := value &&& 7 }
    | _ => p

/-- The level `updateLine` drives. -/
def line (p : Port) : Bool :=
  p.status &&& p.enable != 0

def updateLine (wire : Irq.Wire) (p : Port) : Attached :=
  (p, wire.setLine irqMask p.line)

/-- The transmitter's half of `Pump`. -/
def pumpTransmit (batch : DoubleWord) (p : Port) : Port :=
  if p.txDelay = 0 then p
  else if batch < p.txDelay then { p with txDelay := p.txDelay - batch }
  else { p with txDelay := 0, status := p.status ||| 2 }

/-- The receiver's half of `Pump`. -/
def pumpReceive (batch : DoubleWord) (p : Port) : Port :=
  match p.reply with
  | [] => p
  | byte :: rest =>
      if p.status &&& 4 ≠ 0 ∨ p.enable &&& 2 ≠ 0 then p
      else if p.rxDelay = 0 then
        { p with
          rxByte := byte
          reply := rest
          status := p.status ||| 4
          rxDelay := replyGapInstructions }
      else if batch < p.rxDelay then { p with rxDelay := p.rxDelay - batch }
      else { p with rxDelay := 0 }

/-- `Pump`. -/
def pump (batch : DoubleWord) (wire : Irq.Wire) (p : Port) : Attached :=
  ((p.pumpTransmit batch).pumpReceive batch).updateLine wire

/-- `Reset`. -/
def reset (wire : Irq.Wire) : Attached :=
  ({} : Port).updateLine wire

def registers (p : Port) : List Word :=
  [p.control, p.pair30, p.pair40, p.status, p.enable]

def snapshot (p : Port) : Except String (List Byte) :=
  newWriter (ascii "smartcard-uart1") 2
    |>.words p.registers
    |>.uint8 p.rxByte
    |>.bytes p.frame
    |>.bytes p.reply
    |>.uint64 p.txDelay
    |>.uint64 p.rxDelay
    |>.blob

def readSnapshot : Reading Port := do
  let regs ← Reading.words
  let rxByte ← Reading.uint8
  let frame ← Reading.bytes
  let reply ← Reading.bytes
  let txDelay ← Reading.uint64
  let rxDelay ← Reading.uint64
  Reading.wrap "smartcard: restore: " Reading.done
  Reading.require
    (decide (regs.length = 5 ∧ frame.length ≤ maxFrameBytes ∧ reply.length ≤ maxFrameBytes))
    "smartcard: restore: invalid state"
  return {
    control := regs.getD 0 0
    pair30 := regs.getD 1 0
    pair40 := regs.getD 2 0
    status := regs.getD 3 0
    enable := regs.getD 4 0
    rxByte, frame, reply, txDelay, rxDelay }

/-- What `Restore` reads. -/
def decode (blob : List Byte) : Except String Port :=
  restoring blob (ascii "smartcard-uart1") 2 2 "smartcard: restore: " readSnapshot

def restore (blob : List Byte) (wire : Irq.Wire) : Except String Attached := do
  let p ← decode blob
  return p.updateLine wire

def encodePort (p : Port) : List Byte :=
  encodeWords p.registers ++
    (bigEndian 1 p.rxByte.toNat ++
      (encodeBytes p.frame ++
        (encodeBytes p.reply ++ (bigEndian 8 p.txDelay.toNat ++ bigEndian 8 p.rxDelay.toNat))))

theorem written (p : Port) :
    Written (ascii "smartcard-uart1") 2 (encodePort p)
      (newWriter (ascii "smartcard-uart1") 2
        |>.words p.registers
        |>.uint8 p.rxByte
        |>.bytes p.frame
        |>.bytes p.reply
        |>.uint64 p.txDelay
        |>.uint64 p.rxDelay) := by
  have fields := (Written.start (ascii "smartcard-uart1") 2).words p.registers
    |>.uint8 p.rxByte |>.bytes p.frame |>.bytes p.reply |>.uint64 p.txDelay |>.uint64 p.rxDelay
  simpa only [encodePort, List.nil_append, List.append_assoc] using fields

/-- The frames are within what a restore takes. -/
structure Bounded (p : Port) : Prop where
  frame : p.frame.length ≤ maxFrameBytes
  reply : p.reply.length ≤ maxFrameBytes

def blobOf (p : Port) : List Byte :=
  Writer.frame (ascii "smartcard-uart1") 2 (encodePort p)

theorem registers_fit (p : Port) : p.registers.length < wordLimit :=
  show 5 < wordLimit by decide

section

variable {p : Port} (bounded : p.Bounded)
include bounded

theorem Bounded.fits : p.frame.length < wordLimit ∧ p.reply.length < wordLimit :=
  ⟨bounded.frame.trans_lt (by decide), bounded.reply.trans_lt (by decide)⟩

theorem encodePort_length_le : (encodePort p).length ≤ 10000 := by
  have frame := bounded.frame
  have reply := bounded.reply
  simp only [encodePort, List.length_append, encodeWords_length, encodeBytes_length,
    bigEndian_length, registers, List.length_cons, List.length_nil]
  unfold maxFrameBytes at frame reply
  omega

theorem encodePort_fits : (encodePort p).length < wordLimit :=
  (encodePort_length_le bounded).trans_lt (by decide)

theorem snapshot_eq : p.snapshot = .ok (blobOf p) := by
  rw [snapshot, newWriter_eq 2 (show ascii "smartcard-uart1" ≠ [] by decide) (by decide),
    Writer.words_mk _ _ _ (registers_fit p), Writer.uint8_mk,
    Writer.bytes_mk _ _ _ bounded.fits.1, Writer.bytes_mk _ _ _ bounded.fits.2,
    Writer.uint64_mk, Writer.uint64_mk]
  simp only [List.nil_append, List.append_assoc]
  exact Writer.blob_mk _ _ _ (by decide) (encodePort_fits bounded)

/-- The port accepts its own snapshot. -/
theorem decode_blobOf : decode (blobOf p) = .ok p := by
  refine restoring_frame (by decide) (encodePort_fits bounded) (by decide) (by decide) ?_
  unfold readSnapshot encodePort
  apply Parses.bind (.words (registers_fit p))
  apply Parses.bind (.uint8 _)
  apply Parses.bind (.bytes bounded.fits.1)
  apply Parses.bind (.bytes bounded.fits.2)
  apply Parses.bind (.uint64 _)
  apply Parses.bind_last (.uint64 _)
  apply Parses.wrapDone
  apply Parses.require
  · rw [decide_eq_true_iff]
    exact ⟨rfl, bounded.frame, bounded.reply⟩
  exact Parses.pure [] p

end

/-- A port that accepts its own snapshot is the same port. -/
theorem decode_snapshot {p restored : Port} {blob : List Byte} (taken : p.snapshot = .ok blob)
    (accepted : decode blob = .ok restored) : restored = p := by
  refine p.written.restored taken (fun fits => ?_) accepted
  simp only [encodePort, List.length_append, encodeBytes_length] at fits
  refine .bind (.of_reads (.words (show 5 < wordLimit by decide))) ?_
  refine .bind (.of_reads (.uint8 _)) ?_
  refine .bind (.of_reads (.bytes (by omega))) ?_
  refine .bind (.of_reads (.bytes (by omega))) ?_
  refine .bind (.of_reads (.uint64 _)) ?_
  refine .bind_last (.of_reads (.uint64 _)) ?_
  refine .bind_check (.wrap .done) ?_
  exact .bind_check (.require _ _) (.pure _)

end Port

end Smartcard

end GoRetroTv
