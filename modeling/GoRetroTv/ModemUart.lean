import GoRetroTv.BoardInterrupts
import GoRetroTv.SnapshotRecords

/-!
# The modem's UART

`internal/device/modem/uart.go`: the registers of a 16550 and the soldered
modem behind it, which answers `AT`.  Its bit of the board's controller is a
status: it is set and cleared without a request, and a pump that finds a cause
requests at most once for each tick of the board's timer.
-/

namespace GoRetroTv

namespace Modem

open Snapcodec Cpu

def irqMask : Word :=
  0x200

def maxBytes : Nat :=
  4096

structure Uart where
  ier : Byte := 0
  lcr : Byte := 0
  mcr : Byte := 0
  dll : Byte := 0
  dlm : Byte := 0
  msr : Byte := 0
  delta : Byte := 0
  rx : List Byte := []
  tx : List Byte := []
  lastTick : DoubleWord := ~~~0

/-- The UART with its line to the board. -/
abbrev Attached := Uart × Irq.Wire

namespace Uart

/-- The divisor latch replaces the data registers. -/
def latched (u : Uart) : Bool :=
  u.lcr &&& 0x80 != 0

/-- The cause register, by priority. -/
def cause (u : Uart) : Word :=
  if u.ier &&& 1 ≠ 0 ∧ u.rx ≠ [] then 0x04
  else if u.ier &&& 8 ≠ 0 ∧ u.delta ≠ 0 then 0x00
  else if u.ier &&& 2 ≠ 0 then 0x02
  else 0x01

/-- `Read`; the data and the modem status registers change when they are read. -/
def read (off : Word) (size : Size) (u : Uart) : Word × Uart :=
  if size = .half then (0, u)
  else
    match (off &&& ~~~3).toNat with
    | 0x00 =>
        if u.latched then (u.dll.setWidth 32, u)
        else
          match u.rx with
          | [] => (0, u)
          | byte :: rest => (byte.setWidth 32, { u with rx := rest })
    | 0x10 => if u.latched then (u.dlm.setWidth 32, u) else (u.ier.setWidth 32, u)
    | 0x20 => (u.cause, u)
    | 0x30 => (u.lcr.setWidth 32, u)
    | 0x40 => (u.mcr.setWidth 32, u)
    | 0x50 => (if u.rx ≠ [] then 0x61 else 0x60, u)
    | 0x60 => ((u.msr ||| u.delta).setWidth 32, { u with delta := 0 })
    | _ => (0, u)

/-- The transmitted bytes end in `AT`. -/
def endsInAT (tx : List Byte) : Bool :=
  tx.drop (tx.length - 2) == ascii "AT"

def reply : List Byte :=
  ascii "\r\nOK\r\n"

/-- `accept`: one transmitted byte. -/
def accept (byte : Byte) (u : Uart) : Uart :=
  let tx := if u.tx.length < maxBytes then u.tx ++ [byte] else u.tx
  if endsInAT tx ∧ u.rx.length + 6 ≤ maxBytes then { u with tx, rx := u.rx ++ reply }
  else { u with tx }

/-- A write to the modem control register moves the modem's lines. -/
def control (value : Byte) (u : Uart) : Uart :=
  let dtr := if value &&& 1 ≠ 0 then 0x20 else 0
  let rts := if value &&& 2 ≠ 0 then 0x10 else 0
  let msr := 0x80 ||| rts ||| dtr
  let changed (line change : Byte) := if (u.msr ^^^ msr) &&& line ≠ 0 then change else 0
  { u with
    mcr := value
    msr
    delta := u.delta ||| changed 0x10 1 ||| changed 0x20 2 ||| changed 0x80 8 }

def write (off : Word) (size : Size) (value : Word) (u : Uart) : Uart :=
  if size = .half then u
  else
    let byte : Byte := value.setWidth 8
    match (off &&& ~~~3).toNat with
    | 0x00 => if u.latched then { u with dll := byte } else u.accept byte
    | 0x10 => if u.latched then { u with dlm := byte } else { u with ier := byte &&& 0x0f }
    | 0x30 => { u with lcr := byte }
    | 0x40 => u.control byte
    | _ => u

def wantsIRQ (u : Uart) : Bool :=
  u.ier &&& 1 != 0 && !u.rx.isEmpty || u.ier &&& 8 != 0 && u.delta != 0 || u.ier &&& 2 != 0

/-- `Pump`. -/
def pump (boardTicks : DoubleWord) (wire : Irq.Wire) (u : Uart) : Attached :=
  let wire := wire.setStatus irqMask u.wantsIRQ
  if u.wantsIRQ ∧ boardTicks ≠ u.lastTick then
    ({ u with lastTick := boardTicks }, wire.pulse irqMask)
  else (u, wire)

/-- `Reset`. -/
def reset (wire : Irq.Wire) : Attached :=
  ({}, wire.setStatus irqMask false)

def registers (u : Uart) : List Byte :=
  [u.ier, u.lcr, u.mcr, u.dll, u.dlm, u.msr, u.delta]

def snapshot (u : Uart) : Except String (List Byte) :=
  newWriter (ascii "modem-uart0") 2
    |>.bytes u.registers
    |>.bytes u.rx
    |>.bytes u.tx
    |>.uint64 u.lastTick
    |>.blob

def readSnapshot : Reading Uart := do
  let regs ← Reading.bytes
  let rx ← Reading.bytes
  let tx ← Reading.bytes
  let lastTick ← Reading.uint64
  Reading.wrap "modem: restore: " Reading.done
  Reading.require (decide (regs.length = 7 ∧ rx.length ≤ maxBytes ∧ tx.length ≤ maxBytes))
    "modem: restore: invalid state"
  return {
    ier := regs.getD 0 0
    lcr := regs.getD 1 0
    mcr := regs.getD 2 0
    dll := regs.getD 3 0
    dlm := regs.getD 4 0
    msr := regs.getD 5 0
    delta := regs.getD 6 0
    rx, tx, lastTick }

/-- What `Restore` reads. -/
def decode (blob : List Byte) : Except String Uart :=
  restoring blob (ascii "modem-uart0") 2 2 "modem: restore: " readSnapshot

def restore (blob : List Byte) (wire : Irq.Wire) : Except String Attached := do
  let u ← decode blob
  return (u, wire.setStatus irqMask u.wantsIRQ)

def encodeUart (u : Uart) : List Byte :=
  encodeBytes u.registers ++
    (encodeBytes u.rx ++ (encodeBytes u.tx ++ bigEndian 8 u.lastTick.toNat))

theorem written (u : Uart) :
    Written (ascii "modem-uart0") 2 (encodeUart u)
      (newWriter (ascii "modem-uart0") 2
        |>.bytes u.registers
        |>.bytes u.rx
        |>.bytes u.tx
        |>.uint64 u.lastTick) := by
  have fields := (Written.start (ascii "modem-uart0") 2).bytes u.registers
    |>.bytes u.rx |>.bytes u.tx |>.uint64 u.lastTick
  simpa only [encodeUart, List.nil_append, List.append_assoc] using fields

/-- The queues are within what a restore takes. -/
structure Bounded (u : Uart) : Prop where
  rx : u.rx.length ≤ maxBytes
  tx : u.tx.length ≤ maxBytes

def blobOf (u : Uart) : List Byte :=
  Writer.frame (ascii "modem-uart0") 2 (encodeUart u)

section

variable {u : Uart} (bounded : u.Bounded)
include bounded

theorem Bounded.fits : u.rx.length < wordLimit ∧ u.tx.length < wordLimit :=
  ⟨bounded.rx.trans_lt (by decide), bounded.tx.trans_lt (by decide)⟩

theorem encodeUart_length_le : (encodeUart u).length ≤ 10000 := by
  have rx := bounded.rx
  have tx := bounded.tx
  simp only [encodeUart, List.length_append, encodeBytes_length, bigEndian_length, registers,
    List.length_cons, List.length_nil]
  unfold maxBytes at rx tx
  omega

theorem encodeUart_fits : (encodeUart u).length < wordLimit :=
  (encodeUart_length_le bounded).trans_lt (by decide)

theorem snapshot_eq : u.snapshot = .ok (blobOf u) := by
  rw [snapshot, newWriter_eq 2 (show ascii "modem-uart0" ≠ [] by decide) (by decide),
    Writer.bytes_mk _ _ _ (show u.registers.length < wordLimit from show 7 < wordLimit by decide),
    Writer.bytes_mk _ _ _ bounded.fits.1, Writer.bytes_mk _ _ _ bounded.fits.2,
    Writer.uint64_mk]
  simp only [List.nil_append, List.append_assoc]
  exact Writer.blob_mk _ _ _ (by decide) (encodeUart_fits bounded)

/-- The UART accepts its own snapshot. -/
theorem decode_blobOf : decode (blobOf u) = .ok u := by
  refine restoring_frame (by decide) (encodeUart_fits bounded) (by decide) (by decide) ?_
  unfold readSnapshot encodeUart
  apply Parses.bind (.bytes (show u.registers.length < wordLimit from show 7 < wordLimit by decide))
  apply Parses.bind (.bytes bounded.fits.1)
  apply Parses.bind (.bytes bounded.fits.2)
  apply Parses.bind_last (.uint64 _)
  apply Parses.wrapDone
  apply Parses.require
  · rw [decide_eq_true_iff]
    exact ⟨rfl, bounded.rx, bounded.tx⟩
  exact Parses.pure [] u

end

/-- A UART that accepts its own snapshot is the same UART. -/
theorem decode_snapshot {u restored : Uart} {blob : List Byte} (taken : u.snapshot = .ok blob)
    (accepted : decode blob = .ok restored) : restored = u := by
  refine u.written.restored taken (fun fits => ?_) accepted
  simp only [encodeUart, List.length_append, encodeBytes_length] at fits
  refine .bind (.of_reads (.bytes (show 7 < wordLimit by decide))) ?_
  refine .bind (.of_reads (.bytes (by omega))) ?_
  refine .bind (.of_reads (.bytes (by omega))) ?_
  refine .bind_last (.of_reads (.uint64 _)) ?_
  refine .bind_check (.wrap .done) ?_
  exact .bind_check (.require _ _) (.pure _)

end Uart

end Modem

end GoRetroTv
