import GoRetroTv.AddressedCells
import GoRetroTv.CpuCore
import GoRetroTv.SnapshotCodecLaws

/-!
# Latches of the board

The devices that only hold what was written to them: the board latch
(`internal/device/boardlatch`), the serial bus's branch latch
(`internal/device/i2c/mux.go`), the display's descriptor roots
(`internal/device/osd/display.go`) and the audio control block
(`internal/device/audio/control.go`).
-/

namespace GoRetroTv

open Snapcodec Cpu

/-- A word at offset zero of a window. -/
structure WordLatch where
  value : Word
  deriving DecidableEq

namespace WordLatch

def read (off : Word) (size : Size) (l : WordLatch) : Word :=
  if off = 0 ∧ size = .word then l.value else 0

def write (off : Word) (size : Size) (value : Word) (l : WordLatch) : WordLatch :=
  if off = 0 ∧ size = .word then { value } else l

def snapshot (name : List Byte) (l : WordLatch) : Except String (List Byte) :=
  newWriter name 1 |>.uint32 l.value |>.blob

def readSnapshot (label : String) : Reading WordLatch := do
  let value ← Reading.uint32
  Reading.wrap label Reading.done
  return { value }

def restore (name : List Byte) (label : String) (blob : List Byte) : Except String WordLatch :=
  restoring blob name 1 1 label (readSnapshot label)

def blobOf (name : List Byte) (l : WordLatch) : List Byte :=
  Writer.frame name 1 (bigEndian 4 l.value.toNat)

section

variable {name : List Byte} (nonempty : name ≠ []) (nameFits : name.length ≤ maxNameLen)

include nonempty nameFits

theorem snapshot_eq (l : WordLatch) : l.snapshot name = .ok (blobOf name l) := by
  rw [snapshot, newWriter_eq 1 nonempty nameFits, Writer.uint32_mk, List.nil_append]
  exact Writer.blob_mk _ _ _ nameFits (by rw [bigEndian_length]; decide)

omit nonempty in
theorem restore_blobOf (label : String) (l : WordLatch) :
    restore name label (blobOf name l) = .ok l := by
  refine restoring_frame nameFits (by rw [bigEndian_length]; decide) (by decide) (by decide) ?_
  apply Parses.bind_last (.uint32 l.value)
  apply Parses.wrapDone
  exact Parses.pure [] l

/-- A latch that accepts its own snapshot is the same latch. -/
theorem restored_of_snapshot {label : String} {l restored : WordLatch} {blob : List Byte}
    (taken : l.snapshot name = .ok blob) (accepted : restore name label blob = .ok restored) :
    restored = l := by
  rw [snapshot_eq nonempty nameFits, Except.ok.injEq] at taken
  rw [← taken, restore_blobOf nameFits, Except.ok.injEq] at accepted
  exact accepted.symm

end

end WordLatch

namespace Boardlatch

abbrev Latch :=
  WordLatch

def new : Latch :=
  { value := 0 }

def name : List Byte :=
  ascii "board-latch"

def snapshot (l : Latch) : Except String (List Byte) :=
  WordLatch.snapshot name l

def restore (blob : List Byte) : Except String Latch :=
  WordLatch.restore name "board latch: restore: " blob

end Boardlatch

namespace I2c

/-- The four-channel branch latch. -/
abbrev Mux :=
  WordLatch

/-- `NewMux`: disconnected. -/
def newMux : Mux :=
  { value := 8 }

namespace Mux

def name : List Byte :=
  ascii "i2c-mux"

/-- `Channel`: the active branch, unless the latch disconnects it. -/
def channel (m : Mux) : Option Byte :=
  if m.value &&& 8 = 0 then some ((m.value >>> 4 &&& 3).setWidth 8) else none

def snapshot (m : Mux) : Except String (List Byte) :=
  WordLatch.snapshot name m

def restore (blob : List Byte) : Except String Mux :=
  WordLatch.restore name "i2c mux: restore: " blob

end Mux

end I2c

namespace Osd

structure Display where
  roots : Fin 2 → Word := fun _ => 0

namespace Display

/-- The root register at an offset. -/
def root (off : Word) (size : Size) : Option (Fin 2) :=
  if size ≠ .word then none
  else if off = 0x200 then some 0
  else if off = 0x204 then some 1
  else none

def read (off : Word) (size : Size) (d : Display) : Word :=
  match root off size with
  | some reg => d.roots reg
  | none => 0

def write (off : Word) (size : Size) (value : Word) (d : Display) : Display :=
  match root off size with
  | some reg => { roots := Function.update d.roots reg value }
  | none => d

def registers (d : Display) : List Word :=
  [d.roots 0, d.roots 1]

def snapshot (d : Display) : Except String (List Byte) :=
  newWriter (ascii "osd-display") 1 |>.words d.registers |>.blob

def readSnapshot : Reading Display := do
  let roots ← Reading.words
  Reading.wrap "osd: display restore: " Reading.done
  Reading.require (decide (roots.length = 2)) "osd: display restore: invalid root count"
  return { roots := fun reg => roots.getD reg 0 }

def restore (blob : List Byte) : Except String Display :=
  restoring blob (ascii "osd-display") 1 1 "osd: display restore: " readSnapshot

def blobOf (d : Display) : List Byte :=
  Writer.frame (ascii "osd-display") 1 (encodeWords d.registers)

theorem registers_fit (d : Display) : d.registers.length < wordLimit :=
  show 2 < wordLimit by decide

theorem encode_fits (d : Display) : (encodeWords d.registers).length < wordLimit := by
  rw [encodeWords_length]
  exact show 4 * 2 + 4 < wordLimit by decide

theorem snapshot_eq (d : Display) : d.snapshot = .ok (blobOf d) := by
  rw [snapshot, newWriter_eq 1 (show ascii "osd-display" ≠ [] by decide) (by decide),
    Writer.words_mk _ _ _ (registers_fit d), List.nil_append]
  exact Writer.blob_mk _ _ _ (by decide) (encode_fits d)

theorem restore_blobOf (d : Display) : restore (blobOf d) = .ok d := by
  refine restoring_frame (by decide) (encode_fits d) (by decide) (by decide) ?_
  apply Parses.bind_last (.words (registers_fit d))
  apply Parses.wrapDone
  apply Parses.require rfl
  have roots : (fun reg : Fin 2 => d.registers.getD reg 0) = d.roots := by
    ext1 reg
    match reg with
    | 0 => rfl
    | 1 => rfl
  rw [roots]
  exact Parses.pure [] d

end Display

end Osd

namespace Audio

/-- `Size`: the window's length in bytes. -/
def windowSize : Nat :=
  0x10

structure Control where
  registers : BitVec 4 → Byte := fun _ => 0

namespace Control

def name : List Byte :=
  ascii "audio-control"

/-- `Read`: the measured zero status. -/
def read (_off : Word) (_size : Size) (_c : Control) : Word :=
  0

def write (off : Word) (size : Size) (value : Word) (c : Control) : Control :=
  if off.toNat < windowSize ∧ size = .byte then
    { registers := Function.update c.registers (off.setWidth 4) (value.setWidth 8) }
  else c

def snapshot (c : Control) : Except String (List Byte) :=
  newWriter name 1 |>.bytes (cells c.registers) |>.blob

def readSnapshot : Reading Control := do
  let registers ← Reading.bytes
  Reading.wrap "audio control: restore: " Reading.done
  Reading.require (decide (registers.length = windowSize))
    s!"audio control: restore: got {registers.length} register bytes, want {windowSize}"
  return { registers := ofCells 0 registers }

def restore (blob : List Byte) : Except String Control :=
  restoring blob name 1 1 "audio control: restore: " readSnapshot

def blobOf (c : Control) : List Byte :=
  Writer.frame name 1 (encodeBytes (cells c.registers))

theorem registers_fit (c : Control) : (cells c.registers).length < wordLimit := by
  rw [cells_length]
  decide

theorem encode_fits (c : Control) : (encodeBytes (cells c.registers)).length < wordLimit := by
  rw [encodeBytes_length, cells_length]
  decide

theorem snapshot_eq (c : Control) : c.snapshot = .ok (blobOf c) := by
  rw [snapshot, newWriter_eq 1 (show name ≠ [] by decide) (by decide),
    Writer.bytes_mk _ _ _ (registers_fit c), List.nil_append]
  exact Writer.blob_mk _ _ _ (by decide) (encode_fits c)

theorem restore_blobOf (c : Control) : restore (blobOf c) = .ok c := by
  refine restoring_frame (by decide) (encode_fits c) (by decide) (by decide) ?_
  apply Parses.bind_last (.bytes (registers_fit c))
  apply Parses.wrapDone
  apply Parses.require
  · rw [decide_eq_true_iff, cells_length]
    rfl
  rw [ofCells_cells]
  exact Parses.pure [] c

end Control

end Audio

end GoRetroTv
