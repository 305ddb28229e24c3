import GoRetroTv.AddressedCells
import GoRetroTv.SnapshotCodecLaws

/-!
# The nonvolatile store

`internal/device/eeprom/store.go`: sixteen kilobytes behind a fourteen-bit
address.
-/

namespace GoRetroTv

namespace Eeprom

open Snapcodec

def capacity : Nat :=
  16 * 1024

def pageSize : Nat :=
  64

structure Store where
  image : BitVec 14 → Byte := fun _ => 0xff

/-- `Read`: a byte at the chip address. -/
def read (off : Word) (s : Store) : Word :=
  (s.image (off.setWidth 14)).setWidth 32

/-- `Write`: program a byte at the chip address. -/
def write (off value : Word) (s : Store) : Store :=
  { s with image := Function.update s.image (off.setWidth 14) (value.setWidth 8) }

def snapshot (s : Store) : Except String (List Byte) :=
  newWriter (ascii "24c128") 1 |>.bytes (cells s.image) |>.blob

def readSnapshot : Reading Store := do
  let image ← Reading.bytes
  Reading.wrap "eeprom: restore: " Reading.done
  Reading.require (decide (image.length = capacity))
    s!"eeprom: restore: image has {image.length} bytes"
  return { image := ofCells 0 image }

def restore (blob : List Byte) : Except String Store :=
  restoring blob (ascii "24c128") 1 1 "eeprom: restore: " readSnapshot

/-- The bytes of a store's snapshot. -/
def blobOf (s : Store) : List Byte :=
  Writer.frame (ascii "24c128") 1 (encodeBytes (cells s.image))

theorem image_fits (s : Store) : (cells s.image).length < wordLimit := by
  rw [cells_length]
  decide

theorem payload_fits (s : Store) : (encodeBytes (cells s.image)).length < wordLimit := by
  rw [encodeBytes_length, cells_length]
  decide

theorem snapshot_eq (s : Store) : snapshot s = .ok (blobOf s) := by
  simp only [snapshot, newWriter_eq 1 (show ascii "24c128" ≠ [] by decide) (by decide)]
  rw [Writer.bytes_mk _ _ _ (image_fits s), List.nil_append]
  exact Writer.blob_mk _ _ _ (by decide) (payload_fits s)

theorem blobOf_fits (s : Store) : (blobOf s).length < wordLimit := by
  rw [blobOf, frame_length, encodeBytes_length, cells_length]
  decide

theorem restore_blobOf (s : Store) : restore (blobOf s) = .ok s := by
  refine restoring_frame (by decide) (payload_fits s) (by decide) (by decide) ?_
  apply Parses.bind_last (.bytes (image_fits s))
  apply Parses.wrapDone
  apply Parses.require
  · rw [decide_eq_true_iff, cells_length]
    rfl
  · rw [ofCells_cells]
    exact Parses.pure [] s

end Eeprom

end GoRetroTv
