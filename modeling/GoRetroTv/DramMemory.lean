import GoRetroTv.AddressedCells
import GoRetroTv.CpuCore
import GoRetroTv.SnapshotCodecLaws

/-!
# The board's DRAM

`internal/memory/ram.go`: thirty-two megabytes with a set of dirty pages.  An
access that runs past the end is counted and sees zeros there.
-/

namespace GoRetroTv

def Cpu.Size.bytes : Cpu.Size → Nat
  | .byte => 1
  | .half => 2
  | .word => 4

namespace Memory

open Snapcodec Cpu

def dramBase : Word :=
  0x80000000

def dramSize : Nat :=
  32 * 2 ^ 20

theorem dramSize_eq : dramSize = 2 ^ 25 := by
  simp only [dramSize, Nat.reducePow, Nat.reduceMul]

def dirtyPageLen : Nat :=
  4096

structure Ram where
  bytes : BitVec 25 → Byte := fun _ => 0
  dirty : BitVec 7 → DoubleWord := fun _ => 0
  straddled : DoubleWord := 0

namespace Ram

/-- The byte at an offset, zero past the end. -/
def byteAt (off : Word) (r : Ram) : Byte :=
  if off.toNat < dramSize then r.bytes (off.setWidth 25) else 0

/-- The big-endian value of the bytes at an offset. -/
def peek (off : Word) (size : Size) (r : Ram) : Word :=
  (List.range size.bytes).foldl
    (fun v i => v <<< 8 ||| (r.byteAt (off + BitVec.ofNat 32 i)).setWidth 32) 0

theorem peek_byte {off : Word} {r : Ram} : r.peek off .byte = (r.byteAt off).setWidth 32 := by
  change (0 : Word) <<< 8 ||| (r.byteAt (off + BitVec.ofNat 32 0)).setWidth 32 = _
  have zero : (0 : Word) <<< 8 = 0 := BitVec.zero_shiftLeft 8
  rw [show off + BitVec.ofNat 32 0 = off from BitVec.add_zero off, zero]
  exact BitVec.zero_or

/-- `Read`. -/
def read (off : Word) (size : Size) (r : Ram) : Word × Ram :=
  if off.toNat + size.bytes ≤ dramSize then (r.peek off size, r)
  else (r.peek off size, { r with straddled := r.straddled + 1 })

/-- `markDirty`: the pages of `n` bytes from an offset. -/
def markDirty (off : Word) (n : Nat) (r : Ram) : Ram :=
  let first := off.toNat / dirtyPageLen
  let last := (off.toNat + n - 1) / dirtyPageLen
  (List.range' first (last + 1 - first)).foldl
    (fun r p =>
      let slot : BitVec 7 := BitVec.ofNat 7 (p / 64)
      { r with dirty := Function.update r.dirty slot (r.dirty slot ||| (1 : DoubleWord) <<< (p % 64)) })
    r

/-- Byte `i` of a big-endian value. -/
def byteOf (size : Size) (value : Word) (i : Nat) : Byte :=
  (value >>> ((size.bytes - 1 - i) * 8)).setWidth 8

def poke (off : Word) (byte : Byte) (r : Ram) : Ram :=
  { r with bytes := Function.update r.bytes (off.setWidth 25) byte }

/-- `writeStraddling`. -/
def writeStraddling (off : Word) (size : Size) (value : Word) (r : Ram) : Ram :=
  (List.range size.bytes).foldl
    (fun r i =>
      let a := off + BitVec.ofNat 32 i
      if a.toNat < dramSize then (r.poke a (byteOf size value i)).markDirty a 1 else r)
    { r with straddled := r.straddled + 1 }

/-- `Write`. -/
def write (off : Word) (size : Size) (value : Word) (r : Ram) : Ram :=
  if off.toNat + size.bytes ≤ dramSize then
    ((List.range size.bytes).foldl
      (fun r i => r.poke (off + BitVec.ofNat 32 i) (byteOf size value i)) r).markDirty off size.bytes
  else r.writeStraddling off size value

def writeDirty (dirty : List DoubleWord) (w : Writer) : Writer :=
  dirty.foldl (fun w word => w.uint64 word) w

def snapshot (r : Ram) : Except String (List Byte) :=
  let w := newWriter (ascii "dram") 1
    |>.bytes (cells r.bytes)
    |>.uint64 r.straddled
    |>.uint32 (BitVec.ofNat 32 (cells r.dirty).length)
  labelled "memory: snapshot dram: " (writeDirty (cells r.dirty) w).blob

def readDirty : Nat → Reading (List DoubleWord)
  | 0 => pure []
  | remaining + 1 => do
      let word ← Reading.uint64
      return word :: (← readDirty remaining)

def readSnapshot : Reading Ram := do
  let contents ← Reading.bytes
  let straddled ← Reading.uint64
  let words ← Reading.uint32
  Reading.wrap "memory: restore dram: " Reading.check
  Reading.require (decide (contents.length = dramSize))
    ("memory: restore dram: snapshot holds " ++
      s!"{contents.length} bytes of DRAM and this machine has {dramSize}")
  Reading.require (decide (words.toNat = 128))
    ("memory: restore dram: snapshot holds " ++
      s!"{words.toNat} dirty-set words and this machine has 128")
  let dirty ← readDirty words.toNat
  Reading.wrap "memory: restore dram: " Reading.done
  return { bytes := ofCells 0 contents, dirty := ofCells 0 dirty, straddled }

def restore (blob : List Byte) : Except String Ram :=
  restoring blob (ascii "dram") 1 1 "memory: restore dram: " readSnapshot

def encodeDirty (dirty : List DoubleWord) : List Byte :=
  dirty.flatMap fun word => bigEndian 8 word.toNat

theorem encodeDirty_length (dirty : List DoubleWord) :
    (encodeDirty dirty).length = 8 * dirty.length := by
  induction dirty with
  | nil => rfl
  | cons word dirty ih =>
      simp only [encodeDirty, List.flatMap_cons, List.length_append, bigEndian_length,
        List.length_cons] at ih ⊢
      omega

def encodeRam (r : Ram) : List Byte :=
  encodeBytes (cells r.bytes) ++
    (bigEndian 8 r.straddled.toNat ++
      (bigEndian 4 (BitVec.ofNat 32 (cells r.dirty).length).toNat ++ encodeDirty (cells r.dirty)))

theorem writeDirty_mk (dirty : List DoubleWord) (name : List Byte) (version : Half)
    (payload : List Byte) :
    writeDirty dirty ⟨name, version, payload, none⟩ =
      ⟨name, version, payload ++ encodeDirty dirty, none⟩ := by
  unfold writeDirty
  induction dirty generalizing payload with
  | nil => simp [encodeDirty]
  | cons word dirty ih =>
      rw [List.foldl_cons, Writer.uint64_mk, ih]
      simp [encodeDirty]

theorem bytes_fit (r : Ram) : (cells r.bytes).length < wordLimit := by
  simp only [cells_length, wordLimit]
  omega

theorem encodeRam_fits (r : Ram) : (encodeRam r).length < wordLimit := by
  simp only [encodeRam, List.length_append, encodeBytes_length, encodeDirty_length, cells_length,
    bigEndian_length, wordLimit]
  omega

def blobOf (r : Ram) : List Byte :=
  Writer.frame (ascii "dram") 1 (encodeRam r)

theorem snapshot_eq (r : Ram) : r.snapshot = .ok (blobOf r) := by
  have written : Writer.blob ⟨ascii "dram", 1, encodeRam r, none⟩ = .ok (blobOf r) :=
    Writer.blob_mk _ _ _ (by decide) (encodeRam_fits r)
  rw [snapshot, newWriter_eq 1 (show ascii "dram" ≠ [] by decide) (by decide),
    Writer.bytes_mk _ _ _ (bytes_fit r), Writer.uint64_mk, Writer.uint32_mk, writeDirty_mk,
    List.nil_append, List.append_assoc, List.append_assoc]
  rw [encodeRam] at written
  rw [written, labelled]

theorem reads_readDirty (dirty : List DoubleWord) :
    Reads (readDirty dirty.length) (encodeDirty dirty) dirty := by
  induction dirty with
  | nil => exact Reads.pure []
  | cons word dirty ih => exact Reads.bind (.uint64 word) (Reads.map (word :: ·) ih)

theorem restore_blobOf (r : Ram) : restore (blobOf r) = .ok r := by
  have words : (BitVec.ofNat 32 (cells r.dirty).length).toNat = (cells r.dirty).length := by
    exact toNat_ofNat_of_lt_wordLimit (by simp only [cells_length, wordLimit]; decide)
  refine restoring_frame (by decide) (encodeRam_fits r) (by decide) (by decide) ?_
  unfold readSnapshot encodeRam
  apply Parses.bind (.bytes (bytes_fit r))
  apply Parses.bind (.uint64 r.straddled)
  apply Parses.bind (.uint32 _)
  apply Parses.wrapCheck
  apply Parses.require
  · rw [decide_eq_true_iff, cells_length, dramSize_eq]
  apply Parses.require
  · rw [decide_eq_true_iff, words, cells_length]
    rfl
  rw [words]
  apply Parses.bind_last (reads_readDirty (cells r.dirty))
  apply Parses.wrapDone
  rw [ofCells_cells, ofCells_cells]
  exact Parses.pure [] r

end Ram

end Memory

end GoRetroTv
