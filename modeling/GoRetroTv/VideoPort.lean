import GoRetroTv.AddressedCells
import GoRetroTv.CpuCore
import GoRetroTv.SnapshotRecords

/-!
# The video RAM port

`internal/device/osd/video.go`: an address, mode and data port into one
megabyte of decoder memory, and the plane registers that read back.
-/

namespace GoRetroTv

namespace Osd

open Snapcodec Cpu

def vramSize : Nat :=
  2 ^ 20

/-- An offset into the decoder's memory. -/
abbrev VideoAddress := BitVec 20

def readbackOffsets : List Nat :=
  [0x90, 0x94, 0x98, 0x9c, 0xa0, 0xa4, 0xa8, 0xc0, 0xc4, 0xd0, 0xd4]

structure Video where
  data : VideoAddress → Byte := fun _ => 0
  addr : Word := 0
  mode : Word := 0
  readback : Fin 11 → Word := fun _ => 0

/-- The plane register at an offset. -/
def planeRegister (off : Word) : Option (Fin 11) :=
  (List.finRange 11).find? fun i => readbackOffsets.getD i 0 = off.toNat

namespace Video

def port (v : Video) : VideoAddress :=
  v.addr.setWidth 20

/-- The address after a word has passed the data port. -/
def advance (v : Video) : Word :=
  ((v.port + 4 : VideoAddress)).setWidth 32

/-- `Read`; the data port moves the address on. -/
def read (off : Word) (size : Size) (v : Video) : Word × Video :=
  if size ≠ .word then (0, v)
  else
    match off.toNat with
    | 0xb0 =>
        let at' := v.port
        ((v.data at').setWidth 32 <<< 24 ||| (v.data (at' + 1)).setWidth 32 <<< 16 |||
          (v.data (at' + 2)).setWidth 32 <<< 8 ||| (v.data (at' + 3)).setWidth 32,
          { v with addr := v.advance })
    | 0xb4 => (v.mode, v)
    | 0xb8 => (0, v)
    | 0xbc => (v.addr, v)
    | _ =>
        match planeRegister off with
        | some i => (v.readback i, v)
        | none => (0, v)

def write (off : Word) (size : Size) (value : Word) (v : Video) : Video :=
  if size ≠ .word then v
  else
    match off.toNat with
    | 0xb0 =>
        let data := (List.range 4).foldl
          (fun data i =>
            Function.update data (v.port + BitVec.ofNat 20 i)
              ((value >>> (24 - 8 * i)).setWidth 8))
          v.data
        { v with data, addr := v.advance }
    | 0xb4 => { v with mode := value }
    | 0xbc => { v with addr := value &&& 0xfffff }
    | _ =>
        match planeRegister off with
        | some i => { v with readback := Function.update v.readback i value }
        | none => v

/-- `Upload`: copy a plane into memory, wrapping at its end. -/
def upload (at' : Word) (plane : List Byte) (v : Video) : Video :=
  { v with
    data := plane.zipIdx.foldl
      (fun data entry =>
        Function.update data ((at' + BitVec.ofNat 32 entry.2).setWidth 20) entry.1)
      v.data }

def registers (v : Video) : List Word :=
  List.ofFn v.readback

def snapshot (v : Video) : Except String (List Byte) :=
  newWriter (ascii "video-ram") 1
    |>.uint32 v.addr
    |>.uint32 v.mode
    |>.words v.registers
    |>.bytes (cells v.data)
    |>.blob

def readSnapshot : Reading Video := do
  let addr ← Reading.uint32
  let mode ← Reading.uint32
  let regs ← Reading.words
  let data ← Reading.bytes
  Reading.wrap "osd: video restore: " Reading.done
  Reading.require (decide (addr.toNat < vramSize ∧ regs.length = 11 ∧ data.length = vramSize))
    "osd: video restore: invalid register or memory length"
  return { data := ofCells 0 data, addr, mode, readback := fun i => regs.getD i 0 }

def restore (blob : List Byte) : Except String Video :=
  restoring blob (ascii "video-ram") 1 1 "osd: video restore: " readSnapshot

/-- The port's address stays inside the memory. -/
def Inside (v : Video) : Prop :=
  v.addr.toNat < vramSize

theorem advance_inside (v : Video) : (v.advance).toNat < vramSize := by
  rw [advance, BitVec.toNat_setWidth]
  exact Nat.lt_of_le_of_lt (Nat.mod_le _ _) (BitVec.isLt _)

theorem read_inside {v : Video} (inside : v.Inside) (off : Word) (size : Size) :
    (v.read off size).2.Inside := by
  unfold read
  split
  · exact inside
  · split
    · exact v.advance_inside
    · exact inside
    · exact inside
    · exact inside
    · split <;> exact inside

theorem write_inside {v : Video} (inside : v.Inside) (off : Word) (size : Size) (value : Word) :
    (v.write off size value).Inside := by
  unfold write
  split
  · exact inside
  · split
    · exact v.advance_inside
    · exact inside
    · have masked : (value &&& 0xfffff).toNat ≤ 0xfffff := by
        rw [BitVec.toNat_and]
        exact Nat.and_le_right
      exact Nat.lt_of_le_of_lt masked (by decide)
    · split <;> exact inside

def encodeVideo (v : Video) : List Byte :=
  bigEndian 4 v.addr.toNat ++
    (bigEndian 4 v.mode.toNat ++ (encodeWords v.registers ++ encodeBytes (cells v.data)))

def blobOf (v : Video) : List Byte :=
  Writer.frame (ascii "video-ram") 1 (encodeVideo v)

@[simp]
theorem registers_length (v : Video) : v.registers.length = 11 :=
  List.length_ofFn

theorem registers_fit (v : Video) : v.registers.length < wordLimit := by
  rw [registers_length]
  decide

theorem data_fit (v : Video) : (cells v.data).length < wordLimit := by
  simp only [cells_length, wordLimit]
  omega

theorem encodeVideo_fits (v : Video) : (encodeVideo v).length < wordLimit := by
  simp only [encodeVideo, List.length_append, bigEndian_length, encodeWords_length,
    registers_length, encodeBytes_length, cells_length, wordLimit]
  omega

theorem snapshot_eq (v : Video) : v.snapshot = .ok (blobOf v) := by
  rw [snapshot, newWriter_eq 1 (show ascii "video-ram" ≠ [] by decide) (by decide),
    Writer.uint32_mk, Writer.uint32_mk, Writer.words_mk _ _ _ (registers_fit v),
    Writer.bytes_mk _ _ _ (data_fit v), List.nil_append, List.append_assoc, List.append_assoc]
  exact Writer.blob_mk _ _ _ (by decide) (encodeVideo_fits v)

theorem registers_getD (v : Video) : (fun i : Fin 11 => v.registers.getD i 0) = v.readback := by
  ext1 i
  rw [List.getD_eq_getElem?_getD, registers, List.getElem?_ofFn, dif_pos i.isLt]
  rfl

theorem restore_blobOf {v : Video} (inside : v.Inside) : restore (blobOf v) = .ok v := by
  refine restoring_frame (by decide) (encodeVideo_fits v) (by decide) (by decide) ?_
  unfold readSnapshot encodeVideo
  apply Parses.bind (.uint32 v.addr)
  apply Parses.bind (.uint32 v.mode)
  apply Parses.bind (.words (registers_fit v))
  apply Parses.bind_last (.bytes (data_fit v))
  apply Parses.wrapDone
  apply Parses.require
  · rw [decide_eq_true_iff, registers_length, cells_length]
    exact ⟨inside, rfl, rfl⟩
  rw [ofCells_cells, registers_getD]
  exact Parses.pure [] v

/-- A port that accepts its own snapshot is the same port. -/
theorem restore_snapshot {v restored : Video} {blob : List Byte} (taken : v.snapshot = .ok blob)
    (accepted : restore blob = .ok restored) : restored = v := by
  rw [snapshot_eq, Except.ok.injEq] at taken
  subst taken
  refine value_of_restoring_frame (by decide) (encodeVideo_fits v) ?_ accepted
  unfold readSnapshot encodeVideo
  refine .bind (.of_reads (.uint32 v.addr)) ?_
  refine .bind (.of_reads (.uint32 v.mode)) ?_
  refine .bind (.of_reads (.words (registers_fit v))) ?_
  refine .bind_last (.of_reads (.bytes (data_fit v))) ?_
  refine .bind_check (.wrap .done) ?_
  refine .bind_check (.require _ _) ?_
  rw [ofCells_cells, registers_getD]
  exact .pure v

end Video

end Osd

end GoRetroTv
