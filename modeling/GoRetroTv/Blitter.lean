import GoRetroTv.DramMemory
import GoRetroTv.FallibleActions

/-!
# The graphics command block

`internal/device/blitter`: fifteen command words and the fill or copy they
describe, carried out over DRAM.  A command that reads or writes outside DRAM
stops there and leaves what it had drawn.
-/

namespace GoRetroTv

namespace Graphics

open Snapcodec Cpu Memory

structure Blitter where
  words : Fin 15 → Word := fun _ => 0
  control : Word := 0

/-- The command word at a register offset. -/
def commandRegister (off : Word) : Option (Fin 15) :=
  (List.finRange 15).find? fun i => 4 * i.val = off.toNat

def read (off : Word) (size : Size) (b : Blitter) : Word :=
  if size ≠ .word then 0
  else
    match commandRegister off with
    | some i => b.words i
    | none => if off = 0x3c then b.control else 0

def write (off : Word) (size : Size) (value : Word) (b : Blitter) : Blitter :=
  if size ≠ .word then b
  else
    match commandRegister off with
    | some i => { b with words := Function.update b.words i value }
    | none => if off = 0x3c then { b with control := value } else b

structure PixelFormat where
  bpp : Word
  planar : Word := 0

structure Surface where
  f0 : Word
  f1 : Word := 0
  c0 : Word := 0
  c1 : Word := 0
  pitchPx : Word
  x : Word := 0
  y : Word := 0

/-- Drawing changes DRAM, and keeps what it changed where it fails. -/
abbrev Drawing := EStateM String Ram

def format (op : Word) : Except String PixelFormat :=
  if op &&& 0xf0000 = 0xf0000 then .ok { bpp := 16 }
  else
    match (op >>> 18 &&& 7).toNat with
    | 0 => .ok { bpp := 1 }
    | 1 => .ok { bpp := 2 }
    | 2 => .ok { bpp := 4 }
    | 3 => .ok { bpp := 8 }
    | 6 => .ok { bpp := 8, planar := 1 }
    | 7 => .ok { bpp := 8, planar := 2 }
    | f => .error s!"blitter: unsupported pixel format {f}"

def physical (v : Word) : Word :=
  v &&& 0x1fffffff ||| dramBase

def side (words : Fin 15 → Word) (at' : Fin 10) : Surface :=
  let word (i : Fin 6) := words ⟨at' + i, by omega⟩
  { f0 := physical (word 0)
    f1 := physical (word 1)
    c0 := physical (word 2)
    c1 := physical (word 3)
    pitchPx := (word 4 &&& 0xffff) + 1
    x := word 5 &&& 0x7ff
    y := word 5 >>> 16 &&& 0x3ff }

def insideDram (addr : Word) (length : Nat) : Bool :=
  dramBase.toNat ≤ addr.toNat && (addr - dramBase).toNat + length ≤ dramSize

def sourceDescriptorPresent (words : Fin 15 → Word) : Bool :=
  let s := side words 1
  dramBase.toNat ≤ s.f0.toNat && s.f0.toNat < dramBase.toNat + dramSize &&
    s.pitchPx.toNat ≤ 2048 && words 6 >>> 26 == 0

def rowAddress (s : Surface) (line : Word) (fieldPair chroma : Bool) (f : PixelFormat) : Word :=
  let odd := fieldPair && line &&& 1 != 0
  let base :=
    if chroma then (if odd then s.c1 else s.c0) else if odd then s.f1 else s.f0
  let row :=
    if chroma && f.planar == 2 then (if fieldPair then line >>> 2 else line >>> 1)
    else if fieldPair then line >>> 1 else line
  base + row * ((s.pitchPx * f.bpp) >>> 3)

def readDram (addr : Word) (size : Size) : Drawing Word := fun ram =>
  if insideDram addr size.bytes then
    let (value, ram) := ram.read (addr - dramBase) size
    .ok value ram
  else .error s!"blitter: source address {hexText 8 addr.toNat} outside board DRAM" ram

def writeDram (addr : Word) (size : Size) (value : Word) : Drawing Unit := fun ram =>
  if insideDram addr size.bytes then .ok () (ram.write (addr - dramBase) size value)
  else .error s!"blitter: destination address {hexText 8 addr.toNat} outside board DRAM" ram

/-- The place of a pixel within its byte. -/
def pixelShift (col bpp : Word) : Nat :=
  (8 - bpp - (col * bpp &&& 7)).toNat

def get (row col bpp : Word) : Drawing Word := do
  if bpp = 16 then readDram (row + col * 2) .half
  else if bpp = 8 then readDram (row + col) .byte
  else
    let word ← readDram (row + col * bpp / 8) .byte
    return word >>> pixelShift col bpp &&& ((1 : Word) <<< bpp.toNat - 1)

def put (row col bpp value : Word) : Drawing Unit := do
  if bpp = 16 then writeDram (row + col * 2) .half (value &&& 0xffff)
  else if bpp = 8 then writeDram (row + col) .byte (value &&& 0xff)
  else
    let at' := row + col * bpp / 8
    let old ← readDram at' .byte
    let shift := pixelShift col bpp
    let mask := ((1 : Word) <<< bpp.toNat - 1) <<< shift
    writeDram at' .byte (old &&& ~~~mask ||| value <<< shift &&& mask)

/-- Fill a rectangle. -/
def fill (dst : Surface) (fieldPair : Bool) (f : PixelFormat) (width height : Nat)
    (value : Word) : Drawing Unit :=
  (List.range height).forM fun y =>
    let row := rowAddress dst (dst.y + BitVec.ofNat 32 y) fieldPair false f
    (List.range width).forM fun x => put row (dst.x + BitVec.ofNat 32 x) f.bpp value

/-- The pixels of a rectangle, read before any is written. -/
def readPixels (src : Surface) (fieldPair : Bool) (f : PixelFormat) (width height : Nat) :
    Drawing (List (List Word)) :=
  (List.range height).mapM' fun y =>
    let row := rowAddress src (src.y + BitVec.ofNat 32 y) fieldPair false f
    (List.range width).mapM' fun x => get row (src.x + BitVec.ofNat 32 x) f.bpp

def writePixels (dst : Surface) (fieldPair : Bool) (f : PixelFormat)
    (pixels : List (List Word)) : Drawing Unit :=
  pixels.zipIdx.forM fun line =>
    let row := rowAddress dst (dst.y + BitVec.ofNat 32 line.2) fieldPair false f
    line.1.zipIdx.forM fun pixel =>
      put row (dst.x + BitVec.ofNat 32 pixel.2) f.bpp (pixel.1 &&& 0xffff)

/-- The chroma lines of a copy: every line, or every other one. -/
def chromaLines (f : PixelFormat) (height : Nat) : List Nat :=
  (List.range height).filter fun y => f.planar ≠ 2 ∨ y % 2 = 0

/-- The chroma bytes of a planar copy, whole pairs of columns. -/
def copyChroma (src dst : Surface) (fieldPair : Bool) (f : PixelFormat) (width height : Nat) :
    Drawing Unit := do
  let cx0 := src.x &&& ~~~1
  let cx1 := (src.x + BitVec.ofNat 32 width + 1) &&& ~~~1
  let dcx0 := dst.x &&& ~~~1
  let columns := (cx1 - cx0).toNat
  let chroma ← (chromaLines f height).mapM' fun y =>
    let row := rowAddress src (src.y + BitVec.ofNat 32 y) fieldPair true f
    (List.range columns).mapM' fun x => readDram (row + (cx0 + BitVec.ofNat 32 x)) .byte
  ((chromaLines f height).zip chroma).forM fun line =>
    let row := rowAddress dst (dst.y + BitVec.ofNat 32 line.1) fieldPair true f
    line.2.zipIdx.forM fun byte =>
      writeDram (row + dcx0 + BitVec.ofNat 32 byte.2) .byte (byte.1 &&& 0xff)

/-- A copy, from a surface or from packed rows. -/
def copy (words : Fin 15 → Word) (f : PixelFormat) (width height : Nat) : Drawing Unit := do
  let dst := side words 7
  let fieldPair := words 0 &&& 0x600000 != 0
  let packed := !sourceDescriptorPresent words
  if packed && f.planar != 0 then
    throw "blitter: planar copy needs a complete source descriptor"
  else
    let src : Surface :=
      if packed then { f0 := physical (words 1), pitchPx := BitVec.ofNat 32 width }
      else side words 1
    let pixels ← readPixels src (!packed && fieldPair) f width height
    writePixels dst fieldPair f pixels
    if f.planar != 0 then copyChroma src dst fieldPair f width height

/-- `ExecuteRegisters`: the command in the registers. -/
def executeRegisters (words : Fin 15 → Word) : Drawing Unit := do
  match format (words 0) with
  | .error error => throw error
  | .ok f =>
      let width := (words 13 &&& 0x7ff).toNat + 1
      let height := (words 13 >>> 16 &&& 0x3ff).toNat + 1
      if words 0 &&& 0x1000000 != 0 then
        let value := if f.bpp = 16 then words 14 >>> 16 else words 14 &&& 0xff
        fill (side words 7) (words 0 &&& 0x600000 != 0) f width height value
      else copy words f width height

/-- What a copy command says: its format, its rectangle, and the two surfaces with whether
their lines lie in two fields. -/
structure Copying where
  f : PixelFormat
  width : Nat
  height : Nat
  src : Surface
  dst : Surface
  srcFields : Bool
  fields : Bool

/-- The copy of a command. -/
def copying (words : Fin 15 → Word) (f : PixelFormat) : Copying :=
  let width := (words 13 &&& 0x7ff).toNat + 1
  let fieldPair := words 0 &&& 0x600000 != 0
  let packed := !sourceDescriptorPresent words
  { f
    width
    height := (words 13 >>> 16 &&& 0x3ff).toNat + 1
    src :=
      if packed then { f0 := physical (words 1), pitchPx := BitVec.ofNat 32 width }
      else side words 1
    dst := side words 7
    srcFields := !packed && fieldPair
    fields := fieldPair }

namespace Blitter

def registers (b : Blitter) : List Word :=
  List.ofFn b.words

def snapshot (b : Blitter) : Except String (List Byte) :=
  newWriter (ascii "blitter") 1 |>.words b.registers |>.uint32 b.control |>.blob

def readSnapshot : Reading Blitter := do
  let words ← Reading.words
  let control ← Reading.uint32
  Reading.wrap "blitter: restore: " Reading.done
  Reading.require (decide (words.length = 15)) "blitter: restore: invalid word count"
  return { words := fun i => words.getD i 0, control }

def restore (blob : List Byte) : Except String Blitter :=
  restoring blob (ascii "blitter") 1 1 "blitter: restore: " readSnapshot

@[simp]
theorem registers_length (b : Blitter) : b.registers.length = 15 :=
  List.length_ofFn

theorem registers_fit (b : Blitter) : b.registers.length < wordLimit := by
  rw [registers_length]
  decide

def encodeBlitter (b : Blitter) : List Byte :=
  encodeWords b.registers ++ bigEndian 4 b.control.toNat

def blobOf (b : Blitter) : List Byte :=
  Writer.frame (ascii "blitter") 1 (encodeBlitter b)

theorem encodeBlitter_fits (b : Blitter) : (encodeBlitter b).length < wordLimit := by
  simp only [encodeBlitter, List.length_append, encodeWords_length, registers_length,
    bigEndian_length]
  decide

theorem snapshot_eq (b : Blitter) : b.snapshot = .ok (blobOf b) := by
  rw [snapshot, newWriter_eq 1 (show ascii "blitter" ≠ [] by decide) (by decide),
    Writer.words_mk _ _ _ (registers_fit b), Writer.uint32_mk, List.nil_append]
  exact Writer.blob_mk _ _ _ (by decide) (encodeBlitter_fits b)

theorem registers_getD (b : Blitter) : (fun i : Fin 15 => b.registers.getD i 0) = b.words := by
  ext1 i
  rw [List.getD_eq_getElem?_getD, registers, List.getElem?_ofFn, dif_pos i.isLt]
  rfl

theorem restore_blobOf (b : Blitter) : restore (blobOf b) = .ok b := by
  refine restoring_frame (by decide) (encodeBlitter_fits b) (by decide) (by decide) ?_
  unfold readSnapshot encodeBlitter
  apply Parses.bind (.words (registers_fit b))
  apply Parses.bind_last (.uint32 b.control)
  apply Parses.wrapDone
  apply Parses.require
  · rw [decide_eq_true_iff, registers_length]
  rw [registers_getD]
  exact Parses.pure [] b

end Blitter

theorem outside_length (addr : Word) {place : String} (short : place.length ≤ 30) :
    (place ++ hexText 8 addr.toNat ++ " outside board DRAM").length ≤ 64 := by
  have outside : (" outside board DRAM").length = 19 := rfl
  rw [String.length_append, String.length_append, hexText_length (by decide) addr.isLt, outside]
  omega

theorem readDram_fails (addr : Word) (size : Size) : FailsWithin 64 (readDram addr size) := by
  unfold readDram
  intro ram error ram' failed
  split at failed
  · cases failed
  · cases failed
    exact outside_length addr (by decide)

theorem writeDram_fails (addr : Word) (size : Size) (value : Word) :
    FailsWithin 64 (writeDram addr size value) := by
  unfold writeDram
  intro ram error ram' failed
  split at failed
  · cases failed
  · cases failed
    exact outside_length addr (by decide)

theorem get_fails (row col bpp : Word) : FailsWithin 64 (get row col bpp) := by
  unfold get
  split
  · exact readDram_fails _ _
  · split
    · exact readDram_fails _ _
    · exact .bind (readDram_fails _ _) fun _ => .pure _

theorem put_fails (row col bpp value : Word) : FailsWithin 64 (put row col bpp value) := by
  unfold put
  split
  · exact writeDram_fails _ _ _
  · split
    · exact writeDram_fails _ _ _
    · exact .bind (readDram_fails _ _) fun _ => writeDram_fails _ _ _

theorem fill_fails (dst : Surface) (fieldPair : Bool) (f : PixelFormat) (width height : Nat)
    (value : Word) : FailsWithin 64 (fill dst fieldPair f width height value) := by
  apply FailsWithin.forM
  intro y _
  apply FailsWithin.forM
  intro x _
  exact put_fails _ _ _ _

theorem readPixels_fails (src : Surface) (fieldPair : Bool) (f : PixelFormat)
    (width height : Nat) : FailsWithin 64 (readPixels src fieldPair f width height) := by
  apply FailsWithin.mapM'
  intro y _
  apply FailsWithin.mapM'
  intro x _
  exact get_fails _ _ _

theorem writePixels_fails (dst : Surface) (fieldPair : Bool) (f : PixelFormat)
    (pixels : List (List Word)) : FailsWithin 64 (writePixels dst fieldPair f pixels) := by
  apply FailsWithin.forM
  intro line _
  apply FailsWithin.forM
  intro pixel _
  exact put_fails _ _ _ _

theorem copyChroma_fails (src dst : Surface) (fieldPair : Bool) (f : PixelFormat)
    (width height : Nat) : FailsWithin 64 (copyChroma src dst fieldPair f width height) := by
  apply FailsWithin.bind
  · apply FailsWithin.mapM'
    intro y _
    apply FailsWithin.mapM'
    intro x _
    exact readDram_fails _ _
  · intro chroma
    apply FailsWithin.forM
    intro line _
    apply FailsWithin.forM
    intro byte _
    exact writeDram_fails _ _ _

theorem copy_fails (words : Fin 15 → Word) (f : PixelFormat) (width height : Nat) :
    FailsWithin 64 (copy words f width height) := by
  unfold copy
  dsimp only
  split
  · exact .throw (by decide)
  · apply FailsWithin.bind (readPixels_fails _ _ _ _ _)
    intro pixels
    apply FailsWithin.bind (writePixels_fails _ _ _ _)
    intro _
    split
    · exact copyChroma_fails _ _ _ _ _ _
    · exact .pure _

theorem format_fails {op : Word} {error : String} (failed : format op = .error error) :
    error.length ≤ 64 := by
  unfold format at failed
  split at failed
  · cases failed
  · split at failed
    all_goals try cases failed
    have small : (op >>> 18 &&& 7).toNat < 10 ^ 1 := by
      rw [BitVec.toNat_and]
      exact Nat.lt_of_le_of_lt Nat.and_le_right (by decide)
    have digits := length_repr_le (by decide) small
    have text : ("blitter: unsupported pixel format ").length = 34 := rfl
    show ("blitter: unsupported pixel format " ++ toString _).length ≤ 64
    rw [String.length_append, text]
    omega

/-- No command fails with a longer text than this. -/
theorem executeRegisters_fails (words : Fin 15 → Word) :
    FailsWithin 64 (executeRegisters words) := by
  unfold executeRegisters
  split
  next error failed => exact .throw (format_fails failed)
  · dsimp only
    split
    · exact fill_fails _ _ _ _ _ _
    · exact copy_fails _ _ _ _

end Graphics

end GoRetroTv
