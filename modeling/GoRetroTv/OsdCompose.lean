import GoRetroTv.BoardLatches
import GoRetroTv.DramAccess
import GoRetroTv.Blitter

/-!
# The on-screen display

`internal/device/osd/compose.go`: the display list's first entry describes a plane in DRAM,
and the picture is its pixels as indices into a palette.
-/

namespace GoRetroTv

namespace Osd

open Cpu Memory

/-- The plane at the display-list root. -/
structure Descriptor where
  width : Word
  height : Word
  depth : Word
  field0 : Word
  field1 : Word
  clut : Word
  deriving DecidableEq

/-- A palette entry before it is decoded. -/
structure PaletteEntry where
  y : Word
  cb : Word
  cr : Word
  deriving DecidableEq

/-- An indexed picture, by its lines. -/
structure Frame where
  palette : List PaletteEntry
  lines : List (List Byte)

def readRAM (addr : Word) (size : Size) (ram : Ram) : Except String Word :=
  match physical addr with
  | some off =>
      if off.toNat + size.bytes ≤ dramSize then .ok (ram.read off size).1
      else .error s!"osd: display address {hexText 8 addr.toNat} outside board DRAM"
  | none => .error s!"osd: display address {hexText 8 addr.toNat} outside board DRAM"

def displayPointer (word : Word) : Word :=
  if word &&& 0x00ffffff = 0 then 0 else 0xa0000000 ||| word &&& 0x00ffffff

/-- `Descriptor`: none where no plane has been programmed. -/
def Display.descriptor (d : Display) (ram : Ram) : Except String (Option Descriptor) := do
  let root := d.roots ⟨0, Nat.zero_lt_two⟩
  if root &&& 0x01000000 = 0 then return none
  let entry := displayPointer root
  if entry = 0 then throw "osd: enabled root has no descriptor address"
  let hMinus1 ← readRAM (entry + 0x08) .half ram
  let wMinus1 ← readRAM (entry + 0x0a) .half ram
  let clutWord ← readRAM (entry + 0x0c) .word ram
  let f0Word ← readRAM (entry + 0x10) .word ram
  let f1Word ← readRAM (entry + 0x14) .word ram
  let desc : Descriptor := {
    width := wMinus1 + 1
    height := hMinus1 + 1
    depth := (1 : Word) <<< (f0Word >>> 25 &&& 3).toNat
    field0 := displayPointer f0Word
    field1 := displayPointer f1Word
    clut := displayPointer clutWord }
  if desc.width < 2 ∨ 2048 < desc.width ∨ desc.height < 2 ∨ 1152 < desc.height ∨ desc.field0 = 0 then
    throw "osd: invalid display-list geometry or field pointer"
  return some desc

/-- `palette`: grey where there is no table. -/
def palette (desc : Descriptor) (ram : Ram) : Except String (List PaletteEntry) :=
  let n := 2 ^ desc.depth.toNat
  (List.range n).mapM fun i =>
    if desc.clut = 0 then
      return { y := BitVec.ofNat 32 (i * 255 / (n - 1)), cb := 128, cr := 128 }
    else do
      let word ← readRAM (desc.clut + BitVec.ofNat 32 (i / 2) * 4) .word ram
      let entry := if i % 2 = 1 then word &&& 0xffff else word >>> 16
      return {
        y := (entry >>> 8 &&& 0x3f) <<< 2
        cb := (entry >>> 4 &&& 0xf) <<< 4
        cr := (entry &&& 0xf) <<< 4 }

/-- Bytes in a line. -/
def stride (desc : Descriptor) : Word :=
  (desc.width * desc.depth + 7) / 8

/-- Where a line starts: the lines of two fields alternate. -/
def lineAddress (desc : Descriptor) (y : Word) : Word :=
  if desc.field1 = 0 then desc.field0 + y * stride desc
  else (if y &&& 1 ≠ 0 then desc.field1 else desc.field0) + y / 2 * stride desc

/-- A pixel of a line. -/
def readPixel (desc : Descriptor) (ram : Ram) (line x : Word) : Except String Byte := do
  let bit := x * desc.depth
  let value ← readRAM (line + bit / 8) .byte ram
  let shift := 8 - desc.depth - (bit &&& 7)
  return (value >>> shift.toNat &&& ((1 : Word) <<< desc.depth.toNat - 1)).setWidth 8

/-- `Compose`.  Nothing has been programmed: a black picture. -/
def Display.compose (d : Display) (ram : Ram) : Except String Frame := do
  match ← d.descriptor ram with
  | none => return { palette := [], lines := List.replicate 576 (List.replicate 720 0) }
  | some desc =>
      let palette ← palette desc ram
      let lines ← (List.range desc.height.toNat).mapM fun y =>
        (List.range desc.width.toNat).mapM fun x =>
          readPixel desc ram (lineAddress desc (BitVec.ofNat 32 y)) (BitVec.ofNat 32 x)
      return { palette, lines }

end Osd

end GoRetroTv
