import GoRetroTv.BoardInterrupts
import GoRetroTv.Blitter
import GoRetroTv.VideoPort

/-!
# The media DMA controller

`internal/device/dma`: descriptor pointers, the channel enables that start a
transfer, and the completion bits.  Channel twelve feeds the graphics command
block, channel eight uploads to the video RAM, and the others only complete.
The DRAM, both of those and the interrupt controller are bound, as the board
binds them.
-/

namespace GoRetroTv

namespace Dma

open Snapcodec Cpu Memory

def channelCount : Nat :=
  14

def descriptorSize : Nat :=
  40

def irqMask : Word :=
  0x2

abbrev Channel := Fin channelCount

structure Controller where
  descriptors : Channel → Word := fun _ => 0
  enable : Word := 0
  statusA : Word := 0
  statusB : Word := 0
  fault : List Byte := []

/-- The controller with everything its channels reach. -/
structure Media where
  dma : Controller := {}
  ram : Ram := {}
  blitter : Graphics.Blitter := {}
  video : Osd.Video := {}
  wire : Irq.Wire := {}

def wordPart (word off : Word) (size : Size) : Word :=
  match size with
  | .word => word
  | .half => word >>> ((2 - (off &&& 2)) * 8).toNat &&& 0xffff
  | .byte => word >>> ((3 - (off &&& 3)) * 8).toNat &&& 0xff

/-- The channel whose descriptor pointer is at a register. -/
def descriptorRegister (reg : Word) : Option Channel :=
  (List.finRange channelCount).find? fun channel => 0x40 + 0x10 * channel.val = reg.toNat

def read (off : Word) (size : Size) (d : Controller) : Word :=
  let reg := off &&& ~~~3
  match reg.toNat with
  | 0x10 => wordPart d.enable off size
  | 0x120 => wordPart d.statusA off size
  | 0x140 => wordPart d.statusB off size
  | _ =>
      match descriptorRegister reg with
      | some channel => wordPart (d.descriptors channel) off size
      | none => 0

namespace Controller

/-- The level the controller drives. -/
def line (d : Controller) : Bool :=
  d.statusA &&& ~~~0x20 ||| d.statusB != 0

end Controller

namespace Media

/-- `updateLine`. -/
def updateLine (media : Media) : Media :=
  { media with wire := media.wire.setLine irqMask media.dma.line }

end Media

/-- A transfer changes the devices, and keeps what it changed where it fails. -/
abbrev Transfer := EStateM String Media

def dramRange (addr : Word) (length : Nat) : Transfer Word :=
  if 0x20000000 ≤ addr.toNat ∧ (addr.toNat < 0x80000000 ∨ 0xc0000000 ≤ addr.toNat) then
    throw ("DRAM address " ++ hexText 8 addr.toNat ++ " is not an unmapped alias")
  else
    let off := addr &&& 0x1fffffff
    if length = 0 ∨ dramSize < off.toNat + length ∨ wordLimit < addr.toNat + length then
      throw ("DRAM address " ++ hexText 8 addr.toNat ++ " outside board memory")
    else return off

def readDRAM (addr : Word) (size : Size) : Transfer Word := do
  let off ← dramRange addr size.bytes
  fun media =>
    let (value, ram) := media.ram.read off size
    .ok value { media with ram }

/-- Carry out a command of the blitter on the DRAM. -/
def drawing (draw : Graphics.Drawing Unit) : Transfer Unit := fun media =>
  match draw media.ram with
  | .ok value ram => .ok value { media with ram }
  | .error error ram => .error error { media with ram }

def transferLength (src ctl last : Word) : Nat :=
  if src.toNat ≤ last.toNat then last.toNat - src.toNat + 1 else (ctl &&& 0x3fff).toNat

/-- Channel twelve: load the command registers and execute them. -/
def drawCommand (src : Word) (length : Nat) : Transfer Unit := do
  if length < 15 * 4 then
    throw ("channel 12 command has " ++ toString length ++ " bytes; need 60")
  else
    (List.range (min (length / 4) 15)).forM fun i => do
      let value ← prefixing ("channel 12 command word " ++ toString i ++ ": ")
        (readDRAM (src + BitVec.ofNat 32 (i * 4)) .word)
      modify fun media => { media with
        blitter := Graphics.write (BitVec.ofNat 32 (i * 4)) .word value media.blitter }
    prefixing "channel 12 blitter: "
      (drawing (Graphics.executeRegisters (← get).blitter.words))

/-- Channel eight: upload a plane. -/
def uploadPlane (src : Word) (length : Nat) : Transfer Unit := do
  let plane ← (List.range length).mapM' fun i => do
    let value ← prefixing ("channel 8 source byte " ++ toString i ++ ": ")
      (readDRAM (src + BitVec.ofNat 32 i) .byte)
    return value.setWidth 8
  modify fun media =>
    let (at', video) := media.video.read 0xd0 .word
    { media with video := video.upload at' plane }

/-- The front of a channel's error text. -/
def label (channel : Channel) (what : String) : String :=
  "channel " ++ toString channel.val ++ " " ++ what

/-- The bytes a channel moves must lie in DRAM. -/
def checkSource (channel : Channel) (src : Word) (length : Nat) : Transfer Unit :=
  if channel.val = 8 ∨ channel.val = 12 then
    discard (prefixing (label channel "source: ") (dramRange src length))
  else pure ()

def moveData (channel : Channel) (src : Word) (length : Nat) : Transfer Unit :=
  match channel.val with
  | 12 => drawCommand src length
  | 8 => uploadPlane src length
  | _ => pure ()

def complete (channel : Channel) : Transfer Unit :=
  modify fun media =>
    let statusA := media.dma.statusA ||| (1 : Word) <<< channel.val
    { media with dma := { media.dma with statusA } }.updateLine

/-- `Run`: one descriptor, then the completion bit. -/
def run (channel : Channel) : Transfer Unit := do
  let descriptor := (← get).dma.descriptors channel
  if descriptor = 0 then throw (label channel "has no descriptor")
  else
    discard (prefixing (label channel "descriptor: ") (dramRange descriptor descriptorSize))
    let src ← prefixing (label channel "source: ") (readDRAM (descriptor + 12) .word)
    let ctl ← prefixing (label channel "control: ") (readDRAM (descriptor + 20) .word)
    let last ← prefixing (label channel "end: ") (readDRAM (descriptor + 32) .word)
    let length := transferLength src ctl last
    if length = 0 ∨ dramSize < length then
      throw (label channel ("length " ++ toString length ++ " exceeds board DRAM"))
    else
      checkSource channel src length
      moveData channel src length
      complete channel

/-- The newly enabled channels in order, until one fails. -/
def startChannels (started : Word) : Transfer Unit :=
  (List.finRange channelCount).forM fun channel =>
    if started &&& (1 : Word) <<< channel.val = 0 then pure () else run channel

def write (off : Word) (size : Size) (value : Word) (media : Media) : Media :=
  let reg := off &&& ~~~3
  let d := media.dma
  match reg.toNat with
  | 0x10 =>
      if size ≠ .word then media
      else
        match startChannels (value &&& ~~~d.enable) { media with dma := { d with enable := value } } with
        | .ok _ media => media
        | .error error media => { media with dma := { media.dma with fault := ascii error } }
  | 0x130 => { media with dma := { d with statusA := d.statusA &&& ~~~value } }.updateLine
  | 0x150 => { media with dma := { d with statusB := d.statusB &&& ~~~value } }.updateLine
  | _ =>
      match descriptorRegister reg with
      | some channel =>
          if size ≠ .word then media
          else { media with
            dma := { d with descriptors := Function.update d.descriptors channel value } }
      | none => media

def reset (media : Media) : Media :=
  { media with dma := {} }.updateLine

namespace Controller

def pointers (d : Controller) : List Word :=
  List.ofFn d.descriptors

def snapshot (d : Controller) : Except String (List Byte) :=
  newWriter (ascii "media-dma") 1
    |>.words d.pointers
    |>.words [d.enable, d.statusA, d.statusB]
    |>.string d.fault
    |>.blob

def readSnapshot : Reading Controller := do
  let descriptors ← Reading.words
  let regs ← Reading.words
  let fault ← Reading.string
  Reading.wrap "dma: restore: " Reading.done
  Reading.require
    (decide (descriptors.length = channelCount ∧ regs.length = 3 ∧ fault.length ≤ 256))
    "dma: restore: invalid register state"
  return {
    descriptors := fun channel => descriptors.getD channel 0
    enable := regs.getD 0 0
    statusA := regs.getD 1 0
    statusB := regs.getD 2 0
    fault }

end Controller

def restore (blob : List Byte) (media : Media) : Except String Media := do
  let dma ← restoring blob (ascii "media-dma") 1 1 "dma: restore: " Controller.readSnapshot
  return { media with dma }.updateLine

end Dma

end GoRetroTv
