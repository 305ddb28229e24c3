import GoRetroTv.BoardAcceptance
import GoRetroTv.BusDecoding
import GoRetroTv.DeviceBounds
import GoRetroTv.TransportRecovery

/-!
# Reads and writes of the board

The bus as the processor uses it: an access reaches the device whose window holds the address,
at its offset there, and an access that reaches none reads zero.  No access takes a device
beyond what it accepts of its own snapshot.
-/

namespace GoRetroTv

open Cpu

namespace Region

/-- The window of a region in physical memory. -/
def window (r : Region) : MemoryMap.Region Region where
  base := r.base
  size := r.size
  dev := r

/-- The region that an address reaches, and the offset in it. -/
def reach (virt : Word) : Option (Region × Word) :=
  (physical virt).bind fun phys =>
    (MemoryMap.scan phys (regions.map window)).map fun r => (r.dev, phys - r.base)

end Region

namespace Board

/-- `Read` of the device at a region. -/
def readAt (b : Board) (off : Word) (size : Size) : Region → Word × Board
  | .dram => ((b.ram.read off size).1, b.put .dram (b.ram.read off size).2)
  | .irq => (Irq.read off size b.wire.toController, b)
  | .video => ((b.video.read off size).1, b.put .video (b.video.read off size).2)
  | .display => (b.display.read off size, b)
  | .blitter => (Graphics.read off size b.blitter, b)
  | .dma => (Dma.read off size b.dma, b)
  | .demux => (b.demux.read off size, b)
  | .timer => (b.timer.read off size, b)
  | .modem => ((b.modem.read off size).1, b.put .modem (b.modem.read off size).2)
  | .smartcard => (b.smartcard.read off size, b)
  | .i2c => (b.i2c.read off size, b)
  | .csi => (b.csi.read off size, b)
  | .latch => (b.latch.read off size, b)
  | .audio => (b.audio.read off size, b)
  | .mux => (b.mux.read off size, b)
  | .flashU203 => (b.flashU203.read off size, b)
  | .flashU202 => (b.flashU202.read off size, b)

/-- `Write` of the device at a region. -/
def writeAt (persist : I2c.Persist) (b : Board) (off : Word) (size : Size) (value : Word) :
    Region → Board
  | .dram => b.put .dram (b.ram.write off size value)
  | .irq => { b with wire := b.wire.write off size value }
  | .video => b.put .video (b.video.write off size value)
  | .display => b.put .display (b.display.write off size value)
  | .blitter => b.put .blitter (Graphics.write off size value b.blitter)
  | .dma => { b with toMedia := Dma.write off size value b.toMedia }
  | .demux => b.attach .demux (b.demux.write off size value b.wire)
  | .timer => b.attach .timer (b.timer.write off size value b.wire)
  | .modem => b.put .modem (b.modem.write off size value)
  | .smartcard => b.put .smartcard (b.smartcard.write off size value)
  | .i2c => b.attach .i2c (b.i2c.write persist off size value b.wire)
  | .csi => b.attach .csi (b.csi.write off size value b.wire)
  | .latch => b.put .latch (b.latch.write off size value)
  | .audio => b.put .audio (b.audio.write off size value)
  | .mux => b.put .mux (b.mux.write off size value)
  | .flashU203 => b.put .flashU203 (b.flashU203.write off size value)
  | .flashU202 => b.put .flashU202 (b.flashU202.write off size value)

/-- The lines that were raised, taken off the board. -/
def absorb (b : Board) : Board × Byte :=
  ({ b with wire := { b.wire with raised := 0 } }, b.wire.raised)

/-- `Read`: an address that reaches no device reads zero. -/
def look (virt : Word) (size : Size) (b : Board) : Word × Board :=
  match Region.reach virt with
  | none => (0, b)
  | some (r, off) => b.readAt off size r

/-- `Write`: an address that reaches no device drops the value. -/
def poke (persist : I2c.Persist) (virt : Word) (size : Size) (value : Word) (b : Board) : Board :=
  match Region.reach virt with
  | none => b
  | some (r, off) => b.writeAt persist off size value r

/-- A read by the core, which hears the lines. -/
def read (virt : Word) (size : Size) (b : Board) : Answer Board :=
  let (value, b) := b.look virt size
  { value, bus := b.absorb.1, raised := b.absorb.2 }

def write (persist : I2c.Persist) (virt : Word) (size : Size) (value : Word) (b : Board) :
    Board × Byte :=
  (b.poke persist virt size value).absorb

/-- The board as the core's bus. -/
def ops (persist : I2c.Persist) : BusOps Board where
  read := read
  write := write persist

variable {b : Board} {persist : I2c.Persist} {off value virt : Word} {size : Size} {r : Region}

/-- One device changes, and whatever becomes of the lines. -/
theorem Sound.put (sound : b.Sound) (r : Region) (s : r.State) (fits : Fits r s) :
    (b.put r s).Sound := by
  rw [sound_iff] at sound ⊢
  intro other
  by_cases here : other = r
  · rw [here, get_put]
    exact fits
  · rw [get_put_of_ne b here]
    exact sound other

theorem Sound.wired (sound : b.Sound) (wire : Irq.Wire) : Sound { b with wire } :=
  { sound with }

theorem Sound.attach (sound : b.Sound) (r : Region) (attached : r.State × Irq.Wire)
    (fits : Fits r attached.1) : (b.attach r attached).Sound :=
  (sound.wired attached.2).put r attached.1 fits

theorem Sound.absorb (sound : b.Sound) : b.absorb.1.Sound :=
  sound.wired _

theorem Sound.readAt (sound : b.Sound) : (b.readAt off size r).2.Sound := by
  cases r with
  | dram => exact sound.put .dram _ trivial
  | video => exact sound.put .video _ (Osd.Video.read_inside sound.video off size)
  | modem => exact sound.put .modem _ sound.modem.read
  | _ => exact sound

theorem Sound.writeAt (sound : b.Sound) (short : I2c.Controller.ShortTexts persist) :
    (b.writeAt persist off size value r).Sound := by
  cases r with
  | dram => exact sound.put .dram _ trivial
  | irq => exact sound.wired _
  | video => exact sound.put .video _ (Osd.Video.write_inside sound.video off size value)
  | display => exact sound.put .display _ trivial
  | blitter => exact sound.put .blitter _ trivial
  | dma =>
    have short : Dma.ShortFault b.toMedia := sound.dma
    have inside : Dma.VideoInside b.toMedia := sound.video
    exact { sound with
      dma := Dma.write_shortFault short off size value
      video := Dma.write_videoInside inside off size value }
  | demux => exact sound.attach .demux _ (sound.demux.write off size value)
  | timer => exact sound.attach .timer _ trivial
  | modem => exact sound.put .modem _ (sound.modem.write value)
  | smartcard => exact sound.put .smartcard _ (sound.smartcard.write off size value)
  | i2c =>
    obtain ⟨store, demod⟩ := b.i2c.write_slaves persist off size value b.wire
    exact sound.attach .i2c _ ⟨I2c.Controller.write_wellFormed sound.i2c short _ _ _ _,
      store.trans sound.store, demod.trans sound.demod⟩
  | csi => exact sound.attach .csi _ (sound.csi.write off size value b.wire)
  | latch => exact sound.put .latch _ trivial
  | audio => exact sound.put .audio _ trivial
  | mux => exact sound.put .mux _ trivial
  | flashU203 =>
    exact sound.put .flashU203 _ ⟨(Memory.Flash.write_name sound.commandU203).trans sound.u203,
      (Memory.Flash.write_length sound.commandU203).trans sound.sizeU203,
      Memory.Flash.write_validCommand sound.commandU203⟩
  | flashU202 =>
    exact sound.put .flashU202 _ ⟨(Memory.Flash.write_name sound.commandU202).trans sound.u202,
      (Memory.Flash.write_length sound.commandU202).trans sound.sizeU202,
      Memory.Flash.write_validCommand sound.commandU202⟩

theorem Sound.look (sound : b.Sound) : (b.look virt size).2.Sound := by
  unfold Board.look
  split
  · exact sound
  · exact sound.readAt

theorem Sound.poke (sound : b.Sound) (short : I2c.Controller.ShortTexts persist) :
    (b.poke persist virt size value).Sound := by
  unfold Board.poke
  split
  · exact sound
  · exact sound.writeAt short

end Board

end GoRetroTv
