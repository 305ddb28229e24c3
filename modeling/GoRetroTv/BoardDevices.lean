import GoRetroTv.BoardLatches
import GoRetroTv.CsiLink
import GoRetroTv.DemuxRegisters
import GoRetroTv.DmaSnapshot
import GoRetroTv.FlashMemory
import GoRetroTv.HardwareTimer
import GoRetroTv.I2cSnapshot
import GoRetroTv.ModemUart
import GoRetroTv.SmartcardPort

/-!
# The devices of the board

`internal/board/runtime.go` attaches seventeen devices to the bus, each at its
own region of physical memory and under its own name.  The interrupt controller
is one of them, and seven of the others drive a line into it.
-/

namespace GoRetroTv

open Cpu

/-- The board: the DMA controller with what its channels reach, and the rest. -/
structure Board extends Dma.Media where
  display : Osd.Display := {}
  demux : Demux.Registers := {}
  timer : Hwtimer.Timer := {}
  modem : Modem.Uart := {}
  smartcard : Smartcard.Port := {}
  i2c : I2c.Controller
  csi : Csi.Link := {}
  latch : Boardlatch.Latch := Boardlatch.new
  audio : Audio.Control := {}
  mux : I2c.Mux := I2c.newMux
  flashU203 : Memory.Flash
  flashU202 : Memory.Flash

/-- What a device is attached to. -/
inductive Region where
  | dram
  | irq
  | video
  | display
  | blitter
  | dma
  | demux
  | timer
  | modem
  | smartcard
  | i2c
  | csi
  | latch
  | audio
  | mux
  | flashU203
  | flashU202
  deriving DecidableEq

/-- The attached regions, sorted by base. -/
def regions : List Region :=
  [.dram, .irq, .video, .display, .blitter, .dma, .demux, .timer, .modem, .smartcard, .i2c, .csi,
    .latch, .audio, .mux, .flashU203, .flashU202]

namespace Region

/-- The physical address a region starts at. -/
def base : Region → Word
  | dram => 0x00000000
  | irq => 0x10000000
  | video => 0x10002000
  | display => 0x10004000
  | blitter => 0x10006000
  | dma => 0x10009000
  | demux => 0x1000a000
  | timer => 0x1000d000
  | modem => 0x12001000
  | smartcard => 0x12002000
  | i2c => 0x12006000
  | csi => 0x12009000
  | latch => 0x1200a000
  | audio => 0x14080100
  | mux => 0x14180000
  | flashU203 => 0x1f800000
  | flashU202 => 0x1fc00000

def size : Region → Word
  | dram => 0x2000000
  | irq | blitter | modem | smartcard | i2c | csi => 0x100
  | video | display | dma | demux => 0x1000
  | timer => 0xe4
  | latch | mux => 4
  | audio => 0x10
  | flashU203 | flashU202 => 0x200000

/-- The name a device has in a snapshot. -/
def name : Region → List Byte
  | dram => ascii "dram"
  | irq => ascii "board-irq"
  | video => ascii "video-ram"
  | display => ascii "osd-display"
  | blitter => ascii "blitter"
  | dma => ascii "media-dma"
  | demux => ascii "emma-demux"
  | timer => ascii "board-timer"
  | modem => ascii "modem-uart0"
  | smartcard => ascii "smartcard-uart1"
  | i2c => ascii "i2c-master"
  | csi => ascii "csi-link"
  | latch => Boardlatch.name
  | audio => Audio.Control.name
  | mux => I2c.Mux.name
  | flashU203 => ascii "U203"
  | flashU202 => ascii "U202"

/-- The state of the device at a region. -/
abbrev State : Region → Type
  | dram => Memory.Ram
  | irq => Irq.Controller
  | video => Osd.Video
  | display => Osd.Display
  | blitter => Graphics.Blitter
  | dma => Dma.Controller
  | demux => Demux.Registers
  | timer => Hwtimer.Timer
  | modem => Modem.Uart
  | smartcard => Smartcard.Port
  | i2c => I2c.Controller
  | csi => Csi.Link
  | latch => Boardlatch.Latch
  | audio => Audio.Control
  | mux => I2c.Mux
  | flashU203 | flashU202 => Memory.Flash

theorem mem_regions (r : Region) : r ∈ regions := by
  cases r <;> decide

theorem regions_nodup : regions.Nodup := by
  decide

/-- Sorted by base and disjoint, as `Attach` keeps them. -/
theorem regions_disjoint :
    regions.Pairwise fun first second => first.base.toNat + first.size.toNat ≤ second.base.toNat := by
  decide

theorem name_injective {r r' : Region} (same : r.name = r'.name) : r = r' := by
  revert same
  cases r <;> cases r' <;> decide

end Region

namespace Board

/-- The device at a region. -/
def get (b : Board) : (r : Region) → r.State
  | .dram => b.ram
  | .irq => b.wire.toController
  | .video => b.video
  | .display => b.display
  | .blitter => b.blitter
  | .dma => b.dma
  | .demux => b.demux
  | .timer => b.timer
  | .modem => b.modem
  | .smartcard => b.smartcard
  | .i2c => b.i2c
  | .csi => b.csi
  | .latch => b.latch
  | .audio => b.audio
  | .mux => b.mux
  | .flashU203 => b.flashU203
  | .flashU202 => b.flashU202

/-- The board with another device at a region. -/
def put (b : Board) : (r : Region) → r.State → Board
  | .dram, ram => { b with ram }
  | .irq, c => { b with wire := { b.wire with toController := c } }
  | .video, video => { b with video }
  | .display, display => { b with display }
  | .blitter, blitter => { b with blitter }
  | .dma, dma => { b with dma }
  | .demux, demux => { b with demux }
  | .timer, timer => { b with timer }
  | .modem, modem => { b with modem }
  | .smartcard, smartcard => { b with smartcard }
  | .i2c, i2c => { b with i2c }
  | .csi, csi => { b with csi }
  | .latch, latch => { b with latch }
  | .audio, audio => { b with audio }
  | .mux, mux => { b with mux }
  | .flashU203, flashU203 => { b with flashU203 }
  | .flashU202, flashU202 => { b with flashU202 }

@[simp]
theorem get_put (b : Board) (r : Region) (s : r.State) : (b.put r s).get r = s := by
  cases r <;> rfl

theorem get_put_of_ne (b : Board) {r r' : Region} (ne : r' ≠ r) (s : r.State) :
    (b.put r s).get r' = b.get r' := by
  cases r <;> cases r' <;> first | rfl | exact absurd rfl ne

@[simp]
theorem put_raised (b : Board) (r : Region) (s : r.State) :
    (b.put r s).wire.raised = b.wire.raised := by
  cases r <;> rfl

end Board

end GoRetroTv
