import GoRetroTv.BoardDevices
import GoRetroTv.DramDigest

/-!
# Snapshots of the board's devices

Each device of the board saves and restores itself.  A restore puts the decoded state in the
device's place and, for the seven devices that own a line, drives the line to the level of
what was restored.
-/

namespace GoRetroTv

open Cpu

namespace Board

/-- `Snapshot` of the device at a region. -/
def save (b : Board) : Region → Except String (List Byte)
  | .dram => b.ram.snapshot
  | .irq => Irq.snapshot b.wire.toController
  | .video => b.video.snapshot
  | .display => b.display.snapshot
  | .blitter => b.blitter.snapshot
  | .dma => b.dma.snapshot
  | .demux => b.demux.snapshot
  | .timer => b.timer.snapshot
  | .modem => b.modem.snapshot
  | .smartcard => b.smartcard.snapshot
  | .i2c => b.i2c.snapshot
  | .csi => b.csi.snapshot
  | .latch => Boardlatch.snapshot b.latch
  | .audio => b.audio.snapshot
  | .mux => I2c.Mux.snapshot b.mux
  | .flashU203 => b.flashU203.snapshot
  | .flashU202 => b.flashU202.snapshot

/-- A device and the line it has driven. -/
def attach (b : Board) (r : Region) (attached : r.State × Irq.Wire) : Board :=
  { b with wire := attached.2 }.put r attached.1

/-- `Restore` of the device at a region; a refusal leaves the board as it was. -/
def load (b : Board) (blob : List Byte) : Region → Except String Board
  | .dram => do return b.put .dram (← Memory.Ram.restore blob)
  | .irq => do return b.put .irq (← Irq.restore blob)
  | .video => do return b.put .video (← Osd.Video.restore blob)
  | .display => do return b.put .display (← Osd.Display.restore blob)
  | .blitter => do return b.put .blitter (← Graphics.Blitter.restore blob)
  | .dma => do return { b with toMedia := ← Dma.restore blob b.toMedia }
  | .demux => do return b.attach .demux (← Demux.Registers.restore blob b.wire)
  | .timer => do return b.attach .timer (← Hwtimer.Timer.restore blob b.wire)
  | .modem => do return b.attach .modem (← Modem.Uart.restore blob b.wire)
  | .smartcard => do return b.attach .smartcard (← Smartcard.Port.restore blob b.wire)
  | .i2c => do return b.attach .i2c (← b.i2c.restore blob b.wire)
  | .csi => do return b.attach .csi (← Csi.Link.restore blob b.wire)
  | .latch => do return b.put .latch (← Boardlatch.restore blob)
  | .audio => do return b.put .audio (← Audio.Control.restore blob)
  | .mux => do return b.put .mux (← I2c.Mux.restore blob)
  | .flashU203 => do return b.put .flashU203 (← b.flashU203.restore blob)
  | .flashU202 => do return b.put .flashU202 (← b.flashU202.restore blob)

/-- `Reset` of the device at a region. -/
def resetAt (b : Board) : Region → Board
  | .dram => b.put .dram b.ram.reset
  | .irq => b.put .irq {}
  | .video => b.put .video {}
  | .display => b.put .display {}
  | .blitter => b.put .blitter {}
  | .dma => { b with toMedia := Dma.reset b.toMedia }
  | .demux => b.attach .demux (Demux.Registers.reset b.wire)
  | .timer => b.attach .timer (Hwtimer.Timer.reset b.wire)
  | .modem => b.attach .modem (Modem.Uart.reset b.wire)
  | .smartcard => b.attach .smartcard (Smartcard.Port.reset b.wire)
  | .i2c => b.attach .i2c (b.i2c.reset b.wire)
  | .csi => b.attach .csi (Csi.Link.reset b.wire)
  | .latch => b.put .latch Boardlatch.new
  | .audio => b.put .audio {}
  | .mux => b.put .mux I2c.newMux
  | .flashU203 => b.put .flashU203 b.flashU203.reset
  | .flashU202 => b.put .flashU202 b.flashU202.reset

/-- What a restore reads from a blob, given what the board was built with. -/
def decode (b : Board) (blob : List Byte) : (r : Region) → Except String r.State
  | .dram => Memory.Ram.restore blob
  | .irq => Irq.restore blob
  | .video => Osd.Video.restore blob
  | .display => Osd.Display.restore blob
  | .blitter => Graphics.Blitter.restore blob
  | .dma => Dma.Controller.decode blob
  | .demux => Demux.Registers.decode blob
  | .timer => Hwtimer.Timer.decode blob
  | .modem => Modem.Uart.decode blob
  | .smartcard => Smartcard.Port.decode blob
  | .i2c => do return (← b.i2c.restore blob {}).1
  | .csi => Csi.Link.decode blob
  | .latch => Boardlatch.restore blob
  | .audio => Audio.Control.restore blob
  | .mux => I2c.Mux.restore blob
  | .flashU203 => b.flashU203.restore blob
  | .flashU202 => b.flashU202.restore blob

/-- The line of a device, driven to the level of its state. -/
def drive : (r : Region) → r.State → Irq.Wire → Irq.Wire
  | .dma, d, wire => wire.setLine Dma.irqMask d.line
  | .demux, d, wire => wire.setLine Demux.irqMask d.line
  | .timer, t, wire => wire.setLine Hwtimer.irqMask t.line
  | .modem, u, wire => wire.setStatus Modem.irqMask u.wantsIRQ
  | .smartcard, p, wire => wire.setLine Smartcard.irqMask p.line
  | .i2c, c, wire => wire.setLine I2c.irqMask (c.enable ≠ 0 ∧ c.status ≠ 0)
  | .csi, l, wire => wire.setLine Csi.irqMask l.line
  | _, _, wire => wire

/-- The board with a restored device. -/
def restored (b : Board) (r : Region) (s : r.State) : Board :=
  let b := b.put r s
  { b with wire := drive r s b.wire }

variable {b t t' : Board} {blob : List Byte} {r : Region}

theorem bind_return {α β : Type} (action : Except String α) (f : α → β) :
    (do return f (← action)) = action.map f := by
  cases action <;> rfl

/-- What the serial bus master reads does not depend on the line. -/
theorem i2c_restore_eq (c : I2c.Controller) (blob : List Byte) (wire : Irq.Wire) :
    c.restore blob wire = (c.restore blob {}).map fun attached =>
      (attached.1,
        wire.setLine I2c.irqMask (attached.1.enable ≠ 0 ∧ attached.1.status ≠ 0)) := by
  unfold I2c.Controller.restore
  cases Snapcodec.restoringVersion blob (ascii "i2c-master") 1 2 "i2c: restore: " c.readSnapshot with
  | error error => rfl
  | ok decoded =>
    dsimp only [bind, Except.bind]
    cases I2c.Controller.restoreSlave Eeprom.restore "i2c: restore EEPROM: " decoded.storeState
        c.store with
    | error error => rfl
    | ok store =>
      dsimp only
      cases I2c.Controller.restoreSlave Demod.Model.restore "i2c: restore demod: "
          decoded.demodState c.demod <;> rfl

/-- A restore is its decoding, and then its line. -/
theorem load_eq (b : Board) (blob : List Byte) (r : Region) :
    b.load blob r = (b.decode blob r).map (b.restored r) := by
  cases r with
  | dma =>
    unfold load decode Dma.restore Dma.Controller.decode
    cases Snapcodec.restoring blob (ascii "media-dma") 1 1 "dma: restore: "
        Dma.Controller.readSnapshot <;> rfl
  | demux =>
    unfold load decode Demux.Registers.restore
    cases Demux.Registers.decode blob <;> rfl
  | timer =>
    unfold load decode Hwtimer.Timer.restore
    cases Hwtimer.Timer.decode blob <;> rfl
  | modem =>
    unfold load decode Modem.Uart.restore
    cases Modem.Uart.decode blob <;> rfl
  | smartcard =>
    unfold load decode Smartcard.Port.restore
    cases Smartcard.Port.decode blob <;> rfl
  | csi =>
    unfold load decode Csi.Link.restore
    cases Csi.Link.decode blob <;> rfl
  | i2c =>
    unfold load decode
    rw [i2c_restore_eq]
    cases b.i2c.restore blob {} <;> rfl
  | _ => exact bind_return _ _

/-- The configuration that `New` gives the devices: the names and sizes of the flash parts, and
the slaves of the serial bus. -/
structure Built (b : Board) : Prop where
  u203 : b.flashU203.name = Region.flashU203.name
  u202 : b.flashU202.name = Region.flashU202.name
  sizeU203 : b.flashU203.bytes.length = Region.flashU203.size.toNat
  sizeU202 : b.flashU202.bytes.length = Region.flashU202.size.toNat
  store : b.i2c.store.isSome
  demod : b.i2c.demod.isSome

theorem Built.slaves (built : t.Built) (built' : t'.Built) : t.i2c.SameSlaves t'.i2c :=
  ⟨built'.store.trans built.store.symm, built'.demod.trans built.demod.symm⟩

/-- A recorded device under the configuration of the board it is restored on. -/
def configured (imagePath : List Byte) : (r : Region) → r.State → r.State
  | .i2c, c => { c with imagePath }
  | .csi, l => l.setAckPolicy Csi.defaultAckPolicy
  | _, s => s

/-- What a device accepts of its own snapshot is itself. -/
theorem decode_save (built : b.Built) (onto : t.Built) (taken : b.save r = .ok blob)
    {s : r.State} (accepted : t.decode blob r = .ok s) :
    s = configured t.i2c.imagePath r (b.get r) := by
  cases r with
  | dram =>
    rw [show b.save .dram = .ok b.ram.blobOf from Memory.Ram.snapshot_eq _] at taken
    cases taken
    exact (Except.ok.inj ((Memory.Ram.restore_blobOf _).symm.trans accepted)).symm
  | irq =>
    obtain ⟨own, saved, restored⟩ := Irq.restore_snapshot b.wire.toController
    cases saved.symm.trans taken
    exact (Except.ok.inj (restored.symm.trans accepted)).symm
  | video => exact Osd.Video.restore_snapshot taken accepted
  | display =>
    rw [show b.save .display = .ok b.display.blobOf from Osd.Display.snapshot_eq _] at taken
    cases taken
    exact (Except.ok.inj ((Osd.Display.restore_blobOf _).symm.trans accepted)).symm
  | blitter =>
    rw [show b.save .blitter = .ok b.blitter.blobOf from Graphics.Blitter.snapshot_eq _] at taken
    cases taken
    exact (Except.ok.inj ((Graphics.Blitter.restore_blobOf _).symm.trans accepted)).symm
  | dma => exact Dma.Controller.decode_snapshot taken accepted
  | demux => exact Demux.Registers.decode_snapshot taken accepted
  | timer =>
    rw [show b.save .timer = .ok b.timer.blobOf from Hwtimer.Timer.snapshot_eq _] at taken
    cases taken
    exact (Except.ok.inj ((Hwtimer.Timer.decode_blobOf _).symm.trans accepted)).symm
  | modem => exact Modem.Uart.decode_snapshot taken accepted
  | smartcard => exact Smartcard.Port.decode_snapshot taken accepted
  | i2c =>
    obtain ⟨attached, restored, returned⟩ := bind_eq_ok.mp accepted
    cases I2c.Controller.restored_of_snapshot taken restored (built.slaves onto)
    exact (Except.ok.inj returned).symm
  | csi => exact Csi.Link.decode_snapshot taken accepted
  | latch =>
    exact @WordLatch.restored_of_snapshot Boardlatch.name (by decide) (by decide) _ b.latch s blob
      taken accepted
  | audio =>
    rw [show b.save .audio = .ok b.audio.blobOf from Audio.Control.snapshot_eq _] at taken
    cases taken
    exact (Except.ok.inj ((Audio.Control.restore_blobOf _).symm.trans accepted)).symm
  | mux =>
    exact @WordLatch.restored_of_snapshot I2c.Mux.name (by decide) (by decide) _ b.mux s blob
      taken accepted
  | flashU203 =>
    exact Memory.Flash.restore_snapshot (onto.u203.trans built.u203.symm) taken accepted
  | flashU202 =>
    exact Memory.Flash.restore_snapshot (onto.u202.trans built.u202.symm) taken accepted

/-- A snapshot shows a device, but for its configuration. -/
theorem save_of_get {path : List Byte} (same : t.get r = configured path r (b.get r)) :
    t.save r = b.save r := by
  cases r with
  | i2c =>
    change t.i2c = { b.i2c with imagePath := path } at same
    unfold save
    rw [same]
    rfl
  | csi =>
    change t.csi = b.csi.setAckPolicy Csi.defaultAckPolicy at same
    unfold save
    rw [same]
    rfl
  | dram => exact congrArg Memory.Ram.snapshot same
  | irq => exact congrArg Irq.snapshot same
  | video => exact congrArg Osd.Video.snapshot same
  | display => exact congrArg Osd.Display.snapshot same
  | blitter => exact congrArg Graphics.Blitter.snapshot same
  | dma => exact congrArg Dma.Controller.snapshot same
  | demux => exact congrArg Demux.Registers.snapshot same
  | timer => exact congrArg Hwtimer.Timer.snapshot same
  | modem => exact congrArg Modem.Uart.snapshot same
  | smartcard => exact congrArg Smartcard.Port.snapshot same
  | latch => exact congrArg Boardlatch.snapshot same
  | audio => exact congrArg Audio.Control.snapshot same
  | mux => exact congrArg I2c.Mux.snapshot same
  | flashU203 => exact congrArg Memory.Flash.snapshot same
  | flashU202 => exact congrArg Memory.Flash.snapshot same

/-- The device's bit of the interrupt controller; a device without a line has none. -/
def lineMask : Region → Word
  | .dma => Dma.irqMask
  | .demux => Demux.irqMask
  | .timer => Hwtimer.irqMask
  | .modem => Modem.irqMask
  | .smartcard => Smartcard.irqMask
  | .i2c => I2c.irqMask
  | .csi => Csi.irqMask
  | _ => 0

/-- The level that a restore drives. -/
def level : (r : Region) → r.State → Bool
  | .dma, d => d.line
  | .demux, d => d.line
  | .timer, t => t.line
  | .modem, u => u.wantsIRQ
  | .smartcard, p => p.line
  | .i2c, c => c.enable ≠ 0 ∧ c.status ≠ 0
  | .csi, l => l.line
  | _, _ => false

/-- The pending bit of the device is at the level of its state. -/
def Level (b : Board) (r : Region) : Prop :=
  b.wire.pending &&& lineMask r = if level r (b.get r) then lineMask r else 0

/-- Every device's is. -/
def Settled (b : Board) : Prop :=
  ∀ r, b.Level r

variable {s : r.State} {wire : Irq.Wire}

theorem drive_enable : (drive r s wire).enable = wire.enable := by
  cases r with
  | modem => rfl
  | dma | demux | timer | smartcard | i2c | csi => exact Irq.Wire.setLine_enable _ _ _
  | _ => rfl

theorem drive_pending : (drive r s wire).pending =
    (wire.setStatus (lineMask r) (level r s)).pending := by
  cases r with
  | modem => rfl
  | dma | demux | timer | smartcard | i2c | csi => exact Irq.Wire.setLine_pending _ _ _
  | _ =>
    change wire.pending = wire.pending &&& BitVec.allOnes 32
    exact BitVec.and_allOnes.symm

theorem lineMask_disjoint {other : Region} (apart : other ≠ r) :
    lineMask r &&& lineMask other = 0 := by
  revert apart
  cases r <;> cases other <;> decide

theorem drive_and_of_ne {other : Region} (apart : other ≠ r) :
    (drive r s wire).pending &&& lineMask other = wire.pending &&& lineMask other := by
  rw [drive_pending]
  exact Irq.Wire.setStatus_and_of_disjoint (lineMask_disjoint apart)

theorem drive_and_self :
    (drive r s wire).pending &&& lineMask r = if level r s then lineMask r else 0 := by
  rw [drive_pending]
  exact Irq.Wire.setStatus_and_self

/-- A device whose bit is at its level drives nothing. -/
theorem drive_of_level (here : wire.pending &&& lineMask r = if level r s then lineMask r else 0) :
    drive r s wire = wire := by
  cases r with
  | modem => exact Irq.Wire.setStatus_of_level (Irq.Wire.setStatus_pending_of_and here)
  | dma | demux | timer | smartcard | i2c | csi =>
    exact Irq.Wire.setLine_of_level (Irq.Wire.setStatus_pending_of_and here)
  | _ => rfl

/-- The lines of some devices, driven in order to the levels of their states. -/
def driveAll (states : (r : Region) → r.State) (rs : List Region) (wire : Irq.Wire) : Irq.Wire :=
  rs.foldl (fun wire r => drive r (states r) wire) wire

variable {states : (r : Region) → r.State} {rs : List Region} {other : Region}

theorem driveAll_cons :
    driveAll states (r :: rs) wire = driveAll states rs (drive r (states r) wire) :=
  rfl

theorem driveAll_enable : (driveAll states rs wire).enable = wire.enable := by
  induction rs generalizing wire with
  | nil => rfl
  | cons r rs ih => exact ih.trans drive_enable

theorem driveAll_and_of_not_mem (apart : other ∉ rs) :
    (driveAll states rs wire).pending &&& lineMask other = wire.pending &&& lineMask other := by
  induction rs generalizing wire with
  | nil => rfl
  | cons r rs ih =>
    rw [List.mem_cons, not_or] at apart
    exact (ih apart.2).trans (drive_and_of_ne apart.1)

theorem driveAll_and_of_mem (distinct : rs.Nodup) (member : r ∈ rs) :
    (driveAll states rs wire).pending &&& lineMask r =
      if level r (states r) then lineMask r else 0 := by
  induction rs generalizing wire with
  | nil => cases member
  | cons first rs ih =>
    have ⟨new, distinct⟩ := List.nodup_cons.mp distinct
    rcases List.mem_cons.mp member with rfl | member
    · exact (driveAll_and_of_not_mem new).trans drive_and_self
    · exact ih distinct member

/-- Lines that are at their levels stay where they are. -/
theorem driveAll_of_level
    (here : ∀ r ∈ rs, wire.pending &&& lineMask r = if level r (states r) then lineMask r else 0) :
    driveAll states rs wire = wire := by
  induction rs with
  | nil => rfl
  | cons r rs ih =>
    rw [driveAll_cons, drive_of_level (here r List.mem_cons_self)]
    exact ih fun other member => here other (List.mem_cons_of_mem r member)

/-- The pending bits do not depend on what was signalled before. -/
theorem driveAll_pending_congr {wire' : Irq.Wire} (same : wire.pending = wire'.pending) :
    (driveAll states rs wire).pending = (driveAll states rs wire').pending := by
  induction rs generalizing wire wire' with
  | nil => exact same
  | cons r rs ih =>
    refine ih ?_
    rw [drive_pending, drive_pending]
    unfold Irq.Wire.setStatus
    rw [same]

theorem driveAll_congr {states' : (r : Region) → r.State}
    (same : ∀ r ∈ rs, ∀ wire, drive r (states r) wire = drive r (states' r) wire) :
    driveAll states rs wire = driveAll states' rs wire := by
  induction rs generalizing wire with
  | nil => rfl
  | cons r rs ih =>
    rw [driveAll_cons, driveAll_cons, same r List.mem_cons_self]
    exact ih fun other member => same other (List.mem_cons_of_mem r member)

/-- Driving every line leaves the pending bits as they are on a settled board only. -/
theorem driveAll_pending_iff :
    (driveAll b.get regions b.wire).pending = b.wire.pending ↔ b.Settled := by
  constructor
  · intro same r
    unfold Level
    rw [← same]
    exact driveAll_and_of_mem Region.regions_nodup (Region.mem_regions r)
  · intro settled
    rw [driveAll_of_level fun r _ => settled r]

/-- Some devices, restored in order. -/
def restoredAll (states : (r : Region) → r.State) (rs : List Region) (t : Board) : Board :=
  rs.foldl (fun t r => t.restored r (states r)) t

variable {path : List Byte}

theorem restoredAll_cons :
    restoredAll states (r :: rs) t = restoredAll states rs (t.restored r (states r)) :=
  rfl

theorem restored_get : (t.restored r s).get r = s := by
  cases r <;> rfl

theorem restored_get_of_ne (apart : other ≠ r) (device : other ≠ .irq) :
    (t.restored r s).get other = t.get other := by
  cases r <;> cases other <;> first | rfl | exact absurd rfl apart | exact absurd rfl device

theorem restored_wire (device : r ≠ .irq) : (t.restored r s).wire = drive r s t.wire := by
  cases r <;> first | rfl | exact absurd rfl device

theorem drive_configured : drive r (configured path r s) wire = drive r s wire := by
  cases r <;> rfl

theorem restoredAll_get_of_not_mem (apart : other ∉ rs) (device : other ≠ .irq) :
    (restoredAll states rs t).get other = t.get other := by
  induction rs generalizing t with
  | nil => rfl
  | cons r rs ih =>
    rw [List.mem_cons, not_or] at apart
    exact (ih apart.2).trans (restored_get_of_ne apart.1 device)

theorem restoredAll_get (distinct : rs.Nodup) (member : r ∈ rs) (device : r ≠ .irq) :
    (restoredAll states rs t).get r = states r := by
  induction rs generalizing t with
  | nil => cases member
  | cons first rs ih =>
    have ⟨new, distinct⟩ := List.nodup_cons.mp distinct
    rcases List.mem_cons.mp member with rfl | member
    · exact (restoredAll_get_of_not_mem new device).trans restored_get
    · exact ih distinct member

theorem restoredAll_wire (devices : .irq ∉ rs) :
    (restoredAll states rs t).wire = driveAll states rs t.wire := by
  induction rs generalizing t with
  | nil => rfl
  | cons r rs ih =>
    rw [List.mem_cons, not_or] at devices
    rw [restoredAll_cons, ih devices.2, restored_wire (Ne.symm devices.1)]
    rfl

/-- The interrupt controller comes before every device with a line, which is then driven onto
it. -/
theorem restoredAll_wire_behind (devices : .irq ∉ rs) :
    (restoredAll states (.dram :: .irq :: rs) t).wire =
      driveAll states rs { t.wire with toController := states .irq } := by
  rw [restoredAll_cons, restoredAll_cons, restoredAll_wire devices]
  rfl

/-- Two boards that read blobs alike. -/
structure Kin (t t' : Board) : Prop where
  left : t.Built
  right : t'.Built
  path : t'.i2c.imagePath = t.i2c.imagePath

theorem Built.kin (built : t.Built) : Kin t t where
  left := built
  right := built
  path := rfl

namespace Kin

theorem decode_eq (kin : Kin t t') (blob : List Byte) (r : Region) :
    t'.decode blob r = t.decode blob r := by
  have left := kin.left
  have right := kin.right
  cases r with
  | i2c =>
    unfold decode
    rw [I2c.Controller.restore_congr (right.slaves left) kin.path.symm]
  | flashU203 =>
    exact Memory.Flash.restore_congr (right.u203.trans left.u203.symm)
      (right.sizeU203.trans left.sizeU203.symm) blob
  | flashU202 =>
    exact Memory.Flash.restore_congr (right.u202.trans left.u202.symm)
      (right.sizeU202.trans left.sizeU202.symm) blob
  | _ => rfl

theorem load_eq (kin : Kin t t') (blob : List Byte) (r : Region) :
    t'.load blob r = (t.decode blob r).map (t'.restored r) := by
  rw [Board.load_eq, kin.decode_eq]

/-- What a device reads from a blob keeps the board as it was built. -/
theorem restored (kin : Kin t t') (accepted : t.decode blob r = .ok s) :
    Kin t (t'.restored r s) := by
  have right := kin.right
  rw [← kin.decode_eq] at accepted
  refine ⟨kin.left, ?_, Eq.trans ?_ kin.path⟩
  · cases r with
    | flashU203 =>
      have keeps := Memory.Flash.restore_keeps accepted
      exact { right with
        u203 := keeps.1.trans right.u203
        sizeU203 := keeps.2.trans right.sizeU203 }
    | flashU202 =>
      have keeps := Memory.Flash.restore_keeps accepted
      exact { right with
        u202 := keeps.1.trans right.u202
        sizeU202 := keeps.2.trans right.sizeU202 }
    | i2c =>
      obtain ⟨⟨c, wire⟩, restored, returned⟩ := bind_eq_ok.mp accepted
      cases returned
      have keeps := (I2c.Controller.restore_keeps restored).1
      exact { right with
        store := keeps.1.trans right.store
        demod := keeps.2.trans right.demod }
    | _ => exact { right with }
  · cases r with
    | i2c =>
      obtain ⟨⟨c, wire⟩, restored, returned⟩ := bind_eq_ok.mp accepted
      cases returned
      exact (I2c.Controller.restore_keeps restored).2
    | _ => rfl

end Kin

/-- The board with its image elsewhere. -/
def repath (path : List Byte) (t : Board) : Board :=
  { t with i2c := { t.i2c with imagePath := path } }

theorem Built.repath (built : t.Built) : (t.repath path).Built :=
  { built with }

theorem decode_repath (t : Board) (path blob : List Byte) (r : Region) :
    ((t.repath path).decode blob r).map (configured [] r) =
      (t.decode blob r).map (configured [] r) := by
  cases r with
  | i2c =>
    unfold decode Board.repath I2c.Controller.restore
    change Except.map _ ((Snapcodec.restoringVersion blob (ascii "i2c-master") 1 2 "i2c: restore: "
      t.i2c.readSnapshot >>= _) >>= _) = _
    cases Snapcodec.restoringVersion blob (ascii "i2c-master") 1 2 "i2c: restore: "
        t.i2c.readSnapshot with
    | error error => rfl
    | ok decoded =>
      dsimp only [bind, Except.bind]
      cases I2c.Controller.restoreSlave Eeprom.restore "i2c: restore EEPROM: " decoded.storeState
          t.i2c.store with
      | error error => rfl
      | ok store =>
        dsimp only
        cases I2c.Controller.restoreSlave Demod.Model.restore "i2c: restore demod: "
            decoded.demodState t.i2c.demod <;> rfl
  | _ => rfl

/-- Boards of one build read the same devices, each under its own configuration. -/
theorem decode_alike (built : t.Built) (built' : t'.Built) (blob : List Byte) (r : Region) :
    (t.decode blob r).map (configured [] r) = (t'.decode blob r).map (configured [] r) := by
  have kin : Kin t (t'.repath t.i2c.imagePath) := ⟨built, built'.repath, rfl⟩
  rw [← kin.decode_eq, decode_repath]

theorem save_of_alike (alike : configured [] r (t.get r) = configured [] r (b.get r)) :
    t.save r = b.save r := by
  have first := @save_of_get t (t.put r (configured [] r (t.get r))) r [] (get_put _ _ _)
  have second := @save_of_get b (t.put r (configured [] r (t.get r))) r []
    ((get_put _ _ _).trans alike)
  exact first.symm.trans second

end Board

end GoRetroTv
