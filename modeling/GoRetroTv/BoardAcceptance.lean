import GoRetroTv.BoardSnapshots
import GoRetroTv.DemuxSnapshot

/-!
# What the board accepts of itself

A restore bounds what it takes from a blob: the lengths of queues, the length of a fault's text,
the place of a pointer.  While the devices stay within these bounds each accepts its own
snapshot.
-/

namespace GoRetroTv

open Cpu Snapcodec

namespace Board

/-- The devices are within what their restores take. -/
structure Sound (b : Board) : Prop extends Built b where
  video : b.video.Inside
  dma : b.dma.fault.length ≤ 256
  demux : b.demux.Coherent
  modem : b.modem.Bounded
  smartcard : b.smartcard.Bounded
  i2c : b.i2c.WellFormed
  csi : b.csi.Bounded
  commandU203 : Memory.Flash.validCommand b.flashU203.command = true
  commandU202 : Memory.Flash.validCommand b.flashU202.command = true

variable {b : Board}

theorem Sound.flashU203 (sound : b.Sound) : b.flashU203.Bounded where
  named := by rw [sound.u203]; decide
  nameFits := by rw [sound.u203]; decide
  size := sound.sizeU203.le
  command := sound.commandU203

theorem Sound.flashU202 (sound : b.Sound) : b.flashU202.Bounded where
  named := by rw [sound.u202]; decide
  nameFits := by rw [sound.u202]; decide
  size := sound.sizeU202.le
  command := sound.commandU202

/-- No snapshot of a device is longer than this. -/
def Region.room : Region → Nat
  | .dram => 0x2100000
  | .demux => 0x4100000
  | .video => 0x200000
  | .i2c => 0x300000
  | .flashU203 => 0x400000
  | .flashU202 => 0x400000
  | _ => 0x100000

/-- A device's own snapshot is short and accepted. -/
structure Accepts (b : Board) (r : Region) (copy : List Byte) : Prop where
  saved : b.save r = .ok copy
  short : copy.length ≤ Region.room r
  decoded : b.decode copy r = .ok (configured b.i2c.imagePath r (b.get r))

theorem frame_short {name payload : List Byte} {version : Half} (limit : Nat) {room : Nat}
    (nameFits : name.length ≤ maxNameLen) (fits : payload.length ≤ limit)
    (within : limit + 0x11000 ≤ room) : (Writer.frame name version payload).length ≤ room := by
  rw [frame_length, headerSize]
  unfold maxNameLen at nameFits
  omega

/-- The parts of a sound board accept their own snapshots. -/
theorem Sound.accepts (sound : b.Sound) (r : Region) : ∃ copy, b.Accepts r copy := by
  cases r with
  | dram =>
    refine ⟨_, Memory.Ram.snapshot_eq _, frame_short 0x2080000 (by decide) ?_ (by decide),
      Memory.Ram.restore_blobOf _⟩
    simp only [Memory.Ram.encodeRam, List.length_append, encodeBytes_length,
      Memory.Ram.encodeDirty_length, cells_length, bigEndian_length]
    omega
  | irq =>
    obtain ⟨copy, saved, restored⟩ := Irq.restore_snapshot b.wire.toController
    refine ⟨copy, saved, ?_, restored⟩
    cases (Irq.snapshot_eq _).symm.trans saved
    exact frame_short 12 (by decide) (by rw [encodeWords_length]; simp) (by decide)
  | video =>
    refine ⟨_, Osd.Video.snapshot_eq _, frame_short 0x110000 (by decide) ?_ (by decide),
      Osd.Video.restore_blobOf sound.video⟩
    simp only [Osd.Video.encodeVideo, List.length_append, bigEndian_length, encodeWords_length,
      Osd.Video.registers_length, encodeBytes_length, cells_length]
    omega
  | display =>
    refine ⟨_, Osd.Display.snapshot_eq _, frame_short 12 (by decide) ?_ (by decide),
      Osd.Display.restore_blobOf _⟩
    rw [encodeWords_length]
    exact show 4 + 4 * 2 ≤ 12 by decide
  | blitter =>
    refine ⟨_, Graphics.Blitter.snapshot_eq _, frame_short 0x1000 (by decide) ?_ (by decide),
      Graphics.Blitter.restore_blobOf _⟩
    simp only [Graphics.Blitter.encodeBlitter, List.length_append, encodeWords_length,
      Graphics.Blitter.registers_length, bigEndian_length]
    omega
  | dma =>
    refine ⟨_, Dma.Controller.snapshot_eq sound.dma, frame_short 0x1000 (by decide) ?_ (by decide),
      ?_⟩
    · have short := sound.dma
      simp only [Dma.Controller.encodeDma, List.length_append, encodeWords_length,
        Dma.Controller.pointers_length, encodeBytes_length, List.length_cons, List.length_nil,
        Dma.channelCount]
      omega
    · exact Dma.Controller.decode_blobOf sound.dma
  | demux =>
    obtain ⟨copy, saved, restored⟩ := sound.demux.decode_snapshot
    refine ⟨copy, saved, ?_, restored⟩
    cases sound.demux.snapshot_eq.symm.trans saved
    exact frame_short (2 ^ 26) (by decide) sound.demux.encode_length_lt.le (by decide)
  | timer =>
    refine ⟨_, Hwtimer.Timer.snapshot_eq _, frame_short 0x1000 (by decide) ?_ (by decide),
      Hwtimer.Timer.decode_blobOf _⟩
    rw [encodeWords_length, Hwtimer.Timer.words_length]
    decide
  | modem =>
    exact ⟨_, Modem.Uart.snapshot_eq sound.modem, frame_short _ (by decide)
      (Modem.Uart.encodeUart_length_le sound.modem) (by decide),
      Modem.Uart.decode_blobOf sound.modem⟩
  | smartcard =>
    exact ⟨_, Smartcard.Port.snapshot_eq sound.smartcard, frame_short _ (by decide)
      (Smartcard.Port.encodePort_length_le sound.smartcard) (by decide),
      Smartcard.Port.decode_blobOf sound.smartcard⟩
  | i2c =>
    obtain ⟨copy, saved, restored⟩ := I2c.Controller.restore_snapshot sound.i2c
    refine ⟨copy, saved, ?_, ?_⟩
    · cases (I2c.Controller.snapshot_frame sound.i2c).symm.trans saved
      exact frame_short _ (by decide)
        (I2c.Controller.encodeController_length_le sound.i2c.toTransferring
          (sound.i2c.fault.trans (by decide))) (by decide)
    · exact bind_eq_ok.mpr ⟨_, restored _ _ ⟨rfl, rfl⟩, rfl⟩
  | csi =>
    exact ⟨_, Csi.Link.snapshot_eq sound.csi, frame_short _ (by decide)
      (Csi.Link.encodeLink_length_le sound.csi) (by decide),
      Csi.Link.decode_blobOf sound.csi⟩
  | latch =>
    have saved := @WordLatch.snapshot_eq Boardlatch.name (by decide) (by decide) b.latch
    exact ⟨_, saved, frame_short 4 (by decide) (by rw [bigEndian_length]) (by decide),
      @WordLatch.restore_blobOf Boardlatch.name (by decide) _ b.latch⟩
  | audio =>
    refine ⟨_, Audio.Control.snapshot_eq _, frame_short 0x1000 (by decide) ?_ (by decide),
      Audio.Control.restore_blobOf _⟩
    rw [encodeBytes_length, cells_length]
    decide
  | mux =>
    have saved := @WordLatch.snapshot_eq I2c.Mux.name (by decide) (by decide) b.mux
    exact ⟨_, saved, frame_short 4 (by decide) (by rw [bigEndian_length]) (by decide),
      @WordLatch.restore_blobOf I2c.Mux.name (by decide) _ b.mux⟩
  | flashU203 =>
    exact ⟨_, Memory.Flash.snapshot_eq sound.flashU203,
      frame_short _ sound.flashU203.nameFits
        (Memory.Flash.encodeFlash_length_le sound.flashU203) (by decide),
      Memory.Flash.restore_blobOf sound.flashU203⟩
  | flashU202 =>
    exact ⟨_, Memory.Flash.snapshot_eq sound.flashU202,
      frame_short _ sound.flashU202.nameFits
        (Memory.Flash.encodeFlash_length_le sound.flashU202) (by decide),
      Memory.Flash.restore_blobOf sound.flashU202⟩

/-- What a device's state must satisfy on a sound board. -/
def Fits : (r : Region) → r.State → Prop
  | .video, v => v.Inside
  | .dma, d => d.fault.length ≤ 256
  | .demux, d => d.Coherent
  | .modem, u => u.Bounded
  | .smartcard, p => p.Bounded
  | .i2c, c => c.WellFormed ∧ c.store.isSome ∧ c.demod.isSome
  | .csi, l => l.Bounded
  | .flashU203, f => f.name = Region.flashU203.name ∧
      f.bytes.length = Region.flashU203.size.toNat ∧ Memory.Flash.validCommand f.command = true
  | .flashU202, f => f.name = Region.flashU202.name ∧
      f.bytes.length = Region.flashU202.size.toNat ∧ Memory.Flash.validCommand f.command = true
  | _, _ => True

theorem sound_iff : b.Sound ↔ ∀ r, Fits r (b.get r) := by
  constructor
  · intro sound r
    cases r with
    | video => exact sound.video
    | dma => exact sound.dma
    | demux => exact sound.demux
    | modem => exact sound.modem
    | smartcard => exact sound.smartcard
    | i2c => exact ⟨sound.i2c, sound.store, sound.demod⟩
    | csi => exact sound.csi
    | flashU203 => exact ⟨sound.u203, sound.sizeU203, sound.commandU203⟩
    | flashU202 => exact ⟨sound.u202, sound.sizeU202, sound.commandU202⟩
    | _ => exact trivial
  · intro fits
    obtain ⟨u203, sizeU203, commandU203⟩ := fits .flashU203
    obtain ⟨u202, sizeU202, commandU202⟩ := fits .flashU202
    obtain ⟨i2c, store, demod⟩ := fits .i2c
    exact {
      u203, u202, sizeU203, sizeU202, store, demod, i2c, commandU203, commandU202
      video := fits .video
      dma := fits .dma
      demux := fits .demux
      modem := fits .modem
      smartcard := fits .smartcard
      csi := fits .csi }

/-- The configuration is no part of what a device must satisfy. -/
theorem fits_configured {path : List Byte} {r : Region} {s : r.State} :
    Fits r (configured path r s) ↔ Fits r s := by
  cases r with
  | i2c =>
    constructor
    · exact fun ⟨c, slaves⟩ => ⟨{ c with }, slaves⟩
    · exact fun ⟨c, slaves⟩ => ⟨{ c with }, slaves⟩
  | csi => exact ⟨fun l => { l with }, fun l => { l with }⟩
  | _ => exact Iff.rfl

/-- Devices that differ in their configuration only are as sound. -/
theorem Sound.of_alike {b' : Board} (sound : b.Sound)
    (alike : ∀ r, r ≠ .irq → configured [] r (b'.get r) = configured [] r (b.get r)) :
    b'.Sound := by
  rw [sound_iff] at sound ⊢
  intro r
  by_cases irq : r = .irq
  · subst irq
    exact trivial
  · rw [← @fits_configured [] r (b'.get r), alike r irq, fits_configured]
    exact sound r

def flashSize : Nat :=
  0x200000

/-- `New`: the reset devices around the two firmware images. -/
def new (u202 u203 : List Byte) : Except String Board :=
  if u202.length ≠ flashSize ∨ u203.length ≠ flashSize then
    .error "board: verified U202 and U203 firmware images are required"
  else do
    let flashU202 ← Memory.Flash.new Region.flashU202.name u202
    let flashU203 ← Memory.Flash.new Region.flashU203.name u203
    return { flashU202, flashU203, i2c := { store := some {}, demod := some {} } }

theorem flash_new_ok {name image : List Byte} {f : Memory.Flash}
    (made : Memory.Flash.new name image = .ok f) : f = { name, bytes := image } := by
  unfold Memory.Flash.new at made
  split_ifs at made
  exact (Except.ok.inj made).symm

/-- A board as it is assembled is sound. -/
theorem new_sound {u202 u203 : List Byte} (made : new u202 u203 = .ok b) : b.Sound := by
  unfold new at made
  split_ifs at made with wrong
  rw [not_or, not_not, not_not] at wrong
  obtain ⟨flashU202, first, made⟩ := bind_eq_ok.mp made
  obtain ⟨flashU203, second, made⟩ := bind_eq_ok.mp made
  cases made
  cases flash_new_ok first
  cases flash_new_ok second
  exact {
    u203 := rfl
    u202 := rfl
    sizeU203 := wrong.2
    sizeU202 := wrong.1
    store := rfl
    demod := rfl
    video := Nat.two_pow_pos 20
    dma := Nat.zero_le 256
    demux := Demux.Registers.new_coherent
    modem := ⟨Nat.zero_le _, Nat.zero_le _⟩
    smartcard := ⟨Nat.zero_le _, Nat.zero_le _⟩
    i2c := I2c.Controller.new_wellFormed _ _ (fun m member => by
      cases member
      exact Demod.Model.new_wellFormed) _
    csi := ⟨Nat.zero_le _, Nat.zero_le _, Nat.zero_le _, Nat.zero_le _⟩
    commandU203 := show Memory.Flash.validCommand 0 = true by decide
    commandU202 := show Memory.Flash.validCommand 0 = true by decide }

/-- The devices of a board that is assembled are reset. -/
theorem new_eq {u202 u203 : List Byte} (made : new u202 u203 = .ok b) :
    ∃ flashU202 flashU203, b =
      { flashU202, flashU203, i2c := { store := some {}, demod := some {} } } := by
  unfold new at made
  split_ifs at made
  obtain ⟨flashU202, -, made⟩ := bind_eq_ok.mp made
  obtain ⟨flashU203, -, made⟩ := bind_eq_ok.mp made
  cases made
  exact ⟨flashU202, flashU203, rfl⟩

/-- No line of a board that is assembled is raised. -/
theorem new_settled {u202 u203 : List Byte} (made : new u202 u203 = .ok b) : b.Settled := by
  obtain ⟨flashU202, flashU203, isBoard⟩ := new_eq made
  intro r
  have quiet : level r (b.get r) = false := by
    rw [isBoard]
    cases r with
    | dma => exact show Dma.Controller.line {} = false by decide
    | demux =>
      change Demux.Registers.line {} = false
      simp [Demux.Registers.line, Demux.Registers.active, cells]
    | modem => exact show Modem.Uart.wantsIRQ {} = false by decide
    | timer => exact show Hwtimer.Timer.line {} = false by decide
    | smartcard => exact show Smartcard.Port.line {} = false by decide
    | csi => exact show Csi.Link.line {} = false by decide
    | _ => rfl
  have clear : b.wire.pending = 0 := by
    rw [isBoard]
  rw [Level, quiet, clear]
  exact BitVec.zero_and

/-- Images of the right length are made a board of. -/
theorem new_of_length {u202 u203 : List Byte} (size : u202.length = flashSize)
    (size' : u203.length = flashSize) :
    new u202 u203 = .ok {
      flashU202 := { name := Region.flashU202.name, bytes := u202 }
      flashU203 := { name := Region.flashU203.name, bytes := u203 }
      i2c := { store := some {}, demod := some {} } } := by
  have some_ {image : List Byte} (length : image.length = flashSize) : image ≠ [] := fun empty => by
    rw [empty] at length
    cases length
  unfold new
  rw [if_neg (fun wrong => wrong.elim (· size) (· size'))]
  refine bind_eq_ok.mpr ⟨{ name := Region.flashU202.name, bytes := u202 }, ?_,
    bind_eq_ok.mpr ⟨{ name := Region.flashU203.name, bytes := u203 }, ?_, rfl⟩⟩
  · exact (if_neg (show Region.flashU202.name ≠ [] by decide)).trans (if_neg (some_ size))
  · exact (if_neg (show Region.flashU203.name ≠ [] by decide)).trans (if_neg (some_ size'))

/-- An image of an erased part. -/
def erased : List Byte :=
  List.replicate flashSize 0xff

theorem new_erased : ∃ b, new erased erased = .ok b :=
  ⟨_, new_of_length List.length_replicate List.length_replicate⟩

end Board

end GoRetroTv
