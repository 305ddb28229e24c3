import GoRetroTv.DemuxSnapshot
import GoRetroTv.DemuxTransport

/-!
# Programme bursts

`internal/device/demux/transport.go`: the packets of a programme enter the device at an
instruction-counted cadence, and the host takes those that were kept for its decoder.  What
a restore asks of the registers is kept by everything that happens to them.
-/

namespace GoRetroTv

namespace Demux

open Cpu Memory Multiplex Broadcast

namespace Receiver

/-- `ScheduleTransport`. -/
def scheduleTransport (data : List Byte) (first period : DoubleWord) : Action PUnit := fun s =>
  let d := s.registers
  if d.programmeScheduled then .error "demux: programme transport is already scheduled" s
  else if period = 0 then .error "demux: programme transport period is zero" s
  else if data = [] ∨ data.length % transportPacketSize ≠ 0 ∨ maxProgrammeTransport < data.length then
    .error s!"demux: programme transport has invalid length {data.length}" s
  else
    let packets := List.range (data.length / transportPacketSize)
    match packets.find? fun i => data.getD (transportPacketSize * i) 0 != 0x47 with
    | some i =>
        .error (s!"demux: programme transport packet {i} has sync byte " ++
          hexText 2 (data.getD (transportPacketSize * i) 0).toNat) s
    | none =>
        .ok ⟨⟩ { s with registers := { d with
          scheduledTransport := data
          scheduledCursor := 0
          nextProgrammeAt := first
          programmePeriod := period
          programmeScheduled := true } }

/-- The burst behind a packet that has entered. -/
def advanceBurst (s : Receiver) : Receiver :=
  let d := s.registers
  let cursor := d.scheduledCursor + BitVec.ofNat 32 transportPacketSize
  { s with registers := { d with
      scheduledCursor := cursor
      nextProgrammeAt := d.nextProgrammeAt + d.programmePeriod
      programmeScheduled :=
        d.programmeScheduled && cursor.toNat != d.scheduledTransport.length } }

/-- The packet at the cursor. -/
def nextPacket (d : Registers) : List Byte :=
  (d.scheduledTransport.drop d.scheduledCursor.toNat).take transportPacketSize

/-- The loop of `Pump`, which admits no more packets than the burst has. -/
def pumpFrom (now : DoubleWord) : Nat → Action PUnit
  | 0 => pure ⟨⟩
  | packets + 1 => fun s =>
      let d := s.registers
      if d.programmeScheduled ∧ d.nextProgrammeAt ≤ now then
        (pushTransport (nextPacket d) >>= fun _ =>
          modify advanceBurst >>= fun _ => pumpFrom now packets) s
      else .ok ⟨⟩ s

def pump (now : DoubleWord) : Action PUnit := fun s =>
  pumpFrom now (s.registers.scheduledTransport.length / transportPacketSize) s

/-- `TakeProgrammeTransport`. -/
def takeProgrammeTransport (s : Receiver) : List Byte × Receiver :=
  (s.registers.programmeTransport,
    { s with registers := { s.registers with programmeTransport := [] } })

open Registers

variable {channel : Filter} {section_ payload data packet : List Byte} {s : Receiver}

/-- The registers are coherent but for the packet that is being collected. -/
def Settled (s : Receiver) : Prop :=
  Coherent { s.registers with transportPacket := [] }

theorem Settled.keepPacket (settled : s.Settled) : (s.keepPacket packet).Settled :=
  settled

theorem Settled.keepPart {part : List Byte} (settled : s.Settled)
    (fits : part.length ≤ maxTransportSection) : (s.keepPart channel part).Settled where
  selected := settled.selected
  parts other := by
    change (Function.update s.registers.transportPart channel part other).length ≤ _
    by_cases here : other = channel
    · rw [here, Function.update_self]
      exact fits
    · rw [Function.update_of_ne here]
      exact settled.parts other
  packet := settled.packet
  sync := settled.sync
  programme := settled.programme
  scheduled := settled.scheduled
  cursor := settled.cursor
  due := settled.due
  pointers := settled.pointers

theorem Settled.pointer {pointer : Word} {ram : Ram} {wire : Irq.Wire} (settled : s.Settled)
    (fits : pointer.toNat ≤ 0x1fffff) :
    Settled { ram, wire, registers := { s.registers with
      writePointer := Function.update s.registers.writePointer channel pointer } } where
  selected := settled.selected
  parts := settled.parts
  packet := settled.packet
  sync := settled.sync
  programme := settled.programme
  scheduled := settled.scheduled
  cursor := settled.cursor
  due := settled.due
  pointers other := by
    change (Function.update s.registers.writePointer channel pointer other).toNat ≤ _
    by_cases here : other = channel
    · rw [here, Function.update_self]
      exact fits
    · rw [Function.update_of_ne here]
      exact settled.pointers other

theorem Settled.complete (settled : s.Settled) : (s.complete channel).Settled where
  selected := settled.selected
  parts := settled.parts
  packet := settled.packet
  sync := settled.sync
  programme := settled.programme
  scheduled := settled.scheduled
  cursor := settled.cursor
  due := settled.due
  pointers := settled.pointers

/-- A write pointer behind a section lies in the ring or at its end. -/
theorem Settled.pushFilter (settled : s.Settled) (fits : section_.length + 1 ≤ ringSize) :
    (s.pushFilter channel section_).Settled := by
  unfold Receiver.pushFilter
  refine Settled.complete (settled.pointer ?_)
  obtain ⟨start, inside, placed⟩ := @place_fits channel (s.registers.writePointer channel) _ fits
  have below := channel.isLt
  have base : (ringBase channel).toNat = channel.toNat * ringSize := by
    unfold ringBase ringSize
    rw [BitVec.toNat_ofNat, Nat.mod_eq_of_lt (by omega)]
  unfold ringSize at *
  have from_ : (BitVec.ofNat 32 start).toNat = start := by
    rw [BitVec.toNat_ofNat, Nat.mod_eq_of_lt (by omega)]
  have length : (BitVec.ofNat 32 section_.length).toNat = section_.length := by
    rw [BitVec.toNat_ofNat, Nat.mod_eq_of_lt (by omega)]
  have one : (1 : Word).toNat = 1 := rfl
  have whole : channel.toNat * 12288 + start + section_.length < 2 ^ 32 := by omega
  rw [placed, BitVec.toNat_add, BitVec.toNat_add, BitVec.toNat_add, base, from_, length, one,
    Nat.mod_eq_of_lt (Nat.lt_of_le_of_lt (Nat.le_add_right _ _) whole), Nat.mod_eq_of_lt whole]
  exact (Nat.mod_le _ _).trans (by omega)

theorem acceptROMTransportSection_settled :
    Keeps Settled (acceptROMTransportSection channel section_) := by
  refine keeps_of_stateOf fun s settled => ?_
  unfold acceptROMTransportSection
  dsimp only
  split
  · split
    · exact settled
    next roomy =>
      refine settled.pointer ?_
      rw [BitVec.toNat_add, BitVec.toNat_add, BitVec.toNat_ofNat]
      have one : (1 : Word).toNat = 1 := rfl
      rw [one]
      omega
  · exact settled

theorem Unfinished.length_le {part : List Byte} (unfinished : Unfinished part) :
    part.length ≤ maxTransportSection := by
  rcases unfinished with short | ⟨_, most, unended⟩
  · unfold maxTransportSection
    omega
  · omega

theorem settled_carried : Carried channel Settled where
  part settled unfinished := settled.keepPart unfinished.length_le
  pushed settled valid := settled.pushFilter (fits_of_valid valid)
  rom := acceptROMTransportSection_settled

/-- A packet more that waits for the host. -/
theorem packets_append {transport : List Byte} (packets : Packets transport)
    (length : packet.length = transportPacketSize) (sync : packet.getD 0 0 = 0x47)
    (room : transport.length + packet.length ≤ maxProgrammeTransport) :
    Packets (transport ++ packet) where
  whole := by
    have whole := packets.wholePackets
    refine decide_eq_true ⟨?_, ?_⟩
    · rw [List.length_append]
      exact room
    · rw [List.length_append, length, Nat.add_mod_right, whole]
  sync := by
    have whole := packets.wholePackets
    have positive : 0 < transportPacketSize := by decide
    unfold syncOk
    rw [List.length_append, length, Nat.add_div_right _ positive, List.all_eq_true]
    intro i member
    have below := List.mem_range.mp member
    rw [beq_iff_eq]
    by_cases last : i = transport.length / transportPacketSize
    · have here : transportPacketSize * i = transport.length := by
        rw [last]
        exact Nat.mul_div_cancel' (Nat.dvd_of_mod_eq_zero whole)
      rw [here, List.getD_eq_getElem?_getD, List.getElem?_append_right (Nat.le_refl _),
        Nat.sub_self, ← List.getD_eq_getElem?_getD]
      exact sync
    · have inside : transportPacketSize * i < transport.length := by
        have next : transportPacketSize * (i + 1) ≤ transport.length :=
          (Nat.mul_le_mul_left _ (by omega)).trans (Nat.mul_div_le _ _)
        rw [Nat.mul_add] at next
        omega
      rw [List.getD_eq_getElem?_getD, List.getElem?_append_left inside,
        ← List.getD_eq_getElem?_getD]
      have earlier := List.all_eq_true.mp packets.sync i (List.mem_range.mpr (by omega))
      exact beq_iff_eq.mp earlier

/-- A whole packet that starts with the sync byte. -/
structure IsPacket (packet : List Byte) : Prop where
  length : packet.length = transportPacketSize
  sync : packet.getD 0 0 = 0x47

theorem pushTransportPacket_settled (isPacket : IsPacket packet) :
    Keeps Settled (pushTransportPacket packet) := by
  refine keeps_of_stateOf fun s settled => ?_
  unfold pushTransportPacket
  dsimp only
  generalize (if byteAt packet 3 >>> 4 &&& 3 &&& 2 ≠ 0 then
    4 + 1 + (byteAt packet 4).toNat else 4) = pos
  split
  · exact settled
  · split
    · exact settled
    · split
      · split
        · exact settled
        next room =>
          exact { settled with
            programme := packets_append settled.programme isPacket.length isPacket.sync (by omega) }
      · exact stateOf_of_keeps (.forM fun other => settled_carried.pushChannel) settled

end Receiver

end Demux

end GoRetroTv
