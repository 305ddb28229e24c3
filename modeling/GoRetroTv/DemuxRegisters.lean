import GoRetroTv.AddressedCells
import GoRetroTv.BoardInterrupts
import GoRetroTv.SnapshotRecords

/-!
# The demultiplexer's registers

`internal/device/demux/registers.go`: the status and enable words of four
interrupt groups, the section channels' PIDs and write pointers, the match
units, and what the transport path carries from one packet to the next.
-/

namespace GoRetroTv

namespace Demux

open Snapcodec Cpu

/-- A section channel and its ring. -/
abbrev Filter := BitVec 5

/-- One of the sixteen match units, or the index of one of its rules. -/
abbrev Nibble := BitVec 4

def filterCount : Nat :=
  32

def snapshotVersion : Half :=
  8

def transportPacketSize : Nat :=
  188

def maxTransportSection : Nat :=
  4096

def maxProgrammeTransport : Nat :=
  2 * 1024 * 1024

/-- Dispatch row zero of the board's controller. -/
def irqMask : Word :=
  0x01000000

structure Registers where
  status : BitVec 2 → Word := fun _ => 0
  enable : BitVec 2 → Word := fun _ => 0
  selectedFilter : Filter := 0
  selectedIndirect : Byte := 0
  writePointer : Filter → Word := fun _ => 0
  pidChannels : Filter → Word := fun _ => 0
  pidWritten : Filter → Bool := fun _ => false
  programmePIDs : BitVec 1 → Word := fun _ => 0
  matchValue : Word := 0
  matchUnit : Nibble := 0
  matchIndex : Nibble := 0
  matchWords : Nibble → Nibble → Word := fun _ _ => 0
  control140 : Word := 0
  indirectData : Word := 0
  indirect : Filter → Word := fun _ => 0
  transportPart : Filter → List Byte := fun _ => []
  transportPacket : List Byte := []
  programmeTransport : List Byte := []
  scheduledTransport : List Byte := []
  scheduledCursor : Word := 0
  nextProgrammeAt : DoubleWord := 0
  programmePeriod : DoubleWord := 0
  programmeScheduled : Bool := false

/-- The registers with their line to the board. -/
abbrev Attached := Registers × Irq.Wire

def widthMask : Size → Word
  | .byte => 0xff
  | .half => 0xffff
  | .word => ~~~0

/-- How far an access of a size lies from the low end of its word. -/
def laneShift (off : Word) : Size → Nat
  | .byte => (3 - (off &&& 3)).toNat * 8
  | .half => (2 - (off &&& 2)).toNat * 8
  | .word => 0

/-- The bank of a status or enable register. -/
def bank (first reg : Word) : BitVec 2 :=
  ((reg - first) >>> 2).setWidth 2

namespace Registers

/-- A register as a whole word; what has no measured read contract is zero. -/
def readWord (reg : Word) (d : Registers) : Word :=
  if 0xb0 ≤ reg ∧ reg ≤ 0xbc then d.status (bank 0xb0 reg)
  else if 0xd0 ≤ reg ∧ reg ≤ 0xdc then d.enable (bank 0xd0 reg)
  else if reg = 0x128 then d.writePointer d.selectedFilter &&& 0x1fffff
  else if reg = 0x140 then d.control140
  else 0

def read (off : Word) (size : Size) (d : Registers) : Word :=
  d.readWord (off &&& ~~~3) >>> laneShift off size &&& widthMask size

/-- The completed and enabled channels of every group. -/
def active (d : Registers) : Word :=
  (cells d.status).zipWith (· &&& ·) (cells d.enable) |>.foldl (· ||| ·) 0

/-- The level `updateLine` drives. -/
def line (d : Registers) : Bool :=
  d.active != 0

def updateLine (wire : Irq.Wire) (d : Registers) : Attached :=
  (d, wire.setLine irqMask d.line)

/-- `Reset`. -/
def reset (wire : Irq.Wire) : Attached :=
  ({} : Registers).updateLine wire

/-- The command port at `0x124` selects an indirect word and may store there. -/
def selectIndirect (value : Word) (d : Registers) : Registers :=
  let selected : Byte := (value &&& 0x7f).setWidth 8
  let filter : Filter := (selected >>> 2).setWidth 5
  let d := { d with selectedIndirect := selected, selectedFilter := filter }
  if value &&& 0xc000 = 0xc000 then
    let d :=
      if selected.toNat < filterCount then
        { d with indirect := Function.update d.indirect (selected.setWidth 5) d.indirectData }
      else d
    if selected &&& 3 = 0 then
      { d with
        writePointer := Function.update d.writePointer filter (d.indirectData &&& 0x1fffff) }
    else d
  else d

/-- The command port at `0x144` selects a rule and may store there. -/
def selectMatch (value : Word) (d : Registers) : Registers :=
  let unit : Nibble := value.setWidth 4
  let index : Nibble := (value >>> 4).setWidth 4
  let d := { d with matchUnit := unit, matchIndex := index }
  if value &&& 0x8000 ≠ 0 then
    { d with
      matchWords := Function.update d.matchWords unit
        (Function.update (d.matchWords unit) index d.matchValue) }
  else d

def writeChannel (reg value : Word) (d : Registers) : Registers :=
  let channel : Filter := ((reg - 0x14) >>> 2).setWidth 5
  { d with
    pidChannels := Function.update d.pidChannels channel value
    pidWritten := Function.update d.pidWritten channel true }

def write (off : Word) (size : Size) (value : Word) (wire : Irq.Wire) (d : Registers) :
    Attached :=
  let reg := off &&& ~~~3
  let mask := widthMask size <<< laneShift off size
  let bits := value <<< laneShift off size &&& mask
  if 0xb0 ≤ reg ∧ reg ≤ 0xbc then
    let i := bank 0xb0 reg
    { d with status := Function.update d.status i (d.status i &&& (~~~mask ||| bits)) }.updateLine
      wire
  else if 0xd0 ≤ reg ∧ reg ≤ 0xdc then
    let i := bank 0xd0 reg
    { d with enable := Function.update d.enable i (d.enable i ||| bits) }.updateLine wire
  else if reg = 0 ∧ value &&& 1 ≠ 0 then reset wire
  else if reg = 0x124 then (d.selectIndirect value, wire)
  else if reg = 0x128 then ({ d with indirectData := value }, wire)
  else if reg = 0x140 then ({ d with control140 := value }, wire)
  else if reg = 0x94 then
    ({ d with programmePIDs := Function.update d.programmePIDs 0 value }, wire)
  else if reg = 0x98 then
    ({ d with programmePIDs := Function.update d.programmePIDs 1 value }, wire)
  else if 0x14 ≤ reg ∧ reg < 0x94 then (d.writeChannel reg value, wire)
  else if reg = 0x148 then ({ d with matchValue := value }, wire)
  else if reg = 0x144 ∧ value &&& 0x4000 ≠ 0 then (d.selectMatch value, wire)
  else (d, wire)

def selection (d : Registers) : List Word :=
  [d.selectedFilter.setWidth 32, d.selectedIndirect.setWidth 32]

def matchState (d : Registers) : List Word :=
  [d.matchValue, d.matchUnit.setWidth 32, d.matchIndex.setWidth 32]

def snapshot (d : Registers) : Except String (List Byte) :=
  newWriter (ascii "emma-demux") snapshotVersion
    |>.words (cells d.status)
    |>.words (cells d.enable)
    |>.words d.selection
    |>.words (cells d.writePointer)
    |>.words (cells d.pidChannels)
    |> (cells d.pidWritten).foldl (fun w written => w.bool written)
    |>.words (cells d.programmePIDs)
    |>.words d.matchState
    |> (cells d.matchWords).foldl (fun w unit => w.words (cells unit))
    |>.words [d.control140, d.indirectData]
    |>.words (cells d.indirect)
    |> (cells d.transportPart).foldl (fun w part => w.bytes part)
    |>.bytes d.transportPacket
    |>.bytes d.programmeTransport
    |>.bytes d.scheduledTransport
    |>.uint32 d.scheduledCursor
    |>.uint64 d.nextProgrammeAt
    |>.uint64 d.programmePeriod
    |>.bool d.programmeScheduled
    |>.blob

/-- One match unit's words. -/
def readMatchUnit : Reading (Nibble → Word) := do
  let entry ← Reading.words
  Reading.require (decide (entry.length = 16)) "demux: restore: invalid match unit"
  return ofCells 0 entry

/-- The programme PIDs, which version 6 added. -/
def readProgrammePIDs (version : Half) : Reading (List Word) :=
  if 6 ≤ version then do
    let values ← Reading.words
    Reading.require (decide (values.length = 2))
      "demux: restore: invalid programme PID register count"
    return values
  else pure [0, 0]

/-- A programme burst that is still entering the device, which version 8 added. -/
structure Burst where
  transport : List Byte := []
  cursor : Word := 0
  next : DoubleWord := 0
  period : DoubleWord := 0
  scheduled : Bool := false

def readBurst (version : Half) : Reading Burst :=
  if 8 ≤ version then do
    let transport ← Reading.bytes
    let cursor ← Reading.uint32
    let next ← Reading.uint64
    let period ← Reading.uint64
    let scheduled ← Reading.bool
    return { transport, cursor, next, period, scheduled }
  else pure {}

/-- Whole packets, each of which starts with the sync byte. -/
def packetsOk (transport : List Byte) : Bool :=
  decide (transport.length ≤ maxProgrammeTransport ∧ transport.length % transportPacketSize = 0)

def syncOk (transport : List Byte) : Bool :=
  (List.range (transport.length / transportPacketSize)).all fun i =>
    transport.getD (transportPacketSize * i) 0 == 0x47

/-- The selected indirect word and the filter it belongs to. -/
def selectionOk (selected : List Word) : Bool :=
  let filter := selected.getD 0 0
  let indirect := selected.getD 1 0
  decide (selected.length = 2 ∧ filter.toNat < filterCount ∧ indirect.toNat ≤ 0x7f ∧
    filter = indirect >>> 2)

def matchStateOk (state : List Word) : Bool :=
  decide (state.length = 3 ∧ (state.getD 1 0).toNat < 16 ∧ (state.getD 2 0).toNat < 16)

def readSnapshot (version : Half) : Reading Registers := do
  let status ← Reading.words
  let enable ← Reading.words
  let selected ← Reading.words
  let pointers ← Reading.words
  let channels ← Reading.words
  let written ← Reading.bool.times filterCount
  let programmePIDs ← readProgrammePIDs version
  let matchState ← Reading.words
  let units ← readMatchUnit.times 16
  let transportState ← Reading.words
  let indirect ← Reading.words
  let parts ← Reading.bytes.times filterCount
  let packet ← Reading.bytes
  let programmeTransport ← if 7 ≤ version then Reading.bytes else pure []
  let burst ← readBurst version
  Reading.wrap "demux: restore: " Reading.done
  Reading.require
    (decide (status.length = 4 ∧ enable.length = 4) && selectionOk selected &&
      decide (pointers.length = filterCount ∧ channels.length = filterCount) &&
      matchStateOk matchState &&
      decide (transportState.length = 2 ∧ indirect.length = filterCount))
    "demux: restore: incompatible register count"
  Reading.require (parts.all fun part => decide (part.length ≤ maxTransportSection))
    "demux: restore: oversized transport section"
  Reading.require
    (decide (packet.length < transportPacketSize ∧ (packet = [] ∨ packet.getD 0 0 = 0x47)))
    "demux: restore: invalid transport packet"
  Reading.require (packetsOk programmeTransport) "demux: restore: invalid programme transport"
  Reading.require (syncOk programmeTransport) "demux: restore: invalid programme transport sync"
  Reading.require
    (packetsOk burst.transport &&
      decide (burst.cursor.toNat ≤ burst.transport.length ∧
        burst.cursor.toNat % transportPacketSize = 0))
    "demux: restore: invalid scheduled transport"
  Reading.require (syncOk burst.transport) "demux: restore: invalid scheduled transport sync"
  Reading.require
    (!(burst.scheduled && decide (burst.period = 0 ∨ burst.transport = [] ∨
      burst.transport.length ≤ burst.cursor.toNat)))
    "demux: restore: invalid programme schedule"
  Reading.require (pointers.all fun pointer => decide (pointer.toNat ≤ 0x1fffff))
    "demux: restore: invalid write pointer"
  return {
    status := ofCells 0 status
    enable := ofCells 0 enable
    selectedFilter := (selected.getD 0 0).setWidth 5
    selectedIndirect := (selected.getD 1 0).setWidth 8
    writePointer := ofCells 0 pointers
    pidChannels := ofCells 0 channels
    pidWritten := ofCells false written
    programmePIDs := ofCells 0 programmePIDs
    matchValue := matchState.getD 0 0
    matchUnit := (matchState.getD 1 0).setWidth 4
    matchIndex := (matchState.getD 2 0).setWidth 4
    matchWords := ofCells (fun _ => 0) units
    control140 := transportState.getD 0 0
    indirectData := transportState.getD 1 0
    indirect := ofCells 0 indirect
    transportPart := ofCells [] parts
    transportPacket := packet
    programmeTransport
    scheduledTransport := burst.transport
    scheduledCursor := burst.cursor
    nextProgrammeAt := burst.next
    programmePeriod := burst.period
    programmeScheduled := burst.scheduled }

/-- What `Restore` reads. -/
def decode (blob : List Byte) : Except String Registers :=
  restoringVersion blob (ascii "emma-demux") 5 snapshotVersion "demux: restore: " readSnapshot

def restore (blob : List Byte) (wire : Irq.Wire) : Except String Attached := do
  let d ← decode blob
  return d.updateLine wire

def encodeBurst (d : Registers) : List Byte :=
  encodeBytes d.scheduledTransport ++
    (bigEndian 4 d.scheduledCursor.toNat ++
      (bigEndian 8 d.nextProgrammeAt.toNat ++
        (bigEndian 8 d.programmePeriod.toNat ++ encodeBool d.programmeScheduled)))

def encodeRegisters (d : Registers) : List Byte :=
  encodeWords (cells d.status) ++
    (encodeWords (cells d.enable) ++
      (encodeWords d.selection ++
        (encodeWords (cells d.writePointer) ++
          (encodeWords (cells d.pidChannels) ++
            ((cells d.pidWritten).flatMap encodeBool ++
              (encodeWords (cells d.programmePIDs) ++
                (encodeWords d.matchState ++
                  ((cells d.matchWords).flatMap (fun unit => encodeWords (cells unit)) ++
                    (encodeWords [d.control140, d.indirectData] ++
                      (encodeWords (cells d.indirect) ++
                        ((cells d.transportPart).flatMap encodeBytes ++
                          (encodeBytes d.transportPacket ++
                            (encodeBytes d.programmeTransport ++ encodeBurst d)))))))))))))

theorem written (d : Registers) :
    Written (ascii "emma-demux") snapshotVersion (encodeRegisters d)
      (newWriter (ascii "emma-demux") snapshotVersion
        |>.words (cells d.status)
        |>.words (cells d.enable)
        |>.words d.selection
        |>.words (cells d.writePointer)
        |>.words (cells d.pidChannels)
        |> (cells d.pidWritten).foldl (fun w written => w.bool written)
        |>.words (cells d.programmePIDs)
        |>.words d.matchState
        |> (cells d.matchWords).foldl (fun w unit => w.words (cells unit))
        |>.words [d.control140, d.indirectData]
        |>.words (cells d.indirect)
        |> (cells d.transportPart).foldl (fun w part => w.bytes part)
        |>.bytes d.transportPacket
        |>.bytes d.programmeTransport
        |>.bytes d.scheduledTransport
        |>.uint32 d.scheduledCursor
        |>.uint64 d.nextProgrammeAt
        |>.uint64 d.programmePeriod
        |>.bool d.programmeScheduled) := by
  have channels := (Written.start (ascii "emma-demux") snapshotVersion).words (cells d.status)
    |>.words (cells d.enable) |>.words d.selection |>.words (cells d.writePointer)
    |>.words (cells d.pidChannels)
  have rules := (channels.foldl encodeBool (fun value written => written.bool value)
    (cells d.pidWritten)).words (cells d.programmePIDs) |>.words d.matchState
  have parts := (rules.foldl (fun unit => encodeWords (cells unit)) (fun unit written => written.words (cells unit))
    (cells d.matchWords)).words [d.control140, d.indirectData] |>.words (cells d.indirect)
  have fields := (parts.foldl encodeBytes (fun part written => written.bytes part)
    (cells d.transportPart)).bytes d.transportPacket |>.bytes d.programmeTransport
    |>.bytes d.scheduledTransport |>.uint32 d.scheduledCursor |>.uint64 d.nextProgrammeAt
    |>.uint64 d.programmePeriod |>.bool d.programmeScheduled
  simpa only [encodeRegisters, encodeBurst, List.nil_append, List.append_assoc] using fields

theorem cells_fit {width : Nat} (small : width < 32) (array : BitVec width → Word) :
    (cells array).length < wordLimit := by
  rw [cells_length]
  exact Nat.pow_lt_pow_right (by decide) small

/-- A narrow register comes back out of the word it was written as. -/
theorem setWidth_word {width : Nat} (narrow : width ≤ 32) (value : BitVec width) :
    (value.setWidth 32).setWidth width = value := by
  rw [BitVec.setWidth_setWidth_of_le value narrow, BitVec.setWidth_eq]

theorem reads_matchUnit (unit : Nibble → Word) :
    ReadsIfAccepted readMatchUnit (encodeWords (cells unit)) unit := by
  refine .bind_last (.of_reads (.words (cells_fit (by decide) unit))) ?_
  refine .bind_check (.require _ _) ?_
  rw [ofCells_cells]
  exact .pure unit

theorem reads_programmePIDs (pids : BitVec 1 → Word) :
    ReadsIfAccepted (readProgrammePIDs snapshotVersion) (encodeWords (cells pids)) (cells pids) := by
  refine .bind_last (.of_reads (.words (cells_fit (by decide) pids))) ?_
  exact .bind_check (.require _ _) (.pure _)

theorem reads_burst {d : Registers} (fits : d.scheduledTransport.length < wordLimit) :
    ReadsIfAccepted (readBurst snapshotVersion) (encodeBurst d) {
      transport := d.scheduledTransport
      cursor := d.scheduledCursor
      next := d.nextProgrammeAt
      period := d.programmePeriod
      scheduled := d.programmeScheduled } := by
  refine .bind (.of_reads (.bytes fits)) ?_
  refine .bind (.of_reads (.uint32 _)) ?_
  refine .bind (.of_reads (.uint64 _)) ?_
  refine .bind (.of_reads (.uint64 _)) ?_
  refine .bind_last (.of_reads (.bool _)) ?_
  exact .pure _

theorem encodeBytes_le_flatMap {part : List Byte} {parts : List (List Byte)}
    (member : part ∈ parts) : part.length ≤ (parts.flatMap encodeBytes).length := by
  induction parts with
  | nil => cases member
  | cons first parts ih =>
      rw [List.flatMap_cons, List.length_append, encodeBytes_length]
      rcases List.mem_cons.mp member with rfl | later
      · omega
      · have := ih later
        omega

/-- Registers that accept their own snapshot are the same registers. -/
theorem decode_snapshot {d restored : Registers} {blob : List Byte} (taken : d.snapshot = .ok blob)
    (accepted : decode blob = .ok restored) : restored = d := by
  refine d.written.restoredVersion taken (fun fits => ?_) accepted
  simp only [encodeRegisters, encodeBurst, List.length_append, encodeBytes_length,
    ← Nat.add_assoc] at fits
  have partsFit : ∀ part ∈ cells d.transportPart,
      ReadsIfAccepted Reading.bytes (encodeBytes part) part := by
    intro part member
    have inside := encodeBytes_le_flatMap member
    exact .of_reads (.bytes (by omega))
  have packetFits : d.transportPacket.length < wordLimit := by omega
  have programmeFits : d.programmeTransport.length < wordLimit := by omega
  have scheduledFits : d.scheduledTransport.length < wordLimit := by omega
  have bools := ReadsIfAccepted.times (cells d.pidWritten)
    fun value _ => ReadsIfAccepted.of_reads (.bool value)
  have units := ReadsIfAccepted.times (cells d.matchWords)
    fun unit _ => reads_matchUnit unit
  have parts := ReadsIfAccepted.times _ partsFit
  simp only [cells_length, Nat.reducePow] at bools units parts
  unfold readSnapshot encodeRegisters
  refine .bind (.of_reads (.words (cells_fit (by decide) _))) ?_
  refine .bind (.of_reads (.words (cells_fit (by decide) _))) ?_
  refine .bind (.of_reads (.words (show 2 < wordLimit by decide))) ?_
  refine .bind (.of_reads (.words (cells_fit (by decide) _))) ?_
  refine .bind (.of_reads (.words (cells_fit (by decide) _))) ?_
  refine .bind bools ?_
  refine .bind (reads_programmePIDs _) ?_
  refine .bind (.of_reads (.words (show 3 < wordLimit by decide))) ?_
  refine .bind units ?_
  refine .bind (.of_reads (.words (show 2 < wordLimit by decide))) ?_
  refine .bind (.of_reads (.words (cells_fit (by decide) _))) ?_
  refine .bind parts ?_
  refine .bind (.of_reads (.bytes packetFits)) ?_
  rw [if_pos (show (7 : Half) ≤ snapshotVersion by decide)]
  refine .bind (.of_reads (.bytes programmeFits)) ?_
  refine .bind_last (reads_burst scheduledFits) ?_
  refine .bind_check (.wrap .done) ?_
  refine .bind_check (.require _ _) ?_
  refine .bind_check (.require _ _) ?_
  refine .bind_check (.require _ _) ?_
  refine .bind_check (.require _ _) ?_
  refine .bind_check (.require _ _) ?_
  refine .bind_check (.require _ _) ?_
  refine .bind_check (.require _ _) ?_
  refine .bind_check (.require _ _) ?_
  refine .bind_check (.require _ _) ?_
  have filter : (d.selection.getD 0 0).setWidth 5 = d.selectedFilter :=
    setWidth_word (by decide) _
  have indirect : (d.selection.getD 1 0).setWidth 8 = d.selectedIndirect :=
    setWidth_word (by decide) _
  have unit : (d.matchState.getD 1 0).setWidth 4 = d.matchUnit :=
    setWidth_word (by decide) _
  have index : (d.matchState.getD 2 0).setWidth 4 = d.matchIndex :=
    setWidth_word (by decide) _
  simp only [ofCells_cells, filter, indirect, unit, index]
  exact .pure d

end Registers

end Demux

end GoRetroTv
