import GoRetroTv.BoxSubscription
import GoRetroTv.DemuxRings

/-!
# The two ways into the demultiplexer

`internal/device/demux/push.go` and `transport.go`: a section is pushed whole, or its
transport packets are pushed byte by byte.  Each way decides by itself whether the match
units let the section through.  `internal/dvb/transport.go` makes the packets.
-/

namespace GoRetroTv

namespace Dvb

open Demux (transportPacketSize)

/-- One packet of `PacketizeSection`.  Only the first has a pointer field. -/
def sectionPacket (pid : Half) (first : Bool) (continuity : Byte) (payload : List Byte) :
    List Byte :=
  let header : List Byte := [
    0x47,
    (pid >>> 8 &&& 0x1f).setWidth 8 ||| if first then 0x40 else 0,
    (pid &&& 0xff).setWidth 8,
    0x10 ||| continuity &&& 0x0f]
  let packet := header ++ (if first then [0] else []) ++ payload
  packet ++ List.replicate (transportPacketSize - packet.length) 0xff

/-- How many bytes of the section a packet has room for. -/
def packetRoom (first : Bool) : Nat :=
  if first then 183 else 184

/-- The loop of `PacketizeSection`. -/
def packetizeFrom (pid : Half) (first : Bool) (remaining : List Byte) (continuity : Byte) :
    List Byte :=
  if first = false ∧ remaining = [] then []
  else
    sectionPacket pid first continuity (remaining.take (packetRoom first)) ++
      packetizeFrom pid false (remaining.drop (packetRoom first)) (continuity + 1 &&& 0x0f)
termination_by remaining.length + first.toNat
decreasing_by
  next more =>
    rw [List.length_drop, Bool.toNat_false]
    cases first with
    | true =>
      rw [Bool.toNat_true]
      omega
    | false =>
      have unsent : remaining ≠ [] := fun nil => more ⟨rfl, nil⟩
      have := List.length_pos_iff.mpr unsent
      have room : packetRoom false = 184 := rfl
      omega

def packetizeSection (pid : Half) (section_ : List Byte) (continuity : Byte) : List Byte :=
  packetizeFrom pid true section_ continuity

end Dvb

namespace Demux

open Cpu Memory Multiplex Broadcast

def filters : List Filter :=
  (List.range filterCount).map (BitVec.ofNat 5)

theorem mem_filters {channel : Filter} : channel ∈ filters := by
  revert channel
  decide

theorem filters_nodup : filters.Nodup := by
  decide

namespace Registers

/-- The channel is programmed for the PID. -/
def watches (pid : Half) (channel : Filter) (d : Registers) : Bool :=
  d.pidWritten channel && d.pidChannels channel &&& 0x1fff == pid.setWidth 32

/-- The channel's bit in the section enable word. -/
def enabled (channel : Filter) (d : Registers) : Bool :=
  d.enable 2 &&& 1 <<< channel.toNat != 0

/-- `Routes`: a match unit is bound to a channel. -/
def routes (unit : Nibble) (channel : Filter) (d : Registers) : Bool :=
  d.matchWords unit 9 &&& 1 <<< channel.toNat != 0

/-- The boot ROM's binding of the first two units to their channels. -/
def romRoute (channel : Filter) (d : Registers) : Bool :=
  decide (channel < 2) &&
    d.matchWords (channel.setWidth 4) 8 &&& 1 <<< channel.toNat != 0

/-- Index 0 is the table id.  The two length bytes behind it have no index. -/
def sectionMatches (unit : Nibble) (section_ : List Byte) (d : Registers) : Bool :=
  (List.range 9).all fun index =>
    let rule := d.matchByte unit (BitVec.ofNat 4 index)
    let offset := if 0 < index then index + 2 else index
    rule.mask == 0 || (decide (offset < section_.length) &&
      byteAt section_ offset &&& rule.mask == rule.value &&& rule.mask)

/-- Some unit is bound to the channel. -/
def routed (channel : Filter) (d : Registers) : Bool :=
  matchUnits.any fun unit => d.routes unit channel

/-- Some unit bound to the channel matches the section. -/
def matched (channel : Filter) (section_ : List Byte) (d : Registers) : Bool :=
  matchUnits.any fun unit => d.routes unit channel && d.sectionMatches unit section_

/-- Some unit, bound to the channel or not, asks for the section's table. -/
def tableHasRule (section_ : List Byte) (d : Registers) : Bool :=
  matchUnits.any fun unit =>
    let table := d.matchByte unit 0
    table.mask != 0 && byteAt section_ 0 &&& table.mask == table.value &&& table.mask

/-- `ProgrammePIDs`: the decoder's video and audio PIDs, and whether both are selected. -/
def decoderPIDs (d : Registers) : Half × Half × Bool :=
  let videoWord := d.programmePIDs 0
  let audioWord := d.programmePIDs 1
  let video : Half := (videoWord &&& 0x1fff).setWidth 16
  let audio : Half := (audioWord &&& 0x1fff).setWidth 16
  (video, audio,
    decide (videoWord &&& 0x4000 ≠ 0 ∧ audioWord &&& 0x4000 ≠ 0 ∧ video ≠ 0x1fff ∧ audio ≠ 0x1fff))

end Registers

namespace Receiver

/-- What the demultiplexer does.  An error keeps what was done before it. -/
abbrev Action := EStateM String Receiver

/-- `Push`.  The units are asked in order, and the first that is bound to the channel and
matches delivers the section. -/
def push (pid : Half) (section_ : List Byte) : Action PUnit := fun s =>
  let d := s.registers
  if 0x1fff < pid then .error s!"demux: PID {hexText 0 pid.toNat} out of range" s
  else
    match validateSection section_ with
    | .error error => .error error s
    | .ok _ =>
      match filters.find? fun filter => d.watches pid filter && d.enabled filter with
      | none => .error s!"demux: no armed filter requested PID {hexText 0 pid.toNat}" s
      | some filter =>
        -- a channel with units that all refuse the section drops it
        if d.routed filter && !d.matched filter section_ then .ok ⟨⟩ s
        else .ok ⟨⟩ (s.pushFilter filter section_)

/-- Keep the start of a section until its channel's next packet. -/
def keepPart (channel : Filter) (part : List Byte) (s : Receiver) : Receiver :=
  { s with registers := { s.registers with
      transportPart := Function.update s.registers.transportPart channel part } }

def keepPacket (packet : List Byte) (s : Receiver) : Receiver :=
  { s with registers := { s.registers with transportPacket := packet } }

/-- One of the boot ROM's byte rules, which unit 0 holds for both channels. -/
def romRuleMatches (channel : Filter) (section_ : List Byte) (i : Nibble) (offset : Nat)
    (d : Registers) : Bool :=
  let word := d.matchWords 0 i
  let word := if channel = 1 then word >>> 16 else word
  let value : Byte := (word >>> 8).setWidth 8
  let mask : Byte := word.setWidth 8
  byteAt section_ offset &&& mask == value &&& mask

def transportRAMOffset : Word :=
  0x3b0000

def acceptROMTransportSection (channel : Filter) (section_ : List Byte) : Action PUnit := fun s =>
  let d := s.registers
  if romRuleMatches channel section_ 0 0 d && romRuleMatches channel section_ 1 3 d &&
      romRuleMatches channel section_ 2 4 d then
    let first := d.indirect (channel * 4)
    let last := d.indirect (channel * 4 + 3)
    let pointer := d.writePointer channel
    let n := section_.length
    if pointer < first ∨ last.toNat + 1 < pointer.toNat + n + 1 ∨
        0x1fffff < pointer.toNat + n + 1 ∨
        dramSize < transportRAMOffset.toNat + pointer.toNat + n + 1 then
      .error "demux: ROM transport section exceeds configured ring" s
    else
      let start := transportRAMOffset + pointer
      .ok ⟨⟩ { s with
        ram := (s.ram.writeBytes section_ start).write (start + BitVec.ofNat 32 n) .byte
          (channel.setWidth 32)
        registers := { d with
          writePointer := Function.update d.writePointer channel
            (pointer + BitVec.ofNat 32 n + 1) } }
  else .ok ⟨⟩ s

/-- Malformed sections are dropped.  Unlike `push`, a channel whose units all refuse the
section takes it if no unit asks for its table. -/
def acceptTransportSection (channel : Filter) (section_ : List Byte) : Action PUnit := fun s =>
  let d := s.registers
  match validateSection section_ with
  | .error _ => .ok ⟨⟩ s
  | .ok _ =>
    if d.romRoute channel && !d.enabled channel then acceptROMTransportSection channel section_ s
    else if d.matched channel section_ then .ok ⟨⟩ (s.pushFilter channel section_)
    else if d.routed channel && d.tableHasRule section_ then .ok ⟨⟩ s
    else .ok ⟨⟩ (s.pushFilter channel section_)

/-- The length of the section that starts here, with its header. -/
def transportLength (part : List Byte) : Nat :=
  3 + (byteAt part 1 &&& 0x0f#8).toNat <<< 8 + (byteAt part 2).toNat

/-- The sections that start in a packet.  `0xff` in the place of a table id is stuffing. -/
def startTransport (channel : Filter) (payload : List Byte) : Action PUnit :=
  if payload = [] ∨ byteAt payload 0 = 0xff then pure ⟨⟩
  else if payload.length < 3 then modify (keepPart channel payload)
  else
    let length := transportLength payload
    if length < 7 ∨ maxTransportSection < length then
      throw s!"demux: transport section length {length}"
    else if payload.length < length then modify (keepPart channel payload)
    else do
      acceptTransportSection channel (payload.take length)
      startTransport channel (payload.drop length)
termination_by payload.length
decreasing_by
  rw [List.length_drop]
  omega

/-- The rest of the section that an earlier packet started. -/
def continueTransport (channel : Filter) (payload : List Byte) : Action PUnit := fun s =>
  let part := s.registers.transportPart channel
  if part = [] then .ok ⟨⟩ s
  else
    let part := part ++ payload
    if part.length < 3 then .ok ⟨⟩ (s.keepPart channel part)
    else
      let length := transportLength part
      if length < 7 ∨ maxTransportSection < length then
        .error s!"demux: transport section length {length}" s
      else if part.length < length then .ok ⟨⟩ (s.keepPart channel part)
      else acceptTransportSection channel (part.take length) (s.keepPart channel [])

/-- A packet's payload enters a channel.  `start` is the payload unit start indicator. -/
def pushPayload (start : Bool) (payload : List Byte) (channel : Filter) : Action PUnit :=
  if start = false then continueTransport channel payload
  else if payload = [] then throw "demux: missing section pointer"
  else
    let pointer := (byteAt payload 0).toNat
    let payload := payload.drop 1
    if payload.length < pointer then throw "demux: section pointer outside packet"
    else do
      continueTransport channel (payload.take pointer)
      modify (keepPart channel [])
      startTransport channel (payload.drop pointer)

/-- The body of the loop over the channels. -/
def pushChannel (pid : Half) (start : Bool) (payload : List Byte) (channel : Filter) :
    Action PUnit := fun s =>
  let d := s.registers
  if d.watches pid channel && (d.enabled channel || d.romRoute channel) then
    pushPayload start payload channel s
  else .ok ⟨⟩ s

def pushTransportPacket (packet : List Byte) : Action PUnit := fun s =>
  let d := s.registers
  let pid : Half := (byteAt packet 1 &&& 0x1f) ++ byteAt packet 2
  let control := byteAt packet 3 >>> 4 &&& 3
  let pos := if control &&& 2 ≠ 0 then 4 + 1 + (byteAt packet 4).toNat else 4
  let (videoPID, audioPID, programmeReady) := d.decoderPIDs
  if byteAt packet 1 &&& 0x80 ≠ 0 ∨ control &&& 1 = 0 then .ok ⟨⟩ s
  else if transportPacketSize < pos then .error "demux: invalid adaptation length" s
  else if programmeReady ∧ (pid = 0 ∨ pid = programmeMapPID ∨ pid = videoPID ∨ pid = audioPID) then
    if maxProgrammeTransport < d.programmeTransport.length + packet.length then
      .error s!"demux: programme transport queue exceeds {maxProgrammeTransport} bytes" s
    else
      .ok ⟨⟩ { s with registers := { d with
        programmeTransport := d.programmeTransport ++ packet } }
  else
    let start := byteAt packet 1 &&& 0x40 != 0
    filters.forM (pushChannel pid start (packet.drop pos)) s

/-- The body of the loop of `PushTransport`.  Zeros between packets are a flushed
descriptor. -/
def pushByte (b : Byte) : Action PUnit := fun s =>
  let packet := s.registers.transportPacket
  if packet = [] ∧ b = 0 then .ok ⟨⟩ s
  else if packet = [] ∧ b ≠ 0x47 then .error s!"demux: transport sync byte {hexText 0 b.toNat}" s
  else
    let packet := packet ++ [b]
    if packet.length ≠ transportPacketSize then .ok ⟨⟩ (s.keepPacket packet)
    else (pushTransportPacket packet *> modify (keepPacket [])) (s.keepPacket packet)

def pushTransport (data : List Byte) : Action PUnit := fun s =>
  if s.registers.control140 &&& 1 = 0 then .ok ⟨⟩ s
  else data.forM pushByte s

variable {channel : Filter} {section_ payload data : List Byte}

/-- What a channel can have kept from a section that it has not seen the end of. -/
def Unfinished (part : List Byte) : Prop :=
  part.length < 3 ∨ (7 ≤ transportLength part ∧ transportLength part ≤ maxTransportSection ∧
    part.length < transportLength part)

/-- No channel holds a section that is complete or cannot be completed. -/
def Pending (s : Receiver) : Prop :=
  ∀ channel, Unfinished (s.registers.transportPart channel)

theorem unfinished_nil : Unfinished [] :=
  .inl (by decide)

theorem Pending.keepPart {part : List Byte} {s : Receiver} (pending : s.Pending)
    (unfinished : Unfinished part) : (s.keepPart channel part).Pending := by
  intro other
  change Unfinished (Function.update s.registers.transportPart channel part other)
  by_cases here : other = channel
  · rw [here, Function.update_self]
    exact unfinished
  · rw [Function.update_of_ne here]
    exact pending other

/-- The state an action ends in, whether it fails or not. -/
def stateOf : EStateM.Result String Receiver PUnit → Receiver
  | .ok _ s => s
  | .error _ s => s

theorem keeps_of_stateOf {property : Receiver → Prop} {action : Action PUnit}
    (kept : ∀ s, property s → property (stateOf (action s))) : Keeps property action := by
  intro s holds
  have := kept s holds
  cases ran : action s with
  | ok value t =>
    rw [ran] at this
    exact this
  | error error t =>
    rw [ran] at this
    exact this

theorem stateOf_of_keeps {property : Receiver → Prop} {action : Action PUnit} {s : Receiver}
    (keeps : Keeps property action) (holds : property s) : property (stateOf (action s)) := by
  have := keeps s holds
  cases ran : action s with
  | ok value t =>
    rw [ran] at this
    exact this
  | error error t =>
    rw [ran] at this
    exact this

/-- A property that a channel's part kept, a section delivered to it and a section of the boot
ROM's leave as it is. -/
structure Carried (channel : Filter) (property : Receiver → Prop) : Prop where
  part : ∀ {s : Receiver} {part : List Byte}, property s → Unfinished part →
    property (s.keepPart channel part)
  pushed : ∀ {s : Receiver} {section_ : List Byte}, property s →
    validateSection section_ = .ok () → property (s.pushFilter channel section_)
  rom : ∀ {section_ : List Byte}, Keeps property (acceptROMTransportSection channel section_)

section Carried

variable {property : Receiver → Prop}

theorem Carried.acceptTransportSection (carried : Carried channel property) :
    Keeps property (acceptTransportSection channel section_) := by
  refine keeps_of_stateOf fun s holds => ?_
  unfold Receiver.acceptTransportSection
  dsimp only
  split
  · exact holds
  next valid =>
    split
    · exact stateOf_of_keeps carried.rom holds
    · split
      · exact carried.pushed holds valid
      · split
        · exact holds
        · exact carried.pushed holds valid

/-- By induction on the sections that start in the payload. -/
theorem Carried.startTransport (carried : Carried channel property) :
    Keeps property (startTransport channel payload) := by
  induction payload using startTransport.induct with
  | case1 payload done =>
    rw [Receiver.startTransport, if_pos done]
    exact .pure _
  | case2 payload more short =>
    rw [Receiver.startTransport, if_neg more, if_pos short]
    exact .modify fun s holds => carried.part holds (.inl short)
  | case3 payload more long length impossible =>
    rw [Receiver.startTransport, if_neg more, if_neg long]
    rw [if_pos impossible]
    exact .throw _
  | case4 payload more long length possible unended =>
    rw [Receiver.startTransport, if_neg more, if_neg long]
    rw [if_neg possible, if_pos unended]
    exact .modify fun s holds => carried.part holds (.inr (by omega))
  | case5 payload more long length possible ended ih =>
    rw [Receiver.startTransport, if_neg more, if_neg long]
    rw [if_neg possible, if_neg ended]
    exact .bind carried.acceptTransportSection fun _ => ih

theorem Carried.continueTransport (carried : Carried channel property) :
    Keeps property (continueTransport channel payload) := by
  refine keeps_of_stateOf fun s holds => ?_
  unfold Receiver.continueTransport
  dsimp only
  split
  · exact holds
  · split
    next short => exact carried.part holds (.inl short)
    · split
      · exact holds
      next possible =>
        split
        next unended => exact carried.part holds (.inr (by omega))
        · exact stateOf_of_keeps carried.acceptTransportSection (carried.part holds unfinished_nil)

theorem Carried.pushPayload (carried : Carried channel property) {start : Bool} :
    Keeps property (pushPayload start payload channel) := by
  unfold Receiver.pushPayload
  split
  · exact carried.continueTransport
  · split
    · exact .throw _
    · dsimp only
      split
      · exact .throw _
      · refine .bind carried.continueTransport fun _ => .bind ?_ fun _ => carried.startTransport
        exact .modify fun s holds => carried.part holds unfinished_nil

theorem Carried.pushChannel (carried : Carried channel property) {pid : Half} {start : Bool} :
    Keeps property (pushChannel pid start payload channel) := by
  refine keeps_of_stateOf fun s holds => ?_
  unfold Receiver.pushChannel
  dsimp only
  split
  · exact stateOf_of_keeps carried.pushPayload holds
  · exact holds

end Carried

theorem acceptROMTransportSection_pending :
    Keeps Pending (acceptROMTransportSection channel section_) := by
  refine keeps_of_stateOf fun s pending => ?_
  unfold acceptROMTransportSection
  dsimp only
  split
  · split
    · exact pending
    · exact pending
  · exact pending

theorem pending_carried : Carried channel Pending where
  part pending unfinished := pending.keepPart unfinished
  pushed pending _ := pending
  rom := acceptROMTransportSection_pending

theorem pushTransportPacket_pending {packet : List Byte} :
    Keeps Pending (pushTransportPacket packet) := by
  refine keeps_of_stateOf fun s pending => ?_
  unfold pushTransportPacket
  dsimp only
  generalize (if byteAt packet 3 >>> 4 &&& 3 &&& 2 ≠ 0 then
    4 + 1 + (byteAt packet 4).toNat else 4) = pos
  split
  · exact pending
  · split
    · exact pending
    · split
      · split
        · exact pending
        · exact pending
      · exact stateOf_of_keeps (.forM fun other => pending_carried.pushChannel) pending

/-- **What a channel keeps.**  The packet path never leaves a channel with a section that is
complete or cannot be completed. -/
theorem pushTransport_pending : Keeps Pending (pushTransport data) := by
  refine keeps_of_stateOf fun s pending => ?_
  unfold pushTransport
  split
  · exact pending
  · refine stateOf_of_keeps (.forM fun b => ?_) pending
    refine keeps_of_stateOf fun s pending => ?_
    unfold pushByte
    dsimp only
    split
    · exact pending
    · split
      · exact pending
      · split
        · exact pending
        · refine stateOf_of_keeps (.bind pushTransportPacket_pending fun _ => ?_) pending
          exact .modify fun s pending => pending

end Receiver

end Demux

end GoRetroTv
