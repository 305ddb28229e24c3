import GoRetroTv.DemuxBursts

/-!
# Packets that are refused

Which packets make the demultiplexer fail, as a condition on the packet and on the registers
before it: what a channel has kept of a section, the match units, and the boot ROM's rings.
-/

namespace GoRetroTv

namespace Demux

open Cpu Memory Multiplex Broadcast

namespace Registers

/-- The write pointer of the boot ROM's ring, where the channel feeds that ring. -/
def romRing (channel : Filter) (d : Registers) : Option Word :=
  if d.romRoute channel && !d.enabled channel then some (d.writePointer channel) else none

/-- The boot ROM's rules let the section into its ring. -/
def romAdmits (channel : Filter) (section_ : List Byte) (d : Registers) : Bool :=
  (validateSection section_).toBool && Receiver.romRuleMatches channel section_ 0 0 d &&
    Receiver.romRuleMatches channel section_ 1 3 d && Receiver.romRuleMatches channel section_ 2 4 d

/-- The ring has no room for a section of `n` bytes. -/
def RomFull (channel : Filter) (pointer : Word) (n : Nat) (d : Registers) : Prop :=
  pointer < d.indirect (channel * 4) ∨
    (d.indirect (channel * 4 + 3)).toNat + 1 < pointer.toNat + n + 1 ∨
    0x1fffff < pointer.toNat + n + 1 ∨
    dramSize < Receiver.transportRAMOffset.toNat + pointer.toNat + n + 1

def SectionRefused (channel : Filter) (d : Registers) (ring : Option Word)
    (section_ : List Byte) : Prop :=
  ∃ pointer ∈ ring, d.romAdmits channel section_ = true ∧
    d.RomFull channel pointer section_.length

/-- The ring's pointer behind a section. -/
def ringAfter (channel : Filter) (d : Registers) (ring : Option Word) (section_ : List Byte) :
    Option Word :=
  ring.map fun pointer =>
    if d.romAdmits channel section_ then pointer + BitVec.ofNat 32 section_.length + 1 else pointer

/-- Some section that starts in the payload is refused, or is of an impossible length. -/
def StartRefused (refused : Option Word → List Byte → Prop)
    (after : Option Word → List Byte → Option Word) (ring : Option Word) (payload : List Byte) :
    Prop :=
  if payload = [] ∨ byteAt payload 0 = 0xff ∨ payload.length < 3 then False
  else
    let length := Receiver.transportLength payload
    if length < 7 ∨ maxTransportSection < length then True
    else if payload.length < length then False
    else
      refused ring (payload.take length) ∨
        StartRefused refused after (after ring (payload.take length)) (payload.drop length)
termination_by payload.length
decreasing_by
  rw [List.length_drop]
  omega

/-- The section that the payload goes on with is refused, or is of an impossible length. -/
def RestRefused (channel : Filter) (payload : List Byte) (d : Registers) : Prop :=
  let part := d.transportPart channel ++ payload
  let length := Receiver.transportLength part
  d.transportPart channel ≠ [] ∧ 3 ≤ part.length ∧
    (length < 7 ∨ maxTransportSection < length ∨
      length ≤ part.length ∧ d.SectionRefused channel (d.romRing channel) (part.take length))

/-- The ring's pointer behind the section that the payload goes on with. -/
def ringAfterRest (channel : Filter) (payload : List Byte) (d : Registers) : Option Word :=
  let part := d.transportPart channel ++ payload
  let length := Receiver.transportLength part
  if d.transportPart channel ≠ [] ∧ 3 ≤ part.length ∧ length ≤ part.length then
    d.ringAfter channel (d.romRing channel) (part.take length)
  else d.romRing channel

def PayloadRefused (start : Bool) (payload : List Byte) (channel : Filter) (d : Registers) : Prop :=
  if start = false then d.RestRefused channel payload
  else
    let pointer := (byteAt payload 0).toNat
    payload.length < pointer + 1 ∨ d.RestRefused channel ((payload.drop 1).take pointer) ∨
      StartRefused (d.SectionRefused channel) (d.ringAfter channel)
        (d.ringAfterRest channel ((payload.drop 1).take pointer)) ((payload.drop 1).drop pointer)

def ChannelRefused (pid : Half) (start : Bool) (payload : List Byte) (channel : Filter)
    (d : Registers) : Prop :=
  d.watches pid channel = true ∧ (d.enabled channel || d.romRoute channel) = true ∧
    d.PayloadRefused start payload channel

/-- The packet makes the demultiplexer fail. -/
def PacketRefused (packet : List Byte) (d : Registers) : Prop :=
  let pid : Half := (byteAt packet 1 &&& 0x1f) ++ byteAt packet 2
  let control := byteAt packet 3 >>> 4 &&& 3
  let pos := if control &&& 2 ≠ 0 then 4 + 1 + (byteAt packet 4).toNat else 4
  let (videoPID, audioPID, programmeReady) := d.decoderPIDs
  if byteAt packet 1 &&& 0x80 ≠ 0 ∨ control &&& 1 = 0 then False
  else if transportPacketSize < pos then True
  else if programmeReady ∧ (pid = 0 ∨ pid = programmeMapPID ∨ pid = videoPID ∨ pid = audioPID) then
    maxProgrammeTransport < d.programmeTransport.length + packet.length
  else ∃ channel, d.ChannelRefused pid (byteAt packet 1 &&& 0x40 != 0) (packet.drop pos) channel

end Registers

namespace Receiver

open Registers

/-- The action fails where it is taken. -/
def Fails (action : Action PUnit) (s : Receiver) : Prop :=
  ∃ error t, action s = .error error t

theorem not_fails_ok {action : Action PUnit} {s t : Receiver} (ran : action s = .ok ⟨⟩ t) :
    ¬Fails action s := by
  rintro ⟨error, u, failed⟩
  rw [ran] at failed
  cases failed

theorem exists_ok_of_not_fails {action : Action PUnit} {s : Receiver} (succeeds : ¬Fails action s) :
    ∃ t, action s = .ok ⟨⟩ t := by
  cases ran : action s with
  | ok value t => exact ⟨t, rfl⟩
  | error error t => exact absurd ⟨error, t, ran⟩ succeeds

/-- A sequence fails in its first action or in the rest. -/
theorem fails_bind {first second : Action PUnit} {s : Receiver} :
    Fails (first >>= fun _ => second) s ↔
      Fails first s ∨ ∃ t, first s = .ok ⟨⟩ t ∧ Fails second t := by
  constructor
  · rintro ⟨error, u, failed⟩
    simp only [bind, EStateM.bind] at failed
    cases ran : first s with
    | ok value t =>
      rw [ran] at failed
      exact .inr ⟨t, rfl, error, u, failed⟩
    | error error t => exact .inl ⟨error, t, ran⟩
  · rintro (⟨error, u, failed⟩ | ⟨t, ran, error, u, failed⟩)
    · exact ⟨error, u, by simp only [bind, EStateM.bind, failed]⟩
    · exact ⟨error, u, by simp only [bind, EStateM.bind, ran, failed]⟩

/-- What a packet does for one channel leaves what the others have, and the programming of all
of them. -/
structure Beside (channel : Filter) (d d' : Registers) : Prop where
  matchWords : d'.matchWords = d.matchWords
  indirect : d'.indirect = d.indirect
  enable : d'.enable = d.enable
  pidWritten : d'.pidWritten = d.pidWritten
  pidChannels : d'.pidChannels = d.pidChannels
  parts : ∀ other ≠ channel, d'.transportPart other = d.transportPart other
  pointers : ∀ other ≠ channel, d'.writePointer other = d.writePointer other

variable {channel other : Filter} {section_ payload packet : List Byte} {s t : Receiver}
  {d d' : Registers}

theorem Beside.refl : Beside channel d d :=
  ⟨rfl, rfl, rfl, rfl, rfl, fun _ _ => rfl, fun _ _ => rfl⟩

theorem beside_carried : Carried channel fun s => Beside channel d s.registers where
  part beside _ := { beside with
    parts := fun other apart =>
      (Function.update_of_ne apart _ _).trans (beside.parts other apart) }
  pushed beside _ := { beside with
    pointers := fun other apart =>
      (Function.update_of_ne apart _ _).trans (beside.pointers other apart) }
  rom := by
    refine keeps_of_stateOf fun s beside => ?_
    unfold acceptROMTransportSection
    dsimp only
    split
    · split
      · exact beside
      · exact { beside with
          pointers := fun other apart =>
            (Function.update_of_ne apart _ _).trans (beside.pointers other apart) }
    · exact beside

theorem romRing_some (rom : (s.registers.romRoute channel && !s.registers.enabled channel) = true) :
    s.registers.romRing channel = some (s.registers.writePointer channel) :=
  if_pos rom

theorem romRing_none
    (unrouted : ¬(s.registers.romRoute channel && !s.registers.enabled channel) = true) :
    s.registers.romRing channel = none :=
  if_neg unrouted

/-- A channel that does not feed the boot ROM's ring takes every section. -/
theorem acceptTransportSection_unrouted
    (unrouted : ¬(s.registers.romRoute channel && !s.registers.enabled channel) = true) :
    ∃ t, acceptTransportSection channel section_ s = .ok ⟨⟩ t := by
  unfold acceptTransportSection
  dsimp only
  split
  · exact ⟨_, rfl⟩
  · rw [if_neg unrouted]
    split
    · exact ⟨_, rfl⟩
    · split
      · exact ⟨_, rfl⟩
      · exact ⟨_, rfl⟩

/-- The ring takes what its rules admit, if it has room. -/
theorem acceptROMTransportSection_cases
    (rom : (s.registers.romRoute channel && !s.registers.enabled channel) = true) :
    (s.registers.romAdmits channel section_ = false ∧
        acceptTransportSection channel section_ s = .ok ⟨⟩ s) ∨
      (s.registers.romAdmits channel section_ = true ∧
        s.registers.RomFull channel (s.registers.writePointer channel) section_.length ∧
        Fails (acceptTransportSection channel section_) s) ∨
      (s.registers.romAdmits channel section_ = true ∧
        ¬s.registers.RomFull channel (s.registers.writePointer channel) section_.length ∧
        ∃ t, acceptTransportSection channel section_ s = .ok ⟨⟩ t ∧
          t.registers.writePointer channel =
            s.registers.writePointer channel + BitVec.ofNat 32 section_.length + 1) := by
  unfold romAdmits
  unfold Fails
  unfold acceptTransportSection
  dsimp only
  split
  next error invalid =>
    refine .inl ⟨?_, rfl⟩
    rw [invalid]
    rfl
  next valid =>
    rw [valid, if_pos rom]
    change (Receiver.romRuleMatches channel section_ 0 0 s.registers &&
        Receiver.romRuleMatches channel section_ 1 3 s.registers &&
        Receiver.romRuleMatches channel section_ 2 4 s.registers) = false ∧ _ ∨ _
    unfold acceptROMTransportSection
    dsimp only
    split
    next admitted =>
      split
      next full => exact .inr (.inl ⟨admitted, full, _, _, rfl⟩)
      next roomy => exact .inr (.inr ⟨admitted, roomy, _, rfl, Function.update_self _ _ _⟩)
    next refused => exact .inl ⟨Bool.eq_false_iff.mpr refused, rfl⟩

theorem acceptTransportSection_fails :
    Fails (acceptTransportSection channel section_) s ↔
      s.registers.SectionRefused channel (s.registers.romRing channel) section_ := by
  unfold SectionRefused
  by_cases rom : (s.registers.romRoute channel && !s.registers.enabled channel) = true
  · rw [romRing_some rom]
    rcases @acceptROMTransportSection_cases channel section_ s rom with
      ⟨refused, ran⟩ | ⟨admitted, full, fails⟩ | ⟨admitted, roomy, t, ran, -⟩
    · refine iff_of_false (not_fails_ok ran) ?_
      rintro ⟨pointer, -, admitted, -⟩
      rw [refused] at admitted
      cases admitted
    · exact iff_of_true fails ⟨_, rfl, admitted, full⟩
    · refine iff_of_false (not_fails_ok ran) ?_
      rintro ⟨pointer, here, -, full⟩
      cases here
      exact roomy full
  · rw [romRing_none rom]
    obtain ⟨t, ran⟩ := @acceptTransportSection_unrouted channel section_ s rom
    refine iff_of_false (not_fails_ok ran) ?_
    rintro ⟨pointer, here, -⟩
    cases here

/-- What an action of the channel leaves, for those that succeed. -/
theorem beside_of_ok {action : Action PUnit}
    (keeps : Keeps (fun t => Beside channel s.registers t.registers) action)
    (ran : action s = .ok ⟨⟩ t) : Beside channel s.registers t.registers := by
  have kept := keeps s .refl
  rw [ran] at kept
  exact kept

theorem Beside.rom (beside : Beside channel d d') :
    (d'.romRoute channel && !d'.enabled channel) = (d.romRoute channel && !d.enabled channel) := by
  unfold romRoute enabled
  rw [beside.matchWords, beside.enable]

theorem acceptTransportSection_ring (ran : acceptTransportSection channel section_ s = .ok ⟨⟩ t) :
    t.registers.romRing channel =
      s.registers.ringAfter channel (s.registers.romRing channel) section_ := by
  have beside := beside_of_ok beside_carried.acceptTransportSection ran
  unfold ringAfter
  by_cases rom : (s.registers.romRoute channel && !s.registers.enabled channel) = true
  · rw [romRing_some rom, romRing_some (beside.rom.trans rom), Option.map_some]
    rcases @acceptROMTransportSection_cases channel section_ s rom with
      ⟨refused, same⟩ | ⟨_, _, fails⟩ | ⟨admitted, _, u, same, moved⟩
    · rw [ran] at same
      cases same
      rw [refused]
      rfl
    · exact absurd fails (not_fails_ok ran)
    · rw [ran] at same
      cases same
      rw [admitted, moved]
      rfl
  · rw [romRing_none rom, romRing_none (beside.rom ▸ rom)]
    rfl

theorem Beside.admits (beside : Beside channel d d') :
    d'.romAdmits other section_ = d.romAdmits other section_ := by
  unfold romAdmits romRuleMatches
  rw [beside.matchWords]

theorem Beside.sectionRefused (beside : Beside channel d d') :
    d'.SectionRefused other = d.SectionRefused other := by
  funext ring section_
  unfold SectionRefused RomFull
  rw [beside.admits, beside.indirect]

theorem Beside.ringAfter (beside : Beside channel d d') :
    d'.ringAfter other = d.ringAfter other := by
  funext ring section_
  unfold Registers.ringAfter
  rw [beside.admits]

/-- A sequence of two actions, the first of which leaves what the second depends on. -/
theorem fails_bind_iff {first second : Action PUnit} {refused later : Prop}
    (isFirst : Fails first s ↔ refused)
    (isLater : ∀ t, first s = .ok ⟨⟩ t → (Fails second t ↔ later)) :
    Fails (first >>= fun _ => second) s ↔ refused ∨ later := by
  rw [fails_bind, isFirst]
  by_cases failed : refused
  · exact iff_of_true (.inl failed) (.inl failed)
  · obtain ⟨t, ran⟩ := exists_ok_of_not_fails (isFirst.not.mpr failed)
    refine or_congr_right ⟨?_, fun holds => ⟨t, ran, (isLater t ran).mpr holds⟩⟩
    rintro ⟨u, same, fails⟩
    exact (isLater u same).mp fails

/-- By induction on the sections that start in the payload. -/
theorem startTransport_fails (s : Receiver) :
    Fails (startTransport channel payload) s ↔
      StartRefused (s.registers.SectionRefused channel) (s.registers.ringAfter channel)
        (s.registers.romRing channel) payload := by
  revert s
  induction payload using startTransport.induct with
  | case1 payload done =>
    intro s
    rw [startTransport, if_pos done]
    rw [StartRefused, if_pos (by tauto)]
    exact iff_of_false (not_fails_ok rfl) id
  | case2 payload more short =>
    intro s
    rw [startTransport, if_neg more, if_pos short]
    rw [StartRefused, if_pos (by tauto)]
    exact iff_of_false (not_fails_ok rfl) id
  | case3 payload more long length impossible =>
    intro s
    rw [startTransport, if_neg more, if_neg long, if_pos impossible]
    rw [StartRefused, if_neg (by tauto), if_pos impossible]
    exact iff_of_true ⟨_, s, rfl⟩ trivial
  | case4 payload more long length possible unended =>
    intro s
    rw [startTransport, if_neg more, if_neg long, if_neg possible, if_pos unended]
    rw [StartRefused, if_neg (by tauto), if_neg possible, if_pos unended]
    exact iff_of_false (not_fails_ok rfl) id
  | case5 payload more long length possible ended ih =>
    intro s
    rw [startTransport, if_neg more, if_neg long, if_neg possible, if_neg ended]
    rw [StartRefused, if_neg (by tauto), if_neg possible, if_neg ended]
    refine fails_bind_iff acceptTransportSection_fails fun t ran => ?_
    have beside := beside_of_ok beside_carried.acceptTransportSection ran
    rw [ih, beside.sectionRefused, beside.ringAfter, acceptTransportSection_ring ran]

/-- Parts of sections do not matter to the boot ROM's ring. -/
theorem romRing_keepPart {part : List Byte} :
    (s.keepPart channel part).registers.romRing other = s.registers.romRing other :=
  rfl

theorem continueTransport_fails :
    Fails (continueTransport channel payload) s ↔ s.registers.RestRefused channel payload := by
  unfold RestRefused Fails continueTransport
  dsimp only
  by_cases nothing : s.registers.transportPart channel = []
  · rw [if_pos nothing]
    refine iff_of_false (not_fails_ok rfl) fun refused => refused.1 nothing
  · rw [if_neg nothing]
    by_cases short : (s.registers.transportPart channel ++ payload).length < 3
    · rw [if_pos short]
      exact iff_of_false (not_fails_ok rfl) fun refused => absurd refused.2.1 (by omega)
    · rw [if_neg short]
      by_cases impossible :
          transportLength (s.registers.transportPart channel ++ payload) < 7 ∨
            maxTransportSection < transportLength (s.registers.transportPart channel ++ payload)
      · rw [if_pos impossible]
        exact iff_of_true ⟨_, s, rfl⟩ ⟨nothing, by omega, by tauto⟩
      · rw [if_neg impossible]
        by_cases unended : (s.registers.transportPart channel ++ payload).length <
            transportLength (s.registers.transportPart channel ++ payload)
        · rw [if_pos unended]
          refine iff_of_false (not_fails_ok rfl) ?_
          rintro ⟨_, _, below | above | ⟨ended, _⟩⟩
          · exact impossible (.inl below)
          · exact impossible (.inr above)
          · omega
        · rw [if_neg unended]
          have accepted := @acceptTransportSection_fails channel
            ((s.registers.transportPart channel ++ payload).take
              (transportLength (s.registers.transportPart channel ++ payload)))
            (s.keepPart channel [])
          refine accepted.trans ⟨fun refused => ⟨nothing, by omega, .inr (.inr ⟨by omega, refused⟩)⟩, ?_⟩
          rintro ⟨_, _, below | above | ⟨_, refused⟩⟩
          · exact absurd (.inl below) impossible
          · exact absurd (.inr above) impossible
          · exact refused

theorem continueTransport_ring (ran : continueTransport channel payload s = .ok ⟨⟩ t) :
    t.registers.romRing channel = s.registers.ringAfterRest channel payload := by
  unfold continueTransport at ran
  unfold ringAfterRest
  dsimp only at ran ⊢
  split at ran
  next nothing =>
    cases ran
    rw [if_neg fun whole => whole.1 nothing]
  next some_ =>
    split at ran
    next short =>
      cases ran
      rw [if_neg fun whole => absurd whole.2.1 (by omega)]
      rfl
    next long =>
      split at ran
      · cases ran
      · split at ran
        next unended =>
          cases ran
          rw [if_neg fun whole => absurd whole.2.2 (by omega)]
          rfl
        next ended =>
          rw [if_pos ⟨some_, by omega, by omega⟩, acceptTransportSection_ring ran]
          rfl

theorem pushPayload_fails {start : Bool} :
    Fails (pushPayload start payload channel) s ↔
      s.registers.PayloadRefused start payload channel := by
  unfold pushPayload PayloadRefused
  cases start with
  | false => exact continueTransport_fails
  | true =>
    simp only [Bool.true_eq_false, if_false]
    by_cases empty : payload = []
    · rw [if_pos empty, empty]
      exact iff_of_true ⟨_, s, rfl⟩ (.inl (Nat.succ_pos _))
    · rw [if_neg empty]
      have positive := List.length_pos_iff.mpr empty
      by_cases outside : (payload.drop 1).length < (byteAt payload 0).toNat
      · rw [if_pos outside]
        rw [List.length_drop] at outside
        exact iff_of_true ⟨_, s, rfl⟩ (.inl (by omega))
      · rw [if_neg outside]
        rw [List.length_drop] at outside
        rw [or_iff_right (show ¬payload.length < (byteAt payload 0).toNat + 1 by omega)]
        refine fails_bind_iff continueTransport_fails fun t ran => ?_
        have beside := beside_of_ok beside_carried.continueTransport ran
        have started := @startTransport_fails channel
          ((payload.drop 1).drop (byteAt payload 0).toNat) (t.keepPart channel [])
        rw [romRing_keepPart, continueTransport_ring ran] at started
        change _ ↔ StartRefused (t.registers.SectionRefused channel) (t.registers.ringAfter channel)
          _ _ at started
        rw [beside.sectionRefused, beside.ringAfter] at started
        exact started

theorem pushChannel_fails {pid : Half} {start : Bool} :
    Fails (pushChannel pid start payload channel) s ↔
      s.registers.ChannelRefused pid start payload channel := by
  unfold ChannelRefused Fails pushChannel
  dsimp only
  by_cases takes : (s.registers.watches pid channel &&
      (s.registers.enabled channel || s.registers.romRoute channel)) = true
  · rw [if_pos takes]
    rw [Bool.and_eq_true_iff] at takes
    refine pushPayload_fails.trans ?_
    tauto
  · rw [if_neg takes]
    rw [Bool.and_eq_true_iff] at takes
    refine iff_of_false (not_fails_ok rfl) ?_
    tauto

/-- The registers as one channel sees them. -/
def seenBy (channel : Filter) (d : Registers) : Registers where
  matchWords := d.matchWords
  indirect := d.indirect
  enable := d.enable
  pidWritten := d.pidWritten
  pidChannels := d.pidChannels
  transportPart _ := d.transportPart channel
  writePointer _ := d.writePointer channel

theorem channelRefused_seenBy {pid : Half} {start : Bool} :
    (seenBy channel d).ChannelRefused pid start payload channel =
      d.ChannelRefused pid start payload channel :=
  rfl

theorem Beside.channelRefused {pid : Half} {start : Bool} (beside : Beside channel d d')
    (apart : other ≠ channel) :
    d'.ChannelRefused pid start payload other ↔ d.ChannelRefused pid start payload other := by
  have same : seenBy other d' = seenBy other d := by
    unfold seenBy
    rw [beside.matchWords, beside.indirect, beside.enable, beside.pidWritten, beside.pidChannels,
      beside.parts other apart, beside.pointers other apart]
  rw [← channelRefused_seenBy, same, channelRefused_seenBy]

/-- Each channel decides for itself. -/
theorem forM_pushChannel_fails {pid : Half} {start : Bool} {channels : List Filter}
    (distinct : channels.Nodup) :
    Fails (channels.forM (pushChannel pid start payload)) s ↔
      ∃ channel ∈ channels, s.registers.ChannelRefused pid start payload channel := by
  induction channels generalizing s with
  | nil => exact iff_of_false (not_fails_ok rfl) fun ⟨_, member, _⟩ => by cases member
  | cons channel channels ih =>
    have ⟨new, distinct⟩ := List.nodup_cons.mp distinct
    rw [List.exists_mem_cons_iff]
    refine fails_bind_iff pushChannel_fails fun t ran => ?_
    have beside := beside_of_ok beside_carried.pushChannel ran
    rw [ih distinct]
    refine exists_congr fun other => and_congr_right fun member => ?_
    exact beside.channelRefused fun same => new (same ▸ member)

/-- **Which packets are refused.** -/
theorem pushTransportPacket_fails :
    Fails (pushTransportPacket packet) s ↔ s.registers.PacketRefused packet := by
  unfold PacketRefused Fails pushTransportPacket
  dsimp only
  generalize (if byteAt packet 3 >>> 4 &&& 3 &&& 2 ≠ 0 then
    4 + 1 + (byteAt packet 4).toNat else 4) = pos
  split
  · exact iff_of_false (not_fails_ok rfl) id
  · split
    · exact iff_of_true ⟨_, s, rfl⟩ trivial
    · split
      · split
        next full => exact iff_of_true ⟨_, s, rfl⟩ full
        next room => exact iff_of_false (not_fails_ok rfl) room
      · refine (forM_pushChannel_fails filters_nodup).trans ?_
        exact exists_congr fun channel => and_iff_right mem_filters

end Receiver

end Demux

end GoRetroTv
