import GoRetroTv.TransportRecovery

/-!
# Section streams

A PID's sections on the wire: several in a packet, one over many packets, a header cut anywhere,
adaptation fields, and stuffing behind the last.  The rule for laying sections into packets is
written from the sender's side.  Whatever follows it reaches every channel that is armed for the
PID as the sections it was made from, however the PIDs are interleaved and the bytes are cut up.
-/

namespace GoRetroTv

namespace Dvb

open Demux (Sound byteAt)

/-- A section that cannot be taken for stuffing. -/
structure Sendable (section_ : List Byte) : Prop extends Sound section_ where
  table : byteAt section_ 0 ≠ 0xff

/-- The section that a stream is in the middle of: what of it has been sent, and what has not. -/
structure Progress where
  sent : List Byte := []
  unsent : List Byte := []

namespace Progress

/-- The section under way, if there is one. -/
def section_ (p : Progress) : List (List Byte) :=
  if p.unsent = [] then [] else [p.sent ++ p.unsent]

/-- Either nothing is under way, or a section has been sent in part. -/
inductive Good : Progress → Prop
  | idle : Good {}
  | started {sent unsent : List Byte} (begun : sent ≠ []) (unended : unsent ≠ [])
      (sendable : Sendable (sent ++ unsent)) : Good ⟨sent, unsent⟩

end Progress

/-- What one payload may hold of a section stream, and the sections that end in it.  A payload
in which a section starts tells by its first byte how far in. -/
inductive Lays : Progress → Bool → List Byte → List (List Byte) → Progress → Prop
  | goesOn {sent unsent piece more : List Byte} (cut : piece ++ more = unsent)
      (unended : more ≠ []) : Lays ⟨sent, unsent⟩ false piece [] ⟨sent ++ piece, more⟩
  | ends {sent unsent : List Byte} (unended : unsent ≠ []) (n : Nat) :
      Lays ⟨sent, unsent⟩ false (unsent ++ List.replicate n 0xff) [sent ++ unsent] {}
  | idles (n : Nat) : Lays {} false (List.replicate n 0xff) [] {}
  | starts {p : Progress} {whole : List (List Byte)} (near : p.unsent.length < 256)
      (sendable : ∀ section_ ∈ whole, Sendable section_) (n : Nat) :
      Lays p true
        (BitVec.ofNat 8 p.unsent.length :: (p.unsent ++ (whole.flatten ++ List.replicate n 0xff)))
        (p.section_ ++ whole) {}
  | begins {p : Progress} {whole : List (List Byte)} {piece more : List Byte}
      (near : p.unsent.length < 256) (sendable : ∀ section_ ∈ whole, Sendable section_)
      (begun : piece ≠ []) (unended : more ≠ []) (next : Sendable (piece ++ more)) :
      Lays p true (BitVec.ofNat 8 p.unsent.length :: (p.unsent ++ (whole.flatten ++ piece)))
        (p.section_ ++ whole) ⟨piece, more⟩

/-- The payloads of a PID carry the sections from one progress to another. -/
inductive Carries : Progress → List (Bool × List Byte) → List (List Byte) → Progress → Prop
  | nil {p : Progress} : Carries p [] [] p
  | cons {p q r : Progress} {start : Bool} {payload : List Byte} {ended later : List (List Byte)}
      {units : List (Bool × List Byte)} (first : Lays p start payload ended q)
      (rest : Carries q units later r) : Carries p ((start, payload) :: units) (ended ++ later) r

theorem Lays.carries {p q : Progress} {start : Bool} {payload : List Byte}
    {ended : List (List Byte)} (lays : Lays p start payload ended q) :
    Carries p [(start, payload)] ended q := by
  have carried := Carries.cons lays .nil
  rwa [List.append_nil] at carried

theorem Lays.good {p q : Progress} {start : Bool} {payload : List Byte} {ended : List (List Byte)}
    (lays : Lays p start payload ended q) (good : p.Good) : q.Good := by
  cases lays with
  | goesOn cut unended =>
    cases good with
    | idle => exact absurd (List.append_eq_nil_iff.mp cut).2 unended
    | started begun _ sendable =>
      refine .started ?_ unended ?_
      · simp [begun]
      · rwa [List.append_assoc, cut]
  | ends => exact .idle
  | idles => exact .idle
  | starts => exact .idle
  | begins _ _ begun unended next => exact .started begun unended next

/-- A transport packet with a payload. -/
structure Packet where
  pid : Half
  start : Bool
  continuity : Byte
  adaptation : Option (List Byte)
  payload : List Byte
  small : pid ≤ 0x1fff
  sized : (adaptation.elim 0 fun field => 1 + field.length) + payload.length = 184

namespace Packet

def adaptationBytes (adaptation : Option (List Byte)) : List Byte :=
  adaptation.elim [] fun field => BitVec.ofNat 8 field.length :: field

def bytes (p : Packet) : List Byte :=
  (0x47 : Byte) :: ((p.pid >>> 8 &&& 0x1f).setWidth 8 ||| if p.start then 0x40 else 0) ::
    (p.pid &&& 0xff).setWidth 8 ::
      (0x10 ||| p.continuity &&& 0x0f ||| if p.adaptation.isSome then 0x20 else 0) ::
        (adaptationBytes p.adaptation ++ p.payload)

/-- The payload and whether a section starts in it. -/
def unit (p : Packet) : Bool × List Byte :=
  (p.start, p.payload)

variable {p : Packet}

theorem bytes_length : p.bytes.length = 188 := by
  have sized := p.sized
  unfold bytes adaptationBytes
  cases found : p.adaptation with
  | none =>
    rw [found] at sized
    simp only [Option.elim_none] at sized ⊢
    simp only [List.length_cons, List.nil_append]
    omega
  | some field =>
    rw [found] at sized
    simp only [Option.elim_some] at sized ⊢
    simp only [List.length_cons, List.length_append]
    omega

/-- The second and the third byte are those of a section's packet. -/
theorem flags : byteAt p.bytes 1 = byteAt (sectionPacket p.pid p.start p.continuity []) 1 := by
  rw [sectionPacket_eq]
  rfl

theorem lowByte : byteAt p.bytes 2 = byteAt (sectionPacket p.pid p.start p.continuity []) 2 := by
  rw [sectionPacket_eq]
  rfl

theorem control : byteAt p.bytes 3 >>> 4 &&& 3 = if p.adaptation.isSome then 3 else 1 := by
  change (0x10 ||| p.continuity &&& 0x0f ||| if p.adaptation.isSome then 0x20 else 0) >>> 4 &&&
    3#8 = _
  cases p.adaptation.isSome with
  | true =>
    ext i inside
    interval_cases i <;> simp
  | false =>
    ext i inside
    interval_cases i <;> simp

/-- Where the payload starts. -/
theorem payload_at (pos : Nat)
    (found : pos = if byteAt p.bytes 3 >>> 4 &&& 3 &&& 2 ≠ 0 then
      4 + 1 + (byteAt p.bytes 4).toNat else 4) :
    pos ≤ 188 ∧ p.bytes.drop pos = p.payload := by
  have sized := p.sized
  rw [control] at found
  cases given : p.adaptation with
  | none =>
    rw [given] at found
    have start : pos = 4 := found
    subst start
    refine ⟨by decide, ?_⟩
    unfold bytes adaptationBytes
    rw [given]
    rfl
  | some field =>
    rw [given] at found sized
    rw [Option.isSome_some] at found
    simp only [Option.elim_some] at sized
    have length : (byteAt p.bytes 4).toNat = field.length := by
      unfold bytes adaptationBytes
      rw [given]
      exact Nat.mod_eq_of_lt (by omega)
    have start : pos = 4 + 1 + field.length := by
      rw [found, length]
      rfl
    refine ⟨by omega, ?_⟩
    have whole : p.bytes.drop 5 = field ++ p.payload := by
      unfold bytes adaptationBytes
      rw [given]
      rfl
    rw [start, ← List.drop_drop, whole, List.drop_left]

end Packet

end Dvb

namespace Demux

open Cpu Dvb

variable {pid : Half} {channel : Filter} {d d' : Registers} {s t : Receiver}
  {parts : Filter → List Byte} {packet part rest payload section_ : List Byte}

namespace Registers

/-- The channel takes the PID's sections. -/
def takes (pid : Half) (channel : Filter) (d : Registers) : Bool :=
  d.watches pid channel && d.enabled channel

/-- The channel takes some PID's sections. -/
def armed (channel : Filter) (d : Registers) : Bool :=
  d.pidWritten channel && d.enabled channel

/-- The PID a channel is programmed for. -/
def pidOf (channel : Filter) (d : Registers) : Half :=
  (d.pidChannels channel &&& 0x1fff).setWidth 16

/-- The PID's packets go to the decoder. -/
def Diverted (pid : Half) (d : Registers) : Prop :=
  d.decoderPIDs.2.2 = true ∧
    (pid = 0 ∨ pid = Multiplex.programmeMapPID ∨ pid = d.decoderPIDs.1 ∨ pid = d.decoderPIDs.2.1)

theorem takes_iff : d.takes pid channel = true ↔
    d.armed channel = true ∧ d.pidOf channel = pid := by
  have small : (d.pidChannels channel &&& 0x1fff).toNat ≤ 0x1fff := by
    rw [BitVec.toNat_and]
    exact Nat.and_le_right
  have same : (d.pidChannels channel &&& 0x1fff == pid.setWidth 32) = true ↔
      d.pidOf channel = pid := by
    rw [beq_iff_eq, ← BitVec.toNat_inj, ← BitVec.toNat_inj]
    unfold pidOf
    rw [BitVec.toNat_setWidth, BitVec.toNat_setWidth]
    omega
  unfold takes watches armed
  rw [Bool.and_eq_true, Bool.and_eq_true, Bool.and_eq_true, same]
  tauto

theorem takes_of_unarmed (unarmed : d.armed channel = false) : d.takes pid channel = false := by
  apply Bool.eq_false_iff.mpr
  intro takes
  rw [(takes_iff.mp takes).1] at unarmed
  cases unarmed

theorem takes_of_ne (other : d.pidOf channel ≠ pid) : d.takes pid channel = false :=
  Bool.eq_false_iff.mpr fun takes => other (takes_iff.mp takes).2

/-- What decides where a packet goes. -/
structure Routed (d d' : Registers) : Prop where
  written : d'.pidWritten = d.pidWritten
  channels : d'.pidChannels = d.pidChannels
  enable : d'.enable = d.enable
  words : d'.matchWords = d.matchWords
  decoder : d'.programmePIDs = d.programmePIDs
  control : d'.control140 = d.control140

namespace Routed

theorem refl : Routed d d :=
  ⟨rfl, rfl, rfl, rfl, rfl, rfl⟩

theorem takes (routed : Routed d d') : d'.takes pid channel = d.takes pid channel := by
  unfold Registers.takes watches enabled
  rw [routed.written, routed.channels, routed.enable]

theorem armed (routed : Routed d d') : d'.armed channel = d.armed channel := by
  unfold Registers.armed enabled
  rw [routed.written, routed.enable]

theorem pidOf (routed : Routed d d') : d'.pidOf channel = d.pidOf channel := by
  unfold Registers.pidOf
  rw [routed.channels]

theorem enabled (routed : Routed d d') : d'.enabled channel = d.enabled channel := by
  unfold Registers.enabled
  rw [routed.enable]

theorem romRoute (routed : Routed d d') : d'.romRoute channel = d.romRoute channel := by
  unfold Registers.romRoute
  rw [routed.words]

theorem decoderPIDs (routed : Routed d d') : d'.decoderPIDs = d.decoderPIDs := by
  unfold Registers.decoderPIDs
  rw [routed.decoder]

end Routed

end Registers

open Registers

namespace Receiver

/-- The receiver with other parts of sections and of a packet kept. -/
def holding (parts : Filter → List Byte) (packet : List Byte) (s : Receiver) : Receiver :=
  { s with registers := { s.registers with transportPart := parts, transportPacket := packet } }

theorem holding_self : s.holding s.registers.transportPart s.registers.transportPacket = s :=
  rfl

theorem keepPart_holding : (s.holding parts packet).keepPart channel part =
    s.holding (Function.update parts channel part) packet :=
  rfl

/-- Sections handed to channels, one after another. -/
def handed (log : List (Filter × List Byte)) (s : Receiver) : Receiver :=
  log.foldl (fun s entry => s.afterAccept entry.1 entry.2) s

theorem handed_append {log later : List (Filter × List Byte)} :
    s.handed (log ++ later) = (s.handed log).handed later :=
  List.foldl_append

theorem afterAccept_holding : (s.holding parts packet).afterAccept channel section_ =
    (s.afterAccept channel section_).holding parts packet := by
  unfold afterAccept
  change (if s.registers.matched channel section_ then _
    else if s.registers.routed channel && s.registers.tableHasRule section_ then _ else _) = _
  split
  · rfl
  · split
    · rfl
    · rfl

theorem afterAccept_routed : Routed s.registers (s.afterAccept channel section_).registers := by
  unfold afterAccept
  split
  · exact ⟨rfl, rfl, rfl, rfl, rfl, rfl⟩
  · split
    · exact .refl
    · exact ⟨rfl, rfl, rfl, rfl, rfl, rfl⟩

theorem handed_routed {log : List (Filter × List Byte)} :
    Routed s.registers (s.handed log).registers := by
  induction log generalizing s with
  | nil => exact .refl
  | cons entry log ih =>
    have first := @afterAccept_routed entry.1 s entry.2
    have later := @ih (s.afterAccept entry.1 entry.2)
    exact ⟨later.written.trans first.written, later.channels.trans first.channels,
      later.enable.trans first.enable, later.words.trans first.words,
      later.decoder.trans first.decoder, later.control.trans first.control⟩

/-- A section of a packet stream on a channel that is armed for it. -/
theorem acceptTransportSection_armed (valid : validateSection section_ = .ok ())
    (enabled : s.registers.enabled channel = true) :
    acceptTransportSection channel section_ s = .ok ⟨⟩ (s.afterAccept channel section_) := by
  unfold acceptTransportSection afterAccept
  simp only [valid, enabled, Bool.not_true, Bool.and_false, Bool.false_eq_true, if_false]
  split
  · rfl
  · split
    · rfl
    · rfl

/-- The sections that end in a payload, handed to one channel. -/
def ended (channel : Filter) (sections : List (List Byte)) : List (Filter × List Byte) :=
  sections.map fun section_ => (channel, section_)

theorem startTransport_cons (sendable : Sendable section_)
    (enabled : s.registers.enabled channel = true) :
    startTransport channel (section_ ++ rest) s =
      startTransport channel rest (s.afterAccept channel section_) := by
  have sized := sendable.sized
  have length : transportLength (section_ ++ rest) = section_.length := by
    rw [transportLength_append (by omega)]
    exact transportLength_valid sendable.valid
  rw [startTransport, if_neg, if_neg, length, if_neg, if_neg, List.take_left, List.drop_left,
    bind_of_ok (acceptTransportSection_armed sendable.valid enabled)]
  · rw [List.length_append]
    omega
  · change ¬(_ ∨ 4096 < _)
    omega
  · rw [List.length_append]
    omega
  · rintro (nil | stuffing)
    · have := congrArg List.length nil
      rw [List.length_append, List.length_nil] at this
      omega
    · rw [byteAt_append (by omega)] at stuffing
      exact sendable.table stuffing

/-- Whole sections that start in a payload.  By induction on the sections. -/
theorem startTransport_whole {whole : List (List Byte)}
    (sendable : ∀ section_ ∈ whole, Sendable section_)
    (enabled : s.registers.enabled channel = true) :
    startTransport channel (whole.flatten ++ rest) s =
      startTransport channel rest (s.handed (ended channel whole)) := by
  induction whole generalizing s with
  | nil => rfl
  | cons section_ whole ih =>
    have first := sendable section_ (by simp)
    have later : (s.afterAccept channel section_).registers.enabled channel = true := by
      rw [afterAccept_routed.enabled]
      exact enabled
    rw [List.flatten_cons, List.append_assoc, startTransport_cons first enabled,
      ih (fun section_ member => sendable section_ (List.mem_cons_of_mem _ member)) later]
    rfl

/-- A part of a section is kept, however short. -/
theorem startTransport_begun {more : List Byte} (begun : part ≠ []) (unended : more ≠ [])
    (next : Sendable (part ++ more)) :
    startTransport channel part s = .ok ⟨⟩ (s.keepPart channel part) := by
  have some := List.length_pos_iff.mpr begun
  have left := List.length_pos_iff.mpr unended
  have unstuffed : ¬(part = [] ∨ byteAt part 0 = 0xff) := by
    rintro (nil | stuffing)
    · exact begun nil
    · exact next.table ((byteAt_append some).trans stuffing)
  rw [startTransport, if_neg unstuffed]
  by_cases short : part.length < 3
  · rw [if_pos short]
    rfl
  · have sized := next.sized
    have length := next.toSound.length rfl (Nat.not_lt.mp short)
    rw [List.length_append] at sized length
    rw [if_neg short, length, if_neg, if_pos]
    · rfl
    · omega
    · change ¬(_ ∨ 4096 < _)
      omega

/-- The section goes on behind this payload. -/
theorem continueTransport_goesOn {more : List Byte}
    (kept : s.registers.transportPart channel = part) (begun : part ≠ []) (unended : more ≠ [])
    (sendable : Sendable (part ++ payload ++ more)) :
    continueTransport channel payload s = .ok ⟨⟩ (s.keepPart channel (part ++ payload)) := by
  have left := List.length_pos_iff.mpr unended
  unfold continueTransport
  dsimp only
  rw [kept, if_neg begun]
  by_cases short : (part ++ payload).length < 3
  · rw [if_pos short]
  · have sized := sendable.sized
    have length := sendable.toSound.length rfl (Nat.not_lt.mp short)
    rw [@List.length_append _ (part ++ payload)] at sized length
    rw [if_neg short, length, if_neg, if_pos]
    · omega
    · change ¬(_ ∨ 4096 < _)
      omega

/-- The section ends in this payload. -/
theorem continueTransport_ends {unsent : List Byte}
    (kept : s.registers.transportPart channel = part) (begun : part ≠ [])
    (sendable : Sendable (part ++ unsent)) (enabled : s.registers.enabled channel = true) :
    continueTransport channel (unsent ++ rest) s =
      .ok ⟨⟩ ((s.keepPart channel []).afterAccept channel (part ++ unsent)) := by
  have sized := sendable.sized
  have length : transportLength (part ++ unsent ++ rest) = (part ++ unsent).length := by
    rw [transportLength_append (by omega)]
    exact transportLength_valid sendable.valid
  unfold continueTransport
  dsimp only
  rw [kept, ← List.append_assoc, length, if_neg begun, if_neg, if_neg, if_neg, List.take_left]
  · exact acceptTransportSection_armed sendable.valid enabled
  · rw [@List.length_append _ (part ++ unsent)]
    omega
  · change ¬(_ ∨ 4096 < _)
    omega
  · rw [@List.length_append _ (part ++ unsent)]
    omega

theorem continueTransport_idle (kept : s.registers.transportPart channel = []) :
    continueTransport channel payload s = .ok ⟨⟩ s := by
  unfold continueTransport
  dsimp only
  rw [if_pos kept]

theorem handed_holding {log : List (Filter × List Byte)} :
    (s.holding parts packet).handed log = (s.handed log).holding parts packet := by
  induction log generalizing s with
  | nil => rfl
  | cons entry log ih =>
    change ((s.holding parts packet).afterAccept entry.1 entry.2).handed log = _
    rw [afterAccept_holding, ih]
    rfl

/-- The section under way ends before the first that starts, at the place that the first byte
gives. -/
theorem pushPayload_starting {p : Progress} (good : p.Good) (near : p.unsent.length < 256)
    (kept : parts channel = p.sent) (enabled : s.registers.enabled channel = true) :
    pushPayload true (BitVec.ofNat 8 p.unsent.length :: (p.unsent ++ payload)) channel
        (s.holding parts packet) =
      startTransport channel payload
        ((s.handed (ended channel p.section_)).holding
          (Function.update parts channel []) packet) := by
  have pointer : (byteAt (BitVec.ofNat 8 p.unsent.length :: (p.unsent ++ payload)) 0).toNat =
      p.unsent.length := Nat.mod_eq_of_lt near
  unfold pushPayload
  rw [if_neg (by decide), if_neg (List.cons_ne_nil _ _)]
  simp only [pointer, List.drop_succ_cons, List.drop_zero, List.take_left, List.drop_left]
  rw [if_neg]
  · cases good with
    | idle =>
      rw [bind_of_ok (continueTransport_idle kept)]
      rfl
    | @started sent unsent begun unended sendable =>
      have ran := @continueTransport_ends channel (s.holding parts packet) sent [] unsent kept begun
        sendable enabled
      rw [List.append_nil] at ran
      rw [bind_of_ok ran, keepPart_holding, afterAccept_holding]
      change startTransport channel payload ((s.afterAccept channel (sent ++ unsent)).holding
        (Function.update (Function.update parts channel []) channel []) packet) = _
      rw [Function.update_idem]
      unfold Progress.section_
      rw [if_neg unended]
      rfl
  · rw [List.length_append]
    omega

/-- The whole sections behind it. -/
theorem pushPayload_whole {p : Progress} {whole : List (List Byte)} (good : p.Good)
    (near : p.unsent.length < 256) (sendable : ∀ section_ ∈ whole, Sendable section_)
    (kept : parts channel = p.sent) (enabled : s.registers.enabled channel = true) :
    pushPayload true (BitVec.ofNat 8 p.unsent.length :: (p.unsent ++ (whole.flatten ++ rest)))
        channel (s.holding parts packet) =
      startTransport channel rest
        ((s.handed (ended channel (p.section_ ++ whole))).holding
          (Function.update parts channel []) packet) := by
  have later : (s.handed (ended channel p.section_)).registers.enabled channel = true := by
    rw [handed_routed.enabled]
    exact enabled
  have ran := @startTransport_whole channel
    ((s.handed (ended channel p.section_)).holding (Function.update parts channel []) packet)
    rest _ sendable later
  have both : ended channel (p.section_ ++ whole) =
      ended channel p.section_ ++ ended channel whole := List.map_append
  rw [pushPayload_starting good near kept enabled, ran, handed_holding, both, handed_append]

/-- **One payload.**  It hands its channel the sections that end in it, and the channel keeps
what has been sent of the next. -/
theorem pushPayload_lays {p q : Progress} {start : Bool} {sections : List (List Byte)}
    (lays : Lays p start payload sections q) (good : p.Good) (kept : parts channel = p.sent)
    (enabled : s.registers.enabled channel = true) :
    pushPayload start payload channel (s.holding parts packet) =
      .ok ⟨⟩ ((s.handed (ended channel sections)).holding
        (Function.update parts channel q.sent) packet) := by
  cases lays with
  | goesOn cut unended =>
    cases good with
    | idle => exact absurd (List.append_eq_nil_iff.mp cut).2 unended
    | started begun _ sendable =>
      subst cut
      rw [← List.append_assoc] at sendable
      exact continueTransport_goesOn kept begun unended sendable
  | ends unended n =>
    cases good with
    | idle => exact absurd rfl unended
    | started begun _ sendable =>
      have ran := @continueTransport_ends channel (s.holding parts packet) _ (List.replicate n 0xff)
        _ kept begun sendable enabled
      rw [keepPart_holding, afterAccept_holding] at ran
      exact ran
  | idles n =>
    have same : Function.update parts channel ({} : Progress).sent = parts := by
      rw [← kept, Function.update_eq_self]
    rw [same]
    exact continueTransport_idle kept
  | starts near sendable n =>
    rw [pushPayload_whole good near sendable kept enabled, startTransport_stuffing]
  | begins near sendable begun unended next =>
    rw [pushPayload_whole good near sendable kept enabled,
      startTransport_begun begun unended next, keepPart_holding, Function.update_idem]

/-- The sections that end in a packet of the PID, handed to the channels that take it. -/
def logOf (pid : Half) (sections : List (List Byte)) (d : Registers) (channels : List Filter) :
    List (Filter × List Byte) :=
  (channels.filter fun channel => d.takes pid channel).flatMap fun channel =>
    ended channel sections

theorem pushChannel_untaken {start : Bool} (untaken : s.registers.takes pid channel = false)
    (unrouted : s.registers.romRoute channel = true → s.registers.enabled channel = true) :
    pushChannel pid start payload channel s = .ok ⟨⟩ s := by
  unfold pushChannel
  dsimp only
  rw [if_neg]
  intro entered
  have ⟨watches, either⟩ := Bool.and_eq_true_iff.mp entered
  have enabled : s.registers.enabled channel = true :=
    (Bool.or_eq_true_iff.mp either).elim id unrouted
  unfold Registers.takes at untaken
  rw [watches, enabled] at untaken
  cases untaken

/-- The loop over the channels.  By induction on them: what a channel is handed does not change
where packets go. -/
theorem forM_pushChannel_lays {p q : Progress} {start : Bool} {sections : List (List Byte)}
    {channels : List Filter} (distinct : channels.Nodup) (lays : Lays p start payload sections q)
    (good : p.Good) (kept : ∀ channel ∈ channels, s.registers.takes pid channel = true →
      parts channel = p.sent)
    (unrouted : ∀ channel, s.registers.romRoute channel = true →
      s.registers.enabled channel = true) :
    channels.forM (pushChannel pid start payload) (s.holding parts packet) =
      .ok ⟨⟩ ((s.handed (logOf pid sections s.registers channels)).holding
        (fun channel => if channel ∈ channels ∧ s.registers.takes pid channel = true then q.sent
          else parts channel) packet) := by
  induction channels generalizing s parts with
  | nil =>
    simp only [List.not_mem_nil, false_and, if_false]
    rfl
  | cons channel channels ih =>
    have ⟨fresh, distinct⟩ := List.nodup_cons.mp distinct
    change (pushChannel pid start payload channel >>= fun _ =>
      channels.forM (pushChannel pid start payload)) _ = _
    cases taken : s.registers.takes pid channel with
    | false =>
      have skipped := @pushChannel_untaken pid channel (s.holding parts packet) payload start taken
        (unrouted channel)
      rw [bind_of_ok skipped, ih distinct
        (fun other member => kept other (List.mem_cons_of_mem _ member)) unrouted]
      have same : logOf pid sections s.registers (channel :: channels) =
          logOf pid sections s.registers channels := by
        unfold logOf
        rw [List.filter_cons_of_neg (by simp [taken])]
      rw [same]
      congr 3
      funext other
      by_cases here : other = channel
      · simp [here, taken]
      · simp [here]
    | true =>
      have ⟨watches, enabled⟩ := Bool.and_eq_true_iff.mp taken
      have ran := @pushPayload_lays channel s parts packet payload p q start sections lays good
        (kept channel List.mem_cons_self taken) enabled
      have entered : pushChannel pid start payload channel (s.holding parts packet) =
          .ok ⟨⟩ ((s.handed (ended channel sections)).holding
            (Function.update parts channel q.sent) packet) := by
        rw [← ran]
        exact if_pos (by
          change (s.registers.watches pid channel &&
            (s.registers.enabled channel || s.registers.romRoute channel)) = true
          rw [watches, enabled]
          rfl)
      have routed := @handed_routed s (ended channel sections)
      rw [bind_of_ok entered, ih distinct]
      · have first : logOf pid sections s.registers (channel :: channels) =
            ended channel sections ++ logOf pid sections s.registers channels := by
          unfold logOf
          rw [List.filter_cons_of_pos (by simp [taken]), List.flatMap_cons]
        have same : logOf pid sections (s.handed (ended channel sections)).registers channels =
            logOf pid sections s.registers channels := by
          unfold logOf
          simp only [routed.takes]
        rw [first, handed_append, same]
        congr 3
        funext other
        by_cases here : other = channel
        · subst here
          simp [fresh, taken]
        · simp [here, routed.takes]
      · intro other member takes
        have apart : other ≠ channel := fun same => fresh (same ▸ member)
        rw [Function.update_of_ne apart]
        exact kept other (List.mem_cons_of_mem _ member) (routed.takes ▸ takes)
      · intro other rom
        rw [routed.enabled]
        exact unrouted other (routed.romRoute ▸ rom)

/-- The sections of a log that a channel was handed. -/
def handedTo (channel : Filter) (log : List (Filter × List Byte)) : List (List Byte) :=
  (log.filter fun entry => entry.1 = channel).map Prod.snd

theorem handedTo_append {log later : List (Filter × List Byte)} :
    handedTo channel (log ++ later) = handedTo channel log ++ handedTo channel later := by
  simp [handedTo]

theorem handedTo_ended {other : Filter} {sections : List (List Byte)} :
    handedTo channel (ended other sections) = if other = channel then sections else [] := by
  unfold handedTo ended
  by_cases here : other = channel
  · simp [here, List.filter_map, Function.comp_def]
  · simp [here, List.filter_map, Function.comp_def]

/-- A channel is handed a packet's sections if it takes the PID. -/
theorem handedTo_logOf {sections : List (List Byte)} {channels : List Filter}
    (distinct : channels.Nodup) : handedTo channel (logOf pid sections d channels) =
      if channel ∈ channels ∧ d.takes pid channel = true then sections else [] := by
  induction channels with
  | nil => simp [logOf, handedTo]
  | cons other channels ih =>
    have ⟨fresh, distinct⟩ := List.nodup_cons.mp distinct
    have later := ih distinct
    unfold logOf at later ⊢
    cases taken : d.takes pid other with
    | false =>
      rw [List.filter_cons_of_neg (by simp [taken]), later]
      by_cases here : channel = other
      · simp [here, taken]
      · simp [here]
    | true =>
      rw [List.filter_cons_of_pos (by simp [taken]), List.flatMap_cons, handedTo_append,
        handedTo_ended, later]
      by_cases here : channel = other
      · subst here
        simp [fresh, taken]
      · simp [here, Ne.symm here]

/-- What a channel keeps at a progress of each PID's stream. -/
def partsAt (progress : Half → Progress) (d : Registers) (parts : Filter → List Byte) :
    Filter → List Byte :=
  fun channel => if d.armed channel then (progress (d.pidOf channel)).sent else parts channel

/-- Every packet's PID stays out of the decoder, and the boot ROM's routes are on enabled
channels. -/
structure Clear (d : Registers) (packets : List Dvb.Packet) : Prop where
  undiverted : ∀ packet ∈ packets, ¬d.Diverted packet.pid
  unrouted : ∀ channel, d.romRoute channel = true → d.enabled channel = true

theorem Clear.routed {packets : List Dvb.Packet} (clear : Clear d packets) (routed : Routed d d') :
    Clear d' packets where
  undiverted packet member := by
    unfold Registers.Diverted
    rw [routed.decoderPIDs]
    exact clear.undiverted packet member
  unrouted channel rom := by
    rw [routed.enabled]
    exact clear.unrouted channel (routed.romRoute ▸ rom)

/-- One packet's bytes. -/
theorem forM_bytes {packet : Dvb.Packet} {p q : Progress} {sections : List (List Byte)}
    (lays : Lays p packet.start packet.payload sections q) (good : p.Good)
    (kept : ∀ channel, s.registers.takes packet.pid channel = true → parts channel = p.sent)
    (undiverted : ¬s.registers.Diverted packet.pid)
    (unrouted : ∀ channel, s.registers.romRoute channel = true →
      s.registers.enabled channel = true) :
    packet.bytes.forM pushByte (s.holding parts []) =
      .ok ⟨⟩ ((s.handed (logOf packet.pid sections s.registers filters)).holding
        (fun channel => if s.registers.takes packet.pid channel = true then q.sent
          else parts channel) []) := by
  have length := @Packet.bytes_length packet
  have placed := @Packet.payload_at packet _ rfl
  have control := @Packet.control packet
  have pid : (byteAt packet.bytes 1 &&& 0x1f) ++ byteAt packet.bytes 2 = packet.pid := by
    rw [Packet.flags, Packet.lowByte]
    exact sectionPacket_pid packet.small
  have sound : byteAt packet.bytes 1 &&& 0x80 = 0 := by
    rw [Packet.flags]
    exact sectionPacket_sound
  have start : (byteAt packet.bytes 1 &&& 0x40 != 0) = packet.start := by
    rw [Packet.flags]
    exact sectionPacket_start
  have entered : pushTransportPacket packet.bytes (s.holding parts packet.bytes) =
      .ok ⟨⟩ ((s.handed (logOf packet.pid sections s.registers filters)).holding
        (fun channel => if s.registers.takes packet.pid channel = true then q.sent
          else parts channel) packet.bytes) := by
    have loop := @forM_pushChannel_lays packet.pid s parts packet.bytes packet.payload p q
      packet.start sections filters filters_nodup lays good (fun channel _ => kept channel) unrouted
    simp only [mem_filters, true_and] at loop
    unfold pushTransportPacket
    dsimp only
    have loaded : ¬(byteAt packet.bytes 1 &&& 0x80 ≠ 0 ∨
        byteAt packet.bytes 3 >>> 4 &&& 3 &&& 1 = 0) := by
      rw [sound, control]
      cases packet.adaptation.isSome <;> decide
    have inside : ¬transportPacketSize < _ := Nat.not_lt.mpr placed.1
    have aside : ¬((s.holding parts packet.bytes).registers.decoderPIDs.2.2 = true ∧
        (packet.pid = 0 ∨ packet.pid = Multiplex.programmeMapPID ∨
          packet.pid = (s.holding parts packet.bytes).registers.decoderPIDs.1 ∨
          packet.pid = (s.holding parts packet.bytes).registers.decoderPIDs.2.1)) := undiverted
    rw [if_neg loaded, if_neg inside, pid, if_neg aside, placed.2, start]
    exact loop
  rw [Packet.bytes] at length entered ⊢
  rw [forM_packet rfl length]
  change (pushTransportPacket _ >>= fun _ => modify (keepPacket [])) (s.holding parts _) = _
  rw [bind_of_ok entered]
  rfl

theorem partsAt_self {progress : Half → Progress}
    (kept : ∀ channel, d.armed channel = true →
      parts channel = (progress (d.pidOf channel)).sent) : partsAt progress d parts = parts := by
  funext channel
  unfold partsAt
  cases armed : d.armed channel with
  | false => rfl
  | true => exact (kept channel armed).symm

/-- What the channels of the PID come to keep shows nothing of what they kept before. -/
theorem partsAt_taken {progress : Half → Progress} (routed : Routed d d') :
    partsAt progress d' (fun channel => if d.takes pid channel = true then part
      else parts channel) = partsAt progress d parts := by
  funext channel
  unfold partsAt
  rw [routed.armed, routed.pidOf]
  cases armed : d.armed channel with
  | true => rfl
  | false =>
    dsimp only
    rw [takes_of_unarmed armed]
    rfl

/-- A packet's sections come before those of the packets behind it. -/
theorem handedTo_packet {sections : Half → List (List Byte)} {now later : List (List Byte)}
    {log : List (Filter × List Byte)} (whole : sections pid = now ++ later)
    (delivered : handedTo channel log = if d.armed channel then
      Function.update sections pid later (d.pidOf channel) else []) :
    handedTo channel (logOf pid now d filters ++ log) =
      if d.armed channel then sections (d.pidOf channel) else [] := by
  rw [handedTo_append, handedTo_logOf filters_nodup, delivered]
  cases armed : d.armed channel with
  | false => simp [takes_of_unarmed armed]
  | true =>
    by_cases here : d.pidOf channel = pid
    · have takes : d.takes pid channel = true := takes_iff.mpr ⟨armed, here⟩
      simp [here, takes, mem_filters, whole]
    · simp [here, takes_of_ne here]

/-- The packets of several PIDs.  By induction on the packets: each moves its own PID on. -/
theorem forM_packets {packets : List Dvb.Packet} {before after : Half → Progress}
    {sections : Half → List (List Byte)} (clear : Clear s.registers packets)
    (good : ∀ pid, (before pid).Good)
    (kept : ∀ channel, s.registers.armed channel = true →
      parts channel = (before (s.registers.pidOf channel)).sent)
    (carries : ∀ pid, Carries (before pid)
      ((packets.filter fun packet => packet.pid = pid).map Packet.unit) (sections pid)
      (after pid)) :
    ∃ log, (packets.flatMap Packet.bytes).forM pushByte (s.holding parts []) =
        .ok ⟨⟩ ((s.handed log).holding (partsAt after s.registers parts) []) ∧
      ∀ channel, handedTo channel log =
        if s.registers.armed channel then sections (s.registers.pidOf channel) else [] := by
  induction packets generalizing s parts before sections with
  | nil =>
    have done (pid : Half) : sections pid = [] ∧ after pid = before pid := by
      have carried := carries pid
      rw [List.filter_nil, List.map_nil] at carried
      generalize before pid = p, after pid = q, sections pid = all at carried ⊢
      cases carried
      exact ⟨rfl, rfl⟩
    refine ⟨[], ?_, fun channel => ?_⟩
    · rw [partsAt_self fun channel armed => by rw [(done _).2, kept channel armed]]
      rfl
    · rw [(done _).1, ite_self]
      rfl
  | cons packet packets ih =>
    have here := carries packet.pid
    rw [List.filter_cons_of_pos (by simp), List.map_cons] at here
    generalize whole : sections packet.pid = all at here
    cases here with
    | @cons _ q _ _ _ sections_ later _ lays rest =>
      have taken (channel : Filter) (takes : s.registers.takes packet.pid channel = true) :
          parts channel = (before packet.pid).sent := by
        obtain ⟨armed, same⟩ := takes_iff.mp takes
        rw [kept channel armed, same]
      have step := forM_bytes lays (good packet.pid) taken
        (clear.undiverted packet List.mem_cons_self) clear.unrouted
      generalize entered : logOf packet.pid sections_ s.registers filters = log at step
      have routed := @handed_routed s log
      obtain ⟨log', ran, delivered⟩ := @ih (s.handed log)
        (fun channel => if s.registers.takes packet.pid channel = true then q.sent
          else parts channel)
        (Function.update before packet.pid q) (Function.update sections packet.pid later)
        ({ clear with undiverted := fun packet member =>
            clear.undiverted packet (List.mem_cons_of_mem _ member) : Clear _ _ }.routed routed)
        (fun pid => by
          by_cases this : pid = packet.pid
          · subst this
            rw [Function.update_self]
            exact lays.good (good packet.pid)
          · rw [Function.update_of_ne this]
            exact good pid)
        (fun channel armed => by
          rw [routed.armed] at armed
          rw [routed.pidOf]
          by_cases this : s.registers.pidOf channel = packet.pid
          · rw [this, Function.update_self, if_pos (takes_iff.mpr ⟨armed, this⟩)]
          · rw [Function.update_of_ne this, takes_of_ne this]
            exact kept channel armed)
        (fun pid => by
          by_cases this : pid = packet.pid
          · subst this
            rw [Function.update_self, Function.update_self]
            exact rest
          · have carried := carries pid
            rw [List.filter_cons_of_neg (by simpa using Ne.symm this)] at carried
            rw [Function.update_of_ne this, Function.update_of_ne this]
            exact carried)
      refine ⟨log ++ log', ?_, fun channel => ?_⟩
      · rw [List.flatMap_cons, forM_append_of_ok step, ran, handed_append, partsAt_taken routed]
      · rw [← entered]
        refine handedTo_packet whole ?_
        rw [delivered, routed.armed, routed.pidOf]

theorem forM_chunks {chunks : List (List Byte)}
    (ran : pushTransport chunks.flatten s = .ok ⟨⟩ t) :
    chunks.forM pushTransport s = .ok ⟨⟩ t := by
  induction chunks generalizing s with
  | nil =>
    rw [← ran]
    unfold pushTransport
    exact (ite_self _).symm
  | cons chunk chunks ih =>
    obtain ⟨u, first, later⟩ := pushTransport_append ran
    change (pushTransport chunk >>= fun _ => chunks.forM pushTransport) s = _
    rw [bind_of_ok first]
    exact ih later

/-- **The section transport.**  Sections laid into the packets of their PIDs by the sender's rule,
with the PIDs interleaved in any way and the bytes given in any chunks, raise no error and are
handed to each channel armed for their PID, each once and in order; the channel keeps what has
been sent of the section under way. -/
theorem sections_arrive {packets : List Dvb.Packet} {before after : Half → Progress}
    {sections : Half → List (List Byte)} {chunks : List (List Byte)}
    (running : s.registers.control140 &&& 1 ≠ 0) (idle : s.registers.transportPacket = [])
    (clear : Clear s.registers packets) (good : ∀ pid, (before pid).Good)
    (kept : ∀ channel, s.registers.armed channel = true →
      s.registers.transportPart channel = (before (s.registers.pidOf channel)).sent)
    (carries : ∀ pid, Carries (before pid)
      ((packets.filter fun packet => packet.pid = pid).map Packet.unit) (sections pid) (after pid))
    (cut : chunks.flatten = packets.flatMap Packet.bytes) :
    ∃ log, chunks.forM pushTransport s = .ok ⟨⟩ ((s.handed log).holding
        (partsAt after s.registers s.registers.transportPart) []) ∧
      ∀ channel, handedTo channel log =
        if s.registers.armed channel then sections (s.registers.pidOf channel) else [] := by
  obtain ⟨log, ran, delivered⟩ := forM_packets clear good kept carries
  refine ⟨log, forM_chunks ?_, delivered⟩
  unfold pushTransport
  rw [if_neg running, cut, ← ran, ← idle]
  rfl

/-- A time table, and the next. -/
def timeTable (second : Byte) : List Byte :=
  [0x70, 0x70, 0x05, 0xc3, 0x50, 0, 0, second]

theorem timeTable_sendable {second : Byte} (early : second = 0 ∨ second = 1) :
    Sendable (timeTable second) := by
  rcases early with rfl | rfl
  · exact ⟨⟨rfl, by decide⟩, by decide⟩
  · exact ⟨⟨rfl, by decide⟩, by decide⟩

/-- A whole section and two bytes of the next, behind an adaptation field. -/
def headPacket : Dvb.Packet where
  pid := 0x14
  start := true
  continuity := 0
  adaptation := some (0 :: List.replicate 171 0xff)
  payload := 0 :: (timeTable 0 ++ [0x70, 0x70])
  small := by decide
  sized := by
    simp only [Option.elim_some, timeTable, List.length_cons, List.length_append,
      List.length_replicate, List.length_nil]

/-- The rest of it. -/
def tailPacket : Dvb.Packet where
  pid := 0x14
  start := false
  continuity := 1
  adaptation := none
  payload := (timeTable 1).drop 2 ++ List.replicate 178 0xff
  small := by decide
  sized := by
    simp only [Option.elim_none, timeTable, List.length_cons, List.length_append,
      List.length_replicate, List.length_drop, List.length_nil]

/-- The guest that watches PID `0x14` on channel 22 is handed both, from two chunks that end
inside a packet. -/
theorem timeTables_arrive : ∃ log,
    [(headPacket.bytes ++ tailPacket.bytes).take 100,
      (headPacket.bytes ++ tailPacket.bytes).drop 100].forM pushTransport tuned =
        .ok ⟨⟩ ((tuned.handed log).holding
          (partsAt (fun _ => {}) tuned.registers tuned.registers.transportPart) []) ∧
      handedTo 22 log = [timeTable 0, timeTable 1] := by
  have clear : Clear tuned.registers [headPacket, tailPacket] := by
    refine ⟨fun packet _ diverted => ?_, fun channel rom => ?_⟩
    · have ready := diverted.1
      rw [tuned_sole.undecoded] at ready
      cases ready
    · rw [tuned_sole.unrouted] at rom
      cases rom
  have head : Lays {} true headPacket.payload [timeTable 0] ⟨[0x70, 0x70], (timeTable 1).drop 2⟩ :=
    @Lays.begins {} [timeTable 0] [0x70, 0x70] ((timeTable 1).drop 2) (by decide)
      (fun section_ member => List.mem_singleton.mp member ▸ timeTable_sendable (.inl rfl))
      (by decide) (by decide) (timeTable_sendable (.inr rfl))
  have rest : Lays ⟨[0x70, 0x70], (timeTable 1).drop 2⟩ false tailPacket.payload [timeTable 1] {} :=
    .ends (by decide) 178
  have carries (pid : Half) : Carries {}
      (([headPacket, tailPacket].filter fun packet => packet.pid = pid).map Packet.unit)
      (if (0x14 : Half) = pid then [timeTable 0, timeTable 1] else []) {} := by
    by_cases here : (0x14 : Half) = pid
    · subst here
      exact .cons head (.cons rest .nil)
    · have none_ : ([headPacket, tailPacket].filter fun packet => packet.pid = pid) = [] := by
        simpa [headPacket, tailPacket] using here
      rw [none_, if_neg here]
      exact .nil
  obtain ⟨log, ran, delivered⟩ := @sections_arrive tuned [headPacket, tailPacket] (fun _ => {})
    (fun _ => {}) (fun pid => if (0x14 : Half) = pid then [timeTable 0, timeTable 1] else [])
    [(headPacket.bytes ++ tailPacket.bytes).take 100,
      (headPacket.bytes ++ tailPacket.bytes).drop 100]
    (by decide) rfl clear (fun _ => .idle) (fun _ _ => rfl) carries (by simp)
  refine ⟨log, ran, ?_⟩
  have armed : tuned.registers.armed 22 = true := by decide
  have programmed : tuned.registers.pidOf 22 = 0x14 := by decide
  rw [delivered, if_pos armed, programmed, if_pos rfl]

end Receiver

end Demux

end GoRetroTv
