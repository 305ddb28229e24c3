import GoRetroTv.BroadcastCarousel
import GoRetroTv.PesPackets
import GoRetroTv.SectionStreams

/-!
# Waves on the wire

`Pump` of `internal/multiplex/multiplex.go` cuts each section of a wave into packets, with the
counter its PID has come to, and pushes them into the demultiplexer.  What goes out on a PID is a
legal stream of its sections with its counters in a row, and each channel is handed the sections
of its PID.
-/

namespace GoRetroTv

namespace Dvb

open Demux (byteAt)
open Demux.Receiver (packetizeFrom_nil packetizeFrom_rest packetizeSection_eq)

variable {pid : Half} {section_ : List Byte} {continuity : Byte}

/-- Packets whose counters follow each other, from a counter to the next that is free. -/
inductive Counted : Byte → List Packet → Byte → Prop
  | nil {c c' : Byte} (same : c &&& 0x0f = c' &&& 0x0f) : Counted c [] c'
  | cons {c c' : Byte} {packet : Packet} {packets : List Packet}
      (counter : packet.continuity &&& 0x0f = c &&& 0x0f)
      (rest : Counted (c + 1 &&& 0x0f) packets c') : Counted c (packet :: packets) c'

theorem Counted.congr {c d c' : Byte} {packets : List Packet} (counted : Counted c packets c')
    (same : d &&& 0x0f = c &&& 0x0f) : Counted d packets c' := by
  cases counted with
  | nil still => exact .nil (same.trans still)
  | cons counter rest =>
    have next : d + 1 &&& 0x0f = c + 1 &&& 0x0f := by
      have values := congrArg BitVec.toNat same
      rw [counter_toNat, counter_toNat] at values
      apply BitVec.eq_of_toNat_eq
      rw [counter_toNat, counter_toNat, BitVec.toNat_add, BitVec.toNat_add]
      have one : (1 : Byte).toNat = 1 := rfl
      omega
    exact .cons (counter.trans same.symm) (next ▸ rest)

theorem Counted.append {c c' c'' : Byte} {packets later : List Packet}
    (first : Counted c packets c') (second : Counted c' later c'') :
    Counted c (packets ++ later) c'' := by
  induction first with
  | nil same => exact second.congr same
  | cons counter _ ih => exact .cons counter (ih second)

theorem Carries.append {p q r : Progress} {units more : List (Bool × List Byte)}
    {sections later : List (List Byte)} (first : Carries p units sections q)
    (second : Carries q more later r) : Carries p (units ++ more) (sections ++ later) r := by
  induction first with
  | nil => exact second
  | cons lays _ ih =>
    rw [List.append_assoc]
    exact .cons lays (ih second)

/-- A packet of `PacketizeSection`. -/
def Packet.ofSection (pid : Half) (small : pid ≤ 0x1fff) (first : Bool) (continuity : Byte)
    (payload : List Byte) (fits : payload.length ≤ packetRoom first) : Packet where
  pid := pid
  start := first
  continuity := continuity
  adaptation := none
  payload := packetPayload first payload
  small := small
  sized := by
    rw [packetPayload_length fits]
    rfl

theorem Packet.ofSection_bytes {small : pid ≤ 0x1fff} {first : Bool} {payload : List Byte}
    {fits : payload.length ≤ packetRoom first} :
    (Packet.ofSection pid small first continuity payload fits).bytes =
      sectionPacket pid first continuity payload := by
  rw [sectionPacket_eq]
  unfold Packet.bytes Packet.ofSection Packet.adaptationBytes
  simp

/-- The packets that carry a section on, or the whole of one. -/
structure Cuts (pid : Half) (p : Progress) (section_ : List Byte) (continuity : Byte)
    (packets : List Packet) : Prop where
  pids : ∀ packet ∈ packets, packet.pid = pid
  counted : Counted continuity packets (continuity + BitVec.ofNat 8 packets.length &&& 0x0f)
  carries : Carries p (packets.map Packet.unit) [section_] {}

/-- A packet in which the section ends. -/
theorem Cuts.last {p : Progress} {small : pid ≤ 0x1fff} {first : Bool} {payload : List Byte}
    {fits : payload.length ≤ packetRoom first}
    (ends : Lays p first (packetPayload first payload) [section_] {}) :
    Cuts pid p section_ continuity [Packet.ofSection pid small first continuity payload fits] where
  pids packet member := by
    rw [List.mem_singleton.mp member]
    rfl
  counted := by
    refine .cons rfl (.nil ?_)
    rw [BitVec.and_assoc, BitVec.and_assoc]
    rfl
  carries := ends.carries

/-- A packet behind which the section goes on. -/
theorem Cuts.cons {p q : Progress} {small : pid ≤ 0x1fff} {first : Bool} {payload : List Byte}
    {fits : payload.length ≤ packetRoom first} {packets : List Packet}
    (lays : Lays p first (packetPayload first payload) [] q)
    (rest : Cuts pid q section_ (continuity + 1 &&& 0x0f) packets) :
    Cuts pid p section_ continuity
      (Packet.ofSection pid small first continuity payload fits :: packets) where
  pids packet member := by
    rcases List.mem_cons.mp member with rfl | later
    · rfl
    · exact rest.pids packet later
  counted := by
    rw [List.length_cons, ← counter_add]
    exact .cons rfl rest.counted
  carries := .cons lays rest.carries

/-- The packets behind the first.  By induction on what they carry. -/
theorem packetizeFrom_cuts {sent unsent : List Byte} (small : pid ≤ 0x1fff)
    (unended : unsent ≠ []) :
    ∃ packets, packets.flatMap Packet.bytes = packetizeFrom pid false unsent continuity ∧
      Cuts pid ⟨sent, unsent⟩ (sent ++ unsent) continuity packets := by
  induction size : unsent.length using Nat.strong_induction_on
    generalizing sent unsent continuity with
  | _ size_ ih =>
    rw [packetizeFrom_rest unended]
    by_cases last : unsent.length ≤ 184
    · have fits : unsent.length ≤ packetRoom false := last
      refine ⟨[Packet.ofSection pid small false continuity unsent fits], ?_,
        .last (.ends unended _)⟩
      rw [List.take_of_length_le last, List.drop_of_length_le last, packetizeFrom_nil,
        List.flatMap_singleton, Packet.ofSection_bytes, List.append_nil]
    · have full : (unsent.take 184).length = 184 := by
        rw [List.length_take]
        omega
      have fits : (unsent.take 184).length ≤ packetRoom false := full.le
      have shorter : (unsent.drop 184).length < size_ := by
        rw [List.length_drop]
        omega
      have more : unsent.drop 184 ≠ [] := by
        apply List.ne_nil_of_length_pos
        rw [List.length_drop]
        omega
      obtain ⟨packets, bytes, cuts⟩ := @ih _ shorter (continuity + 1 &&& 0x0f)
        (sent ++ unsent.take 184) (unsent.drop 184) more rfl
      have unpadded : packetPayload false (unsent.take 184) = unsent.take 184 := by
        unfold packetPayload packetRoom
        rw [full]
        simp
      have goesOn : Lays ⟨sent, unsent⟩ false (packetPayload false (unsent.take 184)) []
          ⟨sent ++ unsent.take 184, unsent.drop 184⟩ := by
        rw [unpadded]
        exact .goesOn (List.take_append_drop 184 unsent) more
      rw [List.append_assoc, List.take_append_drop] at cuts
      refine ⟨Packet.ofSection pid small false continuity (unsent.take 184) fits :: packets, ?_,
        .cons goesOn cuts⟩
      rw [List.flatMap_cons, Packet.ofSection_bytes, bytes]

/-- `PacketizeSection` follows the rule. -/
theorem packetizeSection_cuts (small : pid ≤ 0x1fff) (sendable : Sendable section_) :
    ∃ packets, packets.flatMap Packet.bytes = packetizeSection pid section_ continuity ∧
      Cuts pid {} section_ continuity packets := by
  rw [packetizeSection_eq]
  by_cases last : section_.length ≤ 183
  · have fits : section_.length ≤ packetRoom true := last
    have starts : Lays {} true (packetPayload true section_) [section_] {} := by
      have laid := @Lays.starts {} [section_] (by decide) (by simpa using sendable)
        (183 - section_.length)
      rw [List.flatten_singleton] at laid
      exact laid
    refine ⟨[Packet.ofSection pid small true continuity section_ fits], ?_, .last starts⟩
    rw [List.take_of_length_le last, List.drop_of_length_le last, packetizeFrom_nil,
      List.flatMap_singleton, Packet.ofSection_bytes, List.append_nil]
  · have full : (section_.take 183).length = 183 := by
      rw [List.length_take]
      omega
    have fits : (section_.take 183).length ≤ packetRoom true := full.le
    have begun : section_.take 183 ≠ [] := by
      apply List.ne_nil_of_length_pos
      omega
    have more : section_.drop 183 ≠ [] := by
      apply List.ne_nil_of_length_pos
      rw [List.length_drop]
      omega
    have whole : section_.take 183 ++ section_.drop 183 = section_ :=
      List.take_append_drop 183 section_
    obtain ⟨packets, bytes, cuts⟩ := @packetizeFrom_cuts pid (continuity + 1 &&& 0x0f)
      (section_.take 183) (section_.drop 183) small more
    rw [whole] at cuts
    have unpadded : packetPayload true (section_.take 183) = 0 :: section_.take 183 := by
      unfold packetPayload packetRoom
      rw [full]
      simp
    have begins : Lays {} true (packetPayload true (section_.take 183)) []
        ⟨section_.take 183, section_.drop 183⟩ := by
      rw [unpadded]
      exact @Lays.begins {} [] (section_.take 183) (section_.drop 183) (by decide) (by simp) begun
        more (whole.symm ▸ sendable)
    refine ⟨Packet.ofSection pid small true continuity (section_.take 183) fits :: packets, ?_,
      .cons begins cuts⟩
    rw [List.flatMap_cons, Packet.ofSection_bytes, bytes]

end Dvb

namespace Multiplex

open Broadcast Dvb Demux Demux.Receiver Overwrites

variable {wave : List Emission} {continuity : Half → Byte} {s t : Receiver}

/-- The transmitter's counters, the receiver, and the bytes that have gone out. -/
structure Air where
  continuity : Half → Byte := fun _ => 0
  receiver : Receiver
  aired : List Byte := []

/-- One round of `Pump`'s loop.  The counter moves on before the packets are pushed. -/
def emit (emission : Emission) : EStateM String Air PUnit := fun a =>
  let pid := emission.pid
  let packets := packetizeSection pid emission.section_ (a.continuity pid)
  let continuity := Function.update a.continuity pid
    (a.continuity pid + low (packets.length / 188 &&& 0xff) &&& 0x0f)
  match pushTransport packets a.receiver with
  | .ok _ receiver => .ok ⟨⟩ { continuity, receiver, aired := a.aired ++ packets }
  | .error error receiver =>
    .error ("multiplex: transmit on PID " ++ hexText 2 pid.toNat ++ ": " ++ error)
      { continuity, receiver, aired := a.aired ++ packets }

/-- The loop of `Pump` over a wave. -/
def transmit (wave : List Emission) : EStateM String Air PUnit :=
  wave.forM emit

/-- The sections of a wave on one PID. -/
def sectionsOn (pid : Half) (wave : List Emission) : List (List Byte) :=
  (wave.filter fun emission => emission.pid = pid).map Emission.section_

/-- The counter `Pump` goes on with. -/
theorem counter_sections (b : Byte) (n : Nat) :
    b + low (188 * n / 188 &&& 0xff) &&& 0x0f = b + BitVec.ofNat 8 n &&& 0x0f := by
  have eight := Nat.and_two_pow_sub_one_eq_mod n 8
  change n &&& 255 = _ at eight
  rw [Nat.mul_div_cancel_left n (by decide), eight]
  apply BitVec.eq_of_toNat_eq
  rw [counter_toNat, counter_toNat, BitVec.toNat_add, BitVec.toNat_add, low, BitVec.toNat_ofNat,
    BitVec.toNat_ofNat]
  omega

theorem flatMap_bytes_length (packets : List Packet) :
    (packets.flatMap Packet.bytes).length = 188 * packets.length := by
  induction packets with
  | nil => rfl
  | cons packet packets ih =>
    rw [List.flatMap_cons, List.length_append, Packet.bytes_length, ih, List.length_cons]
    omega

/-- The packets a wave goes out in. -/
structure Sends (wave : List Emission) (continuity : Half → Byte) (packets : List Packet)
    (next : Half → Byte) : Prop where
  pids : ∀ packet ∈ packets, ∃ emission ∈ wave, packet.pid = emission.pid
  counted : ∀ pid, Counted (continuity pid) (packets.filter fun packet => packet.pid = pid)
    (next pid)
  carries : ∀ pid, Carries {} ((packets.filter fun packet => packet.pid = pid).map Packet.unit)
    (sectionsOn pid wave) {}

/-- A section's packets come before those of the sections behind it. -/
theorem Sends.cons {emission : Emission} {next : Half → Byte} {first packets : List Packet}
    (cuts : Cuts emission.pid {} emission.section_ (continuity emission.pid) first)
    (sends : Sends wave (Function.update continuity emission.pid
      (continuity emission.pid + BitVec.ofNat 8 first.length &&& 0x0f)) packets next) :
    Sends (emission :: wave) continuity (first ++ packets) next := by
  have own (pid : Half) : (first.filter fun packet => packet.pid = pid) =
      if emission.pid = pid then first else [] := by
    by_cases here : emission.pid = pid
    · rw [if_pos here, List.filter_eq_self]
      intro packet member
      simp [cuts.pids packet member, here]
    · rw [if_neg here, List.filter_eq_nil_iff]
      intro packet member
      simp [cuts.pids packet member, here]
  refine ⟨?_, ?_, ?_⟩
  · intro packet member
    rcases List.mem_append.mp member with early | late
    · exact ⟨emission, List.mem_cons_self, cuts.pids packet early⟩
    · obtain ⟨other, among, same⟩ := sends.pids packet late
      exact ⟨other, List.mem_cons_of_mem _ among, same⟩
  · intro pid
    have counted := sends.counted pid
    rw [List.filter_append, own]
    by_cases here : emission.pid = pid
    · subst here
      rw [Function.update_self] at counted
      rw [if_pos rfl]
      exact cuts.counted.append counted
    · rw [Function.update_of_ne (Ne.symm here)] at counted
      rw [if_neg here]
      exact counted
  · intro pid
    have carries := sends.carries pid
    rw [List.filter_append, own, List.map_append]
    by_cases here : emission.pid = pid
    · subst here
      have sections_ : sectionsOn emission.pid (emission :: wave) =
          [emission.section_] ++ sectionsOn emission.pid wave := by
        simp [sectionsOn]
      rw [if_pos rfl, sections_]
      exact cuts.carries.append carries
    · have sections_ : sectionsOn pid (emission :: wave) = sectionsOn pid wave := by
        simp [sectionsOn, here]
      rw [if_neg here, sections_]
      exact carries

/-- What the loop pushes, call by call.  By induction on the wave. -/
theorem transmit_sends (small : ∀ emission ∈ wave, emission.pid ≤ 0x1fff)
    (sendable : ∀ emission ∈ wave, Sendable emission.section_) :
    ∃ (packets : List Packet) (next : Half → Byte) (chunks : List (List Byte)),
      Sends wave continuity packets next ∧ chunks.flatten = packets.flatMap Packet.bytes ∧
      ∀ (s t : Receiver) (aired : List Byte), chunks.forM pushTransport s = .ok ⟨⟩ t →
        transmit wave { continuity, receiver := s, aired } = .ok ⟨⟩
          { continuity := next, receiver := t, aired := aired ++ chunks.flatten } := by
  induction wave generalizing continuity with
  | nil =>
    refine ⟨[], continuity, [], ⟨?_, fun _ => .nil rfl, fun _ => .nil⟩, rfl, ?_⟩
    · intro packet member
      cases member
    · intro s t aired ran
      cases ran
      rw [List.flatten_nil, List.append_nil]
      rfl
  | cons emission wave ih =>
    obtain ⟨first, bytes, cuts⟩ := @packetizeSection_cuts emission.pid emission.section_
      (continuity emission.pid) (small emission List.mem_cons_self)
      (sendable emission List.mem_cons_self)
    have length := flatMap_bytes_length first
    rw [bytes] at length
    obtain ⟨packets, next, chunks, sends, whole, later⟩ := ih
      (fun other member => small other (List.mem_cons_of_mem _ member))
      (fun other member => sendable other (List.mem_cons_of_mem _ member))
    refine ⟨first ++ packets, next, packetizeSection emission.pid emission.section_
      (continuity emission.pid) :: chunks, .cons cuts sends, ?_, ?_⟩
    · rw [List.flatten_cons, List.flatMap_append, bytes, whole]
    · intro s t aired ran
      obtain ⟨_, u, pushed, rest⟩ := exists_of_bind_ok
        (show (pushTransport (packetizeSection emission.pid emission.section_
          (continuity emission.pid)) >>= fun _ => chunks.forM pushTransport) s = .ok ⟨⟩ t from ran)
      have step : emit emission { continuity, receiver := s, aired } = .ok ⟨⟩
          { continuity := Function.update continuity emission.pid
              (continuity emission.pid + BitVec.ofNat 8 first.length &&& 0x0f)
            receiver := u
            aired := aired ++
              packetizeSection emission.pid emission.section_ (continuity emission.pid) } := by
        unfold emit
        dsimp only
        rw [pushed, length, counter_sections]
      change (emit emission >>= fun _ => transmit wave) _ = _
      rw [bind_of_ok step, later u t _ rest, List.flatten_cons, List.append_assoc]

/-- **The transmitter's waves.**  Whatever sections a wave holds, in whatever order and from
whatever counters: its packets are on each PID a legal stream of the wave's sections there, with
counters in a row; the loop ends without an error; and each channel armed for a PID is handed
the wave's sections of it, each once and in order. -/
theorem wave_arrives {a : Air} (small : ∀ emission ∈ wave, emission.pid ≤ 0x1fff)
    (sendable : ∀ emission ∈ wave, Sendable emission.section_)
    (running : a.receiver.registers.control140 &&& 1 ≠ 0)
    (idle : a.receiver.registers.transportPacket = [])
    (empty : ∀ channel, a.receiver.registers.armed channel = true →
      a.receiver.registers.transportPart channel = [])
    (undiverted : ∀ emission ∈ wave, ¬a.receiver.registers.Diverted emission.pid)
    (unrouted : ∀ channel, a.receiver.registers.romRoute channel = true →
      a.receiver.registers.enabled channel = true) :
    ∃ packets next log, Sends wave a.continuity packets next ∧
      transmit wave a = .ok ⟨⟩ {
        continuity := next
        receiver := a.receiver.handed log
        aired := a.aired ++ packets.flatMap Packet.bytes } ∧
      ∀ channel, handedTo channel log = if a.receiver.registers.armed channel then
        sectionsOn (a.receiver.registers.pidOf channel) wave else [] := by
  obtain ⟨packets, next, chunks, sends, whole, sent⟩ :=
    @transmit_sends wave a.continuity small sendable
  have clear : Clear a.receiver.registers packets := by
    refine ⟨fun packet member => ?_, unrouted⟩
    obtain ⟨emission, among, same⟩ := sends.pids packet member
    rw [same]
    exact undiverted emission among
  have kept (channel : Filter) (armed : a.receiver.registers.armed channel = true) :
      a.receiver.registers.transportPart channel =
        ((fun _ => {} : Half → Progress) (a.receiver.registers.pidOf channel)).sent :=
    empty channel armed
  obtain ⟨log, entered, delivered⟩ := forM_packets (s := a.receiver) clear (fun _ => .idle) kept
    sends.carries
  refine ⟨packets, next, log, sends, ?_, delivered⟩
  rw [partsAt_self kept, ← handed_holding, ← idle, holding_self] at entered
  have ran : chunks.forM pushTransport a.receiver = .ok ⟨⟩ (a.receiver.handed log) := by
    refine forM_chunks ?_
    unfold pushTransport
    rw [if_neg running, whole]
    exact entered
  rw [← whole]
  exact sent a.receiver _ a.aired ran

/-- The guest that watches PID `0x14` on channel 22 is handed two time tables of three emissions. -/
theorem time_wave_arrives : ∃ a log,
    transmit [⟨0x14, timeTable 0⟩, ⟨0x10, timeTable 1⟩, ⟨0x14, timeTable 1⟩] { receiver := tuned } =
        .ok ⟨⟩ a ∧
      a.receiver = tuned.handed log ∧ handedTo 22 log = [timeTable 0, timeTable 1] := by
  have sendable : ∀ emission ∈ ([⟨0x14, timeTable 0⟩, ⟨0x10, timeTable 1⟩, ⟨0x14, timeTable 1⟩] :
      List Emission), Sendable emission.section_ := by
    intro emission member
    simp only [List.mem_cons, List.not_mem_nil, or_false] at member
    rcases member with rfl | rfl | rfl
    · exact timeTable_sendable (.inl rfl)
    · exact timeTable_sendable (.inr rfl)
    · exact timeTable_sendable (.inr rfl)
  obtain ⟨packets, next, log, -, ran, delivered⟩ := @wave_arrives
    [⟨0x14, timeTable 0⟩, ⟨0x10, timeTable 1⟩, ⟨0x14, timeTable 1⟩] { receiver := tuned }
    (by decide) sendable (by decide) rfl (fun _ _ => rfl)
    (fun emission _ diverted => by
      have ready := diverted.1
      rw [tuned_sole.undecoded] at ready
      cases ready)
    (fun channel rom => by
      rw [tuned_sole.unrouted] at rom
      cases rom)
  refine ⟨_, log, ran, rfl, ?_⟩
  have armed : tuned.registers.armed 22 = true := by decide
  have programmed : tuned.registers.pidOf 22 = 0x14 := by decide
  rw [delivered, if_pos armed, programmed]
  rfl

end Multiplex

end GoRetroTv
