import GoRetroTv.DemuxTransport
import Mathlib.Tactic.IntervalCases

/-!
# The two ways agree

What the receiver does with a section's packets is what it does with the section itself,
unless the packets carry a section that the whole would not have carried.
-/

namespace GoRetroTv

/-- An action that goes on from one that has run. -/
theorem bind_of_ok {σ α β : Type} {action : EStateM String σ α} {next : α → EStateM String σ β}
    {s t : σ} {value : α} (ran : action s = .ok value t) :
    (action >>= next) s = next value t := by
  simp only [bind, EStateM.bind, ran]

namespace Dvb

open Demux (byteAt transportPacketSize)

variable {pid : Half} {first : Bool} {continuity : Byte} {payload : List Byte}

/-- What a packet carries behind its header. -/
def packetPayload (first : Bool) (payload : List Byte) : List Byte :=
  (if first then [0] else []) ++ payload ++
    List.replicate (packetRoom first - payload.length) 0xff

theorem sectionPacket_eq :
    sectionPacket pid first continuity payload =
      (0x47 : Byte) :: ((pid >>> 8 &&& 0x1f).setWidth 8 ||| if first then 0x40 else 0) ::
        (pid &&& 0xff).setWidth 8 :: (0x10 ||| continuity &&& 0x0f) ::
          packetPayload first payload := by
  unfold sectionPacket packetPayload packetRoom
  cases first with
  | true =>
    have room : transportPacketSize - (payload.length + 1 + 1 + 1 + 1 + 1) =
        183 - payload.length := by
      unfold transportPacketSize
      omega
    simp [room]
  | false =>
    have room : transportPacketSize - (payload.length + 1 + 1 + 1 + 1) =
        184 - payload.length := by
      unfold transportPacketSize
      omega
    simp [room]

theorem packetPayload_length (fits : payload.length ≤ packetRoom first) :
    (packetPayload first payload).length = 184 := by
  unfold packetPayload
  rw [List.length_append, List.length_append, List.length_replicate]
  cases first with
  | true =>
    change payload.length ≤ 183 at fits
    change 1 + payload.length + (183 - payload.length) = 184
    omega
  | false =>
    change payload.length ≤ 184 at fits
    change 0 + payload.length + (184 - payload.length) = 184
    omega

theorem sectionPacket_length (fits : payload.length ≤ packetRoom first) :
    (sectionPacket pid first continuity payload).length = transportPacketSize := by
  rw [sectionPacket_eq]
  simp only [List.length_cons, packetPayload_length fits]
  rfl

theorem sectionPacket_drop :
    (sectionPacket pid first continuity payload).drop 4 = packetPayload first payload := by
  rw [sectionPacket_eq]
  rfl

/-- The packet's PID, from the two bytes it is split over. -/
theorem sectionPacket_pid (small : pid ≤ 0x1fff) :
    (byteAt (sectionPacket pid first continuity payload) 1 &&& 0x1f) ++
      byteAt (sectionPacket pid first continuity payload) 2 = pid := by
  rw [sectionPacket_eq]
  change (((pid >>> 8 &&& 0x1f).setWidth 8 ||| if first then 0x40#8 else 0) &&& 0x1f#8) ++
    (pid &&& 0xff).setWidth 8 = pid
  have flag : ((pid >>> 8 &&& 0x1f).setWidth 8 ||| if first then 0x40#8 else 0) &&& 0x1f#8 =
      (pid >>> 8 &&& 0x1f).setWidth 8 := by
    cases first with
    | true =>
      ext i inside
      interval_cases i <;> simp
    | false =>
      ext i inside
      interval_cases i <;> simp
  rw [flag]
  apply BitVec.eq_of_toNat_eq
  have five := Nat.and_two_pow_sub_one_eq_mod (pid.toNat / 2 ^ 8) 5
  have eight := Nat.and_two_pow_sub_one_eq_mod pid.toNat 8
  have below : pid.toNat ≤ 0x1fff := small
  have halves := @Nat.shiftLeft_add_eq_or_of_lt 8 (pid.toNat % 2 ^ 8) (by omega)
    (pid.toNat / 2 ^ 8 % 2 ^ 5)
  rw [BitVec.toNat_append, BitVec.toNat_setWidth, BitVec.toNat_setWidth, BitVec.toNat_and,
    BitVec.toNat_and, BitVec.toNat_ushiftRight, Nat.shiftRight_eq_div_pow]
  change ((pid.toNat / 2 ^ 8 &&& 2 ^ 5 - 1) % 2 ^ 8) <<< 8 ||| (pid.toNat &&& 2 ^ 8 - 1) % 2 ^ 8 = _
  rw [five, eight, Nat.mod_mod, Nat.mod_eq_of_lt (by omega), ← halves, Nat.shiftLeft_eq]
  omega

theorem sectionPacket_sound :
    byteAt (sectionPacket pid first continuity payload) 1 &&& 0x80 = 0 := by
  rw [sectionPacket_eq]
  change ((pid >>> 8 &&& 0x1f).setWidth 8 ||| if first then 0x40 else 0) &&& 0x80#8 = 0
  cases first with
  | true =>
    ext i inside
    interval_cases i <;> simp
  | false =>
    ext i inside
    interval_cases i <;> simp

theorem sectionPacket_start :
    (byteAt (sectionPacket pid first continuity payload) 1 &&& 0x40 != 0) = first := by
  rw [sectionPacket_eq]
  change (((pid >>> 8 &&& 0x1f).setWidth 8 ||| if first then 0x40 else 0) &&& 0x40#8 != 0) = first
  have flag : (((pid >>> 8 &&& 0x1f).setWidth 8 ||| if first then 0x40 else 0) &&& 0x40#8) =
      if first then 0x40 else 0 := by
    cases first with
    | true =>
      ext i inside
      interval_cases i <;> simp
    | false =>
      ext i inside
      interval_cases i <;> simp
  rw [flag]
  cases first <;> rfl

theorem sectionPacket_control :
    byteAt (sectionPacket pid first continuity payload) 3 >>> 4 &&& 3 = 1 := by
  rw [sectionPacket_eq]
  change (0x10 ||| continuity &&& 0x0f) >>> 4 &&& 3#8 = 1
  ext i inside
  interval_cases i <;> simp

end Dvb

namespace Demux

open Cpu Dvb

variable {pid : Half} {channel : Filter} {section_ part rest packet : List Byte} {d : Registers}
  {s t : Receiver}

theorem byteAt_append {i : Nat} (inside : i < part.length) :
    byteAt (part ++ rest) i = byteAt part i := by
  unfold byteAt
  rw [List.getElem?_append_left inside]

/-- The length is in the first three bytes. -/
theorem transportLength_append (started : 3 ≤ part.length) :
    Receiver.transportLength (part ++ rest) = Receiver.transportLength part := by
  unfold Receiver.transportLength
  rw [byteAt_append (by omega), byteAt_append (by omega)]

theorem transportLength_valid (valid : validateSection section_ = .ok ()) :
    Receiver.transportLength section_ = section_.length := by
  unfold validateSection at valid
  split at valid
  · cases valid
  · split at valid
    · cases valid
    next declared =>
      rw [← not_ne_iff.mp declared]
      unfold Receiver.transportLength declaredLength
      rw [← Nat.shiftLeft_add_eq_or_of_lt (byteAt section_ 2).isLt]
      omega

/-- A section that both ways take for a section. -/
structure Sound (section_ : List Byte) : Prop where
  valid : validateSection section_ = .ok ()
  sized : 7 ≤ section_.length ∧ section_.length ≤ 4096

theorem Sound.length (sound : Sound section_) (whole : part ++ rest = section_)
    (started : 3 ≤ part.length) :
    Receiver.transportLength part = section_.length := by
  rw [← transportLength_append started, whole]
  exact transportLength_valid sound.valid

/-- The PID has one channel enabled for it, and neither the boot ROM's routes nor the
decoder's PIDs are in use. -/
structure Sole (pid : Half) (channel : Filter) (d : Registers) : Prop where
  watches : d.watches pid channel = true
  enabled : d.enabled channel = true
  only : ∀ other, d.watches pid other = true → d.enabled other = true → other = channel
  unrouted : ∀ other, d.romRoute other = false
  undecoded : d.decoderPIDs.2.2 = false

theorem Sole.small (sole : Sole pid channel d) : pid ≤ 0x1fff := by
  have watches := sole.watches
  unfold Registers.watches at watches
  have word : d.pidChannels channel &&& 0x1fff = pid.setWidth 32 :=
    eq_of_beq (Bool.and_eq_true_iff.mp watches).2
  have value := congrArg BitVec.toNat word
  rw [BitVec.toNat_and, BitVec.toNat_setWidth_of_le (by decide)] at value
  change pid.toNat ≤ 0x1fff
  rw [← value]
  exact Nat.and_le_right

namespace Receiver

/-- The receiver with what it carries from one packet to the next. -/
def carrying (channel : Filter) (part packet : List Byte) (s : Receiver) : Receiver :=
  (s.keepPart channel part).keepPacket packet

theorem keepPart_carrying {later : List Byte} :
    (s.carrying channel part packet).keepPart channel later =
      s.carrying channel later packet := by
  unfold carrying keepPart keepPacket
  dsimp only
  rw [Function.update_idem]

theorem keepPacket_carrying {later : List Byte} :
    (s.carrying channel part packet).keepPacket later = s.carrying channel part later :=
  rfl

theorem part_carrying :
    (s.carrying channel part packet).registers.transportPart channel = part :=
  Function.update_self _ _ _

/-- What a channel does with a section of a packet stream. -/
def afterAccept (channel : Filter) (section_ : List Byte) (s : Receiver) : Receiver :=
  if s.registers.matched channel section_ then s.pushFilter channel section_
  else if s.registers.routed channel && s.registers.tableHasRule section_ then s
  else s.pushFilter channel section_

theorem admit_carrying :
    (s.carrying channel part packet).afterAccept channel section_ =
      (s.afterAccept channel section_).carrying channel part packet := by
  unfold afterAccept
  change (if s.registers.matched channel section_ then _
    else if s.registers.routed channel && s.registers.tableHasRule section_ then _ else _) = _
  split
  · rfl
  · split
    · rfl
    · rfl

theorem acceptTransportSection_eq (valid : validateSection section_ = .ok ())
    (unrouted : s.registers.romRoute channel = false) :
    acceptTransportSection channel section_ s = .ok ⟨⟩ (s.afterAccept channel section_) := by
  unfold acceptTransportSection afterAccept
  simp only [valid, unrouted, Bool.false_and, Bool.false_eq_true, if_false]
  split
  · rfl
  · split
    · rfl
    · rfl

end Receiver

open Receiver

theorem Sole.carrying (sole : Sole pid channel s.registers) :
    Sole pid channel (s.carrying channel part packet).registers :=
  ⟨sole.watches, sole.enabled, sole.only, sole.unrouted, sole.undecoded⟩

theorem Sole.keepPacket (sole : Sole pid channel s.registers) :
    Sole pid channel (s.keepPacket packet).registers :=
  ⟨sole.watches, sole.enabled, sole.only, sole.unrouted, sole.undecoded⟩

theorem Sole.pushFilter (sole : Sole pid channel s.registers) :
    Sole pid channel (s.pushFilter channel section_).registers :=
  ⟨sole.watches, sole.enabled, sole.only, sole.unrouted, sole.undecoded⟩

theorem Sole.afterAccept (sole : Sole pid channel s.registers) :
    Sole pid channel (s.afterAccept channel section_).registers := by
  unfold Receiver.afterAccept
  split
  · exact sole.pushFilter
  · split
    · exact sole
    · exact sole.pushFilter

namespace Receiver

variable {n : Nat} {payload : List Byte}

theorem startTransport_stuffing :
    startTransport channel (List.replicate n 0xff) s = .ok ⟨⟩ s := by
  have stuffing : List.replicate n (0xff : Byte) = [] ∨ byteAt (List.replicate n 0xff) 0 = 0xff := by
    cases n with
    | zero => exact .inl rfl
    | succ n => exact .inr rfl
  rw [startTransport, if_pos stuffing]
  rfl

/-- The whole section is in its first packet. -/
theorem startTransport_section (sound : Sound section_) (table : byteAt section_ 0 ≠ 0xff)
    (unrouted : s.registers.romRoute channel = false) :
    startTransport channel (section_ ++ List.replicate n 0xff) s =
      .ok ⟨⟩ (s.afterAccept channel section_) := by
  have sized := sound.sized
  have length : transportLength (section_ ++ List.replicate n 0xff) = section_.length := by
    rw [transportLength_append (by omega)]
    exact transportLength_valid sound.valid
  have nonempty : section_ ++ List.replicate n 0xff ≠ [] := fun nil => by
    have := congrArg List.length nil
    rw [List.length_append, List.length_nil] at this
    omega
  rw [startTransport, if_neg, if_neg, length, if_neg, if_neg, List.take_left, List.drop_left,
    bind_of_ok (acceptTransportSection_eq sound.valid unrouted)]
  · exact startTransport_stuffing
  · rw [List.length_append]
    omega
  · change ¬(_ ∨ 4096 < _)
    omega
  · rw [List.length_append]
    omega
  · rintro (nil | stuffing)
    · exact nonempty nil
    · rw [byteAt_append (by omega)] at stuffing
      exact table stuffing

/-- The section goes on in the next packet. -/
theorem startTransport_part (sound : Sound section_) (table : byteAt section_ 0 ≠ 0xff)
    (whole : part ++ rest = section_) (started : 3 ≤ part.length) (more : rest ≠ []) :
    startTransport channel part s = .ok ⟨⟩ (s.keepPart channel part) := by
  have sized := sound.sized
  have length := sound.length whole started
  have shorter : part.length < section_.length := by
    rw [← whole, List.length_append]
    have := List.length_pos_iff.mpr more
    omega
  rw [startTransport, if_neg, if_neg (by omega), length, if_neg, if_pos shorter]
  · rfl
  · change ¬(_ ∨ 4096 < _)
    omega
  · rintro (nil | stuffing)
    · rw [nil] at started
      cases started
    · rw [← whole, byteAt_append (by omega)] at table
      exact table stuffing

/-- The section ends in this packet. -/
theorem continueTransport_section (sound : Sound section_) (whole : part ++ rest = section_)
    (started : 3 ≤ part.length) (unrouted : s.registers.romRoute channel = false)
    (kept : s.registers.transportPart channel = part) :
    continueTransport channel (rest ++ List.replicate n 0xff) s =
      .ok ⟨⟩ ((s.keepPart channel []).afterAccept channel section_) := by
  have sized := sound.sized
  have length : transportLength (section_ ++ List.replicate n 0xff) = section_.length := by
    rw [transportLength_append (by omega)]
    exact transportLength_valid sound.valid
  have nonempty : part ≠ [] := fun nil => by
    rw [nil] at started
    cases started
  unfold continueTransport
  dsimp only
  rw [kept, ← List.append_assoc, whole, length, if_neg nonempty, if_neg, if_neg, if_neg,
    List.take_left]
  · exact acceptTransportSection_eq sound.valid unrouted
  · rw [List.length_append]
    omega
  · change ¬(_ ∨ 4096 < _)
    omega
  · rw [List.length_append]
    omega

/-- The section goes on in the packet behind this one. -/
theorem continueTransport_part {more : List Byte} (sound : Sound section_)
    (whole : part ++ payload ++ more = section_) (started : 3 ≤ part.length) (unended : more ≠ [])
    (kept : s.registers.transportPart channel = part) :
    continueTransport channel payload s = .ok ⟨⟩ (s.keepPart channel (part ++ payload)) := by
  have sized := sound.sized
  have longer : 3 ≤ (part ++ payload).length := by
    rw [List.length_append]
    omega
  have length := sound.length whole longer
  have shorter : (part ++ payload).length < section_.length := by
    have := List.length_pos_iff.mpr unended
    rw [← whole, @List.length_append _ (part ++ payload)]
    omega
  have nonempty : part ≠ [] := fun nil => by
    rw [nil] at started
    cases started
  unfold continueTransport
  dsimp only
  rw [kept, if_neg nonempty, if_neg (by omega), length, if_neg, if_pos shorter]
  change ¬(_ ∨ 4096 < _)
  omega

/-- A new section follows at once, so an unfinished one stays as it is. -/
theorem continueTransport_nothing (unfinished : Unfinished (s.registers.transportPart channel)) :
    continueTransport channel [] s = .ok ⟨⟩ s := by
  have kept : s.keepPart channel (s.registers.transportPart channel) = s := by
    unfold keepPart
    rw [Function.update_eq_self]
  unfold continueTransport
  dsimp only
  rw [List.append_nil, kept]
  rcases unfinished with short | ⟨least, most, unended⟩
  · rw [if_pos short, ite_self]
  · have possible : ¬(transportLength (s.registers.transportPart channel) < 7 ∨
        maxTransportSection < transportLength (s.registers.transportPart channel)) := by
      omega
    rw [if_neg possible, if_pos unended, ite_self, ite_self]

/-- The first packet of a section drops what the channel had kept. -/
theorem pushPayload_start (unfinished : Unfinished (s.registers.transportPart channel)) :
    pushPayload true (0 :: payload) channel (s.keepPacket packet) =
      startTransport channel payload (s.carrying channel [] packet) := by
  have nothing := @continueTransport_nothing channel (s.keepPacket packet) unfinished
  unfold pushPayload
  rw [if_neg (by decide), if_neg (List.cons_ne_nil _ _)]
  have pointer : (byteAt (0 :: payload) 0).toNat = 0 := rfl
  simp only [pointer, Nat.not_lt_zero, if_false, List.take_zero, List.drop_zero,
    List.drop_succ_cons]
  rw [bind_of_ok nothing]
  rfl

theorem pushByte_waiting {buffer : List Byte} {b : Byte} (waiting : buffer ≠ []) :
    pushByte b (s.keepPacket buffer) =
      if (buffer ++ [b]).length ≠ transportPacketSize then .ok ⟨⟩ (s.keepPacket (buffer ++ [b]))
      else (pushTransportPacket (buffer ++ [b]) *> modify (keepPacket []))
        (s.keepPacket (buffer ++ [b])) := by
  unfold pushByte
  exact (if_neg fun empty => waiting empty.1).trans (if_neg fun empty => waiting empty.1)

theorem forM_pushByte {buffer data : List Byte} (waiting : buffer ≠ []) (more : data ≠ [])
    (length : buffer.length + data.length = transportPacketSize) :
    data.forM pushByte (s.keepPacket buffer) =
      (pushTransportPacket (buffer ++ data) *> modify (keepPacket []))
        (s.keepPacket (buffer ++ data)) := by
  induction data generalizing buffer with
  | nil => exact absurd rfl more
  | cons b data ih =>
    have step := @pushByte_waiting s buffer b waiting
    rw [List.length_append, List.length_singleton] at step
    rw [List.length_cons] at length
    change (pushByte b >>= fun _ => data.forM pushByte) (s.keepPacket buffer) = _
    by_cases last : data = []
    · subst last
      rw [List.length_nil] at length
      rw [if_neg (by omega)] at step
      change (pushByte b >>= fun _ => (pure ⟨⟩ : Action PUnit)) _ = _
      rw [bind_pure, step]
    · have := List.length_pos_iff.mpr last
      rw [if_pos (by omega)] at step
      rw [bind_of_ok step, ih (List.append_ne_nil_of_right_ne_nil _ (List.cons_ne_nil _ _)) last,
        List.append_assoc, List.singleton_append]
      rw [List.length_append, List.length_singleton]
      omega

/-- Bytes that make up a packet, when no packet has been started. -/
theorem forM_packet {body : List Byte} (idle : s.registers.transportPacket = [])
    (length : body.length + 1 = transportPacketSize) :
    ((0x47 : Byte) :: body).forM pushByte s =
      (pushTransportPacket (0x47 :: body) *> modify (keepPacket []))
        (s.keepPacket (0x47 :: body)) := by
  have sync : pushByte 0x47 s = .ok ⟨⟩ (s.keepPacket [0x47]) := by
    unfold pushByte
    dsimp only
    rw [idle]
    rfl
  change (pushByte 0x47 >>= fun _ => body.forM pushByte) s = _
  rw [bind_of_ok sync, forM_pushByte (List.cons_ne_nil _ _)]
  · rfl
  · rintro rfl
    cases length
  · rw [List.length_singleton]
    omega

theorem forM_append_of_ok {α : Type} {first second : List α} {action : α → Action PUnit}
    (ran : first.forM action s = .ok ⟨⟩ t) :
    (first ++ second).forM action s = second.forM action t := by
  have sequenced : (first ++ second).forM action =
      first.forM action >>= fun _ => second.forM action := List.forM_append
  rw [sequenced, bind_of_ok ran]

theorem forM_idle {α : Type} {list : List α} {action : α → Action PUnit}
    (idle : ∀ value ∈ list, action value s = .ok ⟨⟩ s) : list.forM action s = .ok ⟨⟩ s := by
  induction list with
  | nil => rfl
  | cons value list ih =>
    change (action value >>= fun _ => list.forM action) s = _
    rw [bind_of_ok (idle value List.mem_cons_self)]
    exact ih fun later member => idle later (List.mem_cons_of_mem _ member)

/-- A loop in which one round does something. -/
theorem forM_single {α : Type} {list : List α} {action : α → Action PUnit} {chosen : α}
    (distinct : list.Nodup) (member : chosen ∈ list) (ran : action chosen s = .ok ⟨⟩ t)
    (before : ∀ other, other ≠ chosen → action other s = .ok ⟨⟩ s)
    (behind : ∀ other, other ≠ chosen → action other t = .ok ⟨⟩ t) :
    list.forM action s = .ok ⟨⟩ t := by
  induction list with
  | nil => cases member
  | cons value list ih =>
    have ⟨new, distinct⟩ := List.nodup_cons.mp distinct
    change (action value >>= fun _ => list.forM action) s = _
    by_cases here : value = chosen
    · subst here
      rw [bind_of_ok ran]
      exact forM_idle fun other later => behind other fun same => new (same ▸ later)
    · rw [bind_of_ok (before value here)]
      exact ih distinct ((List.mem_cons.mp member).resolve_left fun same => here same.symm)

/-- Only the PID's one channel takes anything from a packet. -/
theorem forM_pushChannel {start : Bool} (sole : Sole pid channel s.registers)
    (later : Sole pid channel t.registers)
    (ran : pushPayload start payload channel s = .ok ⟨⟩ t) :
    filters.forM (pushChannel pid start payload) s = .ok ⟨⟩ t := by
  have others {u : Receiver} (sole : Sole pid channel u.registers) (other : Filter)
      (apart : other ≠ channel) : pushChannel pid start payload other u = .ok ⟨⟩ u := by
    unfold pushChannel
    dsimp only
    rw [sole.unrouted, Bool.or_false, if_neg]
    intro taken
    have ⟨watches, enabled⟩ := Bool.and_eq_true_iff.mp taken
    exact apart (sole.only other watches enabled)
  refine forM_single filters_nodup mem_filters ?_ (others sole) (others later)
  unfold pushChannel
  dsimp only
  rw [sole.watches, sole.enabled, Bool.true_or, Bool.true_and, if_pos rfl]
  exact ran

/-- One packet of a section enters the channel. -/
theorem forM_sectionPacket {first : Bool} {continuity : Byte}
    (sole : Sole pid channel s.registers) (later : Sole pid channel t.registers)
    (idle : s.registers.transportPacket = []) (fits : payload.length ≤ packetRoom first)
    (ran : pushPayload first (packetPayload first payload) channel
      (s.keepPacket (sectionPacket pid first continuity payload)) = .ok ⟨⟩ t) :
    (sectionPacket pid first continuity payload).forM pushByte s = .ok ⟨⟩ (t.keepPacket []) := by
  have sound := @sectionPacket_sound pid first continuity payload
  have control := @sectionPacket_control pid first continuity payload
  have addressed := @sectionPacket_pid pid first continuity payload sole.small
  have start := @sectionPacket_start pid first continuity payload
  have body := @sectionPacket_drop pid first continuity payload
  have length := @sectionPacket_length pid first continuity payload fits
  have split_ := @sectionPacket_eq pid first continuity payload
  generalize sectionPacket pid first continuity payload = packet at *
  have entered : pushTransportPacket packet (s.keepPacket packet) = .ok ⟨⟩ t := by
    have undecoded : (s.keepPacket packet).registers.decoderPIDs.2.2 = false := sole.undecoded
    unfold pushTransportPacket
    dsimp only
    rw [control, addressed, start, undecoded]
    simp only [sound, Bool.false_eq_true, false_and, if_false]
    have plain : ¬((1 : Byte) &&& 2 ≠ 0) := by decide
    rw [if_neg plain, if_neg (by decide), if_neg (by decide), body]
    exact forM_pushChannel sole.keepPacket later ran
  rw [split_] at length entered ⊢
  rw [forM_packet idle length]
  change (pushTransportPacket _ >>= fun _ => modify (keepPacket [])) _ = _
  rw [bind_of_ok entered]
  rfl

theorem packetizeFrom_rest {remaining : List Byte} {continuity : Byte} (more : remaining ≠ []) :
    packetizeFrom pid false remaining continuity =
      sectionPacket pid false continuity (remaining.take 184) ++
        packetizeFrom pid false (remaining.drop 184) (continuity + 1 &&& 0x0f) := by
  conv_lhs => unfold packetizeFrom
  rw [if_neg fun done => more done.2]
  rfl

theorem packetizeSection_eq {continuity : Byte} :
    packetizeSection pid section_ continuity =
      sectionPacket pid true continuity (section_.take 183) ++
        packetizeFrom pid false (section_.drop 183) (continuity + 1 &&& 0x0f) := by
  unfold packetizeSection
  conv_lhs => unfold packetizeFrom
  rw [if_neg fun done => Bool.noConfusion done.1]
  rfl

theorem packetizeFrom_nil {continuity : Byte} : packetizeFrom pid false [] continuity = [] := by
  unfold packetizeFrom
  rw [if_pos ⟨rfl, rfl⟩]

/-- The packets behind the first.  By induction on what they carry: each adds its payload to
what the channel has kept. -/
theorem forM_rest {remaining : List Byte} {continuity : Byte} (sound : Sound section_)
    (sole : Sole pid channel s.registers) (whole : part ++ remaining = section_)
    (started : 3 ≤ part.length) (more : remaining ≠ []) :
    (packetizeFrom pid false remaining continuity).forM pushByte (s.carrying channel part []) =
      .ok ⟨⟩ ((s.afterAccept channel section_).carrying channel [] []) := by
  induction size : remaining.length using Nat.strong_induction_on
    generalizing remaining part continuity with
  | _ size_ ih =>
    have unrouted := sole.unrouted channel
    rw [packetizeFrom_rest more]
    by_cases last : remaining.length ≤ 184
    · have wire := @forM_sectionPacket pid channel (s.carrying channel part [])
        ((s.afterAccept channel section_).carrying channel []
          (sectionPacket pid false continuity remaining)) remaining false continuity
        sole.carrying sole.afterAccept.carrying rfl last (by
          have ran := @continueTransport_section channel section_ part remaining
            (s.carrying channel part (sectionPacket pid false continuity remaining))
            (184 - remaining.length) sound whole started unrouted part_carrying
          rw [keepPart_carrying, admit_carrying] at ran
          exact ran)
      rw [List.take_of_length_le last, List.drop_of_length_le last, packetizeFrom_nil,
        forM_append_of_ok wire]
      rfl
    · have chunk : (remaining.take 184).length = 184 := by
        rw [List.length_take]
        omega
      have rest : remaining.drop 184 ≠ [] := fun nil => by
        have := congrArg List.length nil
        rw [List.length_drop, List.length_nil] at this
        omega
      have whole_ : part ++ remaining.take 184 ++ remaining.drop 184 = section_ := by
        rw [List.append_assoc, List.take_append_drop, whole]
      have unpadded : packetPayload false (remaining.take 184) = remaining.take 184 := by
        unfold packetPayload packetRoom
        rw [chunk]
        simp
      have wire := @forM_sectionPacket pid channel (s.carrying channel part [])
        (s.carrying channel (part ++ remaining.take 184)
          (sectionPacket pid false continuity (remaining.take 184))) (remaining.take 184) false
        continuity sole.carrying sole.carrying rfl (Nat.le_of_eq chunk) (by
          have ran := @continueTransport_part channel section_ part
            (s.carrying channel part (sectionPacket pid false continuity (remaining.take 184)))
            (remaining.take 184) (remaining.drop 184) sound whole_ started rest part_carrying
          rw [keepPart_carrying] at ran
          rw [unpadded]
          exact ran)
      rw [forM_append_of_ok wire, keepPacket_carrying]
      refine ih _ ?_ whole_ ?_ rest rfl
      · rw [List.length_drop]
        omega
      · rw [List.length_append]
        omega

/-- The packets of a section leave what the section leaves on its channel. -/
theorem forM_packetizeSection {continuity : Byte} (sound : Sound section_)
    (sole : Sole pid channel s.registers) (table : byteAt section_ 0 ≠ 0xff)
    (idle : s.registers.transportPacket = [])
    (unfinished : Unfinished (s.registers.transportPart channel)) :
    (packetizeSection pid section_ continuity).forM pushByte s =
      .ok ⟨⟩ ((s.afterAccept channel section_).carrying channel [] []) := by
  have unrouted := sole.unrouted channel
  have sized := sound.sized
  rw [packetizeSection_eq]
  by_cases last : section_.length ≤ 183
  · have wire := @forM_sectionPacket pid channel s
      ((s.afterAccept channel section_).carrying channel []
        (sectionPacket pid true continuity section_)) section_ true continuity
      sole sole.afterAccept.carrying idle last (by
        have ran := @startTransport_section channel section_
          (s.carrying channel [] (sectionPacket pid true continuity section_))
          (183 - section_.length) sound table unrouted
        rw [admit_carrying] at ran
        exact (pushPayload_start unfinished).trans ran)
    rw [List.take_of_length_le last, List.drop_of_length_le last, packetizeFrom_nil,
      forM_append_of_ok wire]
    rfl
  · have chunk : (section_.take 183).length = 183 := by
      rw [List.length_take]
      omega
    have rest : section_.drop 183 ≠ [] := fun nil => by
      have := congrArg List.length nil
      rw [List.length_drop, List.length_nil] at this
      omega
    have whole : section_.take 183 ++ section_.drop 183 = section_ :=
      List.take_append_drop 183 section_
    have unpadded : packetPayload true (section_.take 183) = 0 :: section_.take 183 := by
      unfold packetPayload packetRoom
      rw [chunk]
      simp
    have wire := @forM_sectionPacket pid channel s
      (s.carrying channel (section_.take 183)
        (sectionPacket pid true continuity (section_.take 183))) (section_.take 183) true
      continuity sole sole.carrying idle (Nat.le_of_eq chunk) (by
        have ran := @startTransport_part channel section_ (section_.take 183) (section_.drop 183)
          (s.carrying channel [] (sectionPacket pid true continuity (section_.take 183)))
          sound table whole (by omega) rest
        rw [keepPart_carrying] at ran
        rw [unpadded]
        exact (pushPayload_start unfinished).trans ran)
    rw [forM_append_of_ok wire, keepPacket_carrying]
    exact forM_rest sound sole whole (by omega) rest

variable {continuity : Byte}

theorem push_eq (sole : Sole pid channel s.registers)
    (valid : validateSection section_ = .ok ()) :
    push pid section_ s = .ok ⟨⟩
      (if s.registers.routed channel && !s.registers.matched channel section_ then s
        else s.pushFilter channel section_) := by
  have found : filters.find? (fun filter => s.registers.watches pid filter &&
      s.registers.enabled filter) = some channel := by
    cases search : filters.find? (fun filter => s.registers.watches pid filter &&
        s.registers.enabled filter) with
    | none =>
      have refused := List.find?_eq_none.mp search channel mem_filters
      rw [sole.watches, sole.enabled] at refused
      exact absurd rfl refused
    | some other =>
      have taken := List.find?_some search
      have ⟨watches, enabled⟩ := Bool.and_eq_true_iff.mp taken
      rw [sole.only other watches enabled]
  have small := sole.small
  unfold push
  dsimp only
  rw [if_neg fun large => BitVec.not_lt.mpr small large, valid]
  dsimp only
  rw [found]
  dsimp only
  split <;> rfl

theorem pushTransport_eq (running : s.registers.control140 &&& 1 ≠ 0) (sound : Sound section_)
    (sole : Sole pid channel s.registers) (table : byteAt section_ 0 ≠ 0xff)
    (idle : s.registers.transportPacket = [])
    (unfinished : Unfinished (s.registers.transportPart channel)) :
    pushTransport (packetizeSection pid section_ continuity) s =
      .ok ⟨⟩ ((s.afterAccept channel section_).carrying channel [] []) := by
  unfold pushTransport
  rw [if_neg running]
  exact forM_packetizeSection sound sole table idle unfinished

/-- What a delivered section shows for: the same bytes in the rings, the same write pointers
and the same completion status. -/
structure Agrees (t u : Receiver) : Prop where
  rings : ∀ filter, ∀ i < ringSize,
    t.ram.byteAt (ringAddress filter i) = u.ram.byteAt (ringAddress filter i)
  pointers : t.registers.writePointer = u.registers.writePointer
  status : t.registers.status = u.registers.status

/-- Pushed whole and pushed in packets, the section leaves the same. -/
def RoutesAgree (pid : Half) (section_ : List Byte) (continuity : Byte) (s : Receiver) : Prop :=
  ∃ t u, push pid section_ s = .ok ⟨⟩ t ∧
    pushTransport (packetizeSection pid section_ continuity) s = .ok ⟨⟩ u ∧ Agrees t u

theorem agrees_of_routesAgree {u : Receiver} (agree : s.RoutesAgree pid section_ continuity)
    (whole : push pid section_ s = .ok ⟨⟩ t)
    (packets : pushTransport (packetizeSection pid section_ continuity) s = .ok ⟨⟩ u) :
    Agrees t u := by
  obtain ⟨t', u', whole', packets', agrees⟩ := agree
  cases whole.symm.trans whole'
  cases packets.symm.trans packets'
  exact agrees

theorem agrees_carrying : Agrees s (s.carrying channel part packet) :=
  ⟨fun _ _ _ => rfl, rfl, rfl⟩

/-- **The two ways agree.**  Between packets, a section that is not stuffing does the same
whole and in packets, if its channel is not bound to a unit, a bound unit matches it, or some
unit asks for its table. -/
theorem routes_agree (running : s.registers.control140 &&& 1 ≠ 0)
    (sole : Sole pid channel s.registers) (sound : Sound section_)
    (idle : s.registers.transportPacket = [])
    (unfinished : Unfinished (s.registers.transportPart channel))
    (table : byteAt section_ 0 ≠ 0xff)
    (asked : s.registers.routed channel = true → s.registers.matched channel section_ = false →
      s.registers.tableHasRule section_ = true) :
    s.RoutesAgree pid section_ continuity := by
  refine ⟨_, _, push_eq sole sound.valid, pushTransport_eq running sound sole table idle unfinished,
    ?_⟩
  have same : (if s.registers.routed channel && !s.registers.matched channel section_ then s
      else s.pushFilter channel section_) = s.afterAccept channel section_ := by
    unfold afterAccept
    cases routed : s.registers.routed channel with
    | false =>
      rw [Bool.false_and, Bool.false_and, if_neg Bool.false_ne_true]
      exact (ite_self _).symm
    | true =>
      cases matched : s.registers.matched channel section_ with
      | true => rfl
      | false =>
        rw [asked routed matched]
        rfl
  rw [same]
  exact agrees_carrying

/-- A guest that watches PID `0x14` on channel 22. -/
def tuned : Receiver :=
  [RingAction.guest 0xd8 .word 0x400000, .guest 0x6c .word 0x14014, .guest 0x140 .word 1].foldl
    perform {}

/-- It has bound unit 5, which asks for table `0x70`, to the channel. -/
def narrowed : Receiver :=
  [RingAction.guest 0x148 .word 0x70ff, .guest 0x144 .word 0xc005,
    .guest 0x148 .word 0x400000, .guest 0x144 .word 0xc095].foldl perform tuned

theorem tuned_sole : Sole 0x14 22 tuned.registers where
  watches := by decide
  enabled := by decide
  only := by decide
  unrouted := by decide
  undecoded := by decide

theorem narrowed_sole : Sole 0x14 22 narrowed.registers where
  watches := by decide
  enabled := by decide
  only := by decide
  unrouted := by decide
  undecoded := by decide

theorem routes_agree_narrowed :
    narrowed.RoutesAgree 0x14 [0x70, 0x70, 0x05, 0xc3, 0x50, 0, 0, 0] 0 :=
  routes_agree (by decide) narrowed_sole ⟨rfl, by decide⟩ rfl unfinished_nil (by decide)
    (by decide)

/-- Between packets, a section that its first packet holds and that starts like stuffing is
lost. -/
theorem pushTransport_stuffing (running : s.registers.control140 &&& 1 ≠ 0)
    (sole : Sole pid channel s.registers) (idle : s.registers.transportPacket = [])
    (unfinished : Unfinished (s.registers.transportPart channel))
    (stuffing : byteAt section_ 0 = 0xff) (short : section_.length ≤ 183) :
    pushTransport (packetizeSection pid section_ continuity) s =
      .ok ⟨⟩ (s.carrying channel [] []) := by
  have stuffed : startTransport channel (section_ ++ List.replicate (183 - section_.length) 0xff)
      (s.carrying channel [] (sectionPacket pid true continuity section_)) =
        .ok ⟨⟩ (s.carrying channel [] (sectionPacket pid true continuity section_)) := by
    have start : byteAt (section_ ++ List.replicate (183 - section_.length) 0xff) 0 = 0xff := by
      cases section_ with
      | nil => rfl
      | cons table section_ => exact stuffing
    rw [startTransport, if_pos (.inr start)]
    rfl
  have wire := @forM_sectionPacket pid channel s
    (s.carrying channel [] (sectionPacket pid true continuity section_)) section_ true continuity
    sole sole.carrying idle short ((pushPayload_start unfinished).trans stuffed)
  unfold pushTransport
  rw [if_neg running, packetizeSection_eq, List.take_of_length_le short,
    List.drop_of_length_le short, packetizeFrom_nil, forM_append_of_ok wire]
  rfl

/-- A section that no unit asks for, on a channel with a unit: whole it is dropped, in packets
it is taken.  A section that starts like stuffing: whole it is taken, in packets it is lost. -/
theorem routes_differ :
    (Sole 0x14 22 narrowed.registers ∧ narrowed.registers.control140 &&& 1 ≠ 0 ∧
      Sound [0x71, 0x70, 0x05, 0xc3, 0x50, 0, 0, 0] ∧
      ¬ narrowed.RoutesAgree 0x14 [0x71, 0x70, 0x05, 0xc3, 0x50, 0, 0, 0] 0) ∧
    Sole 0x14 22 tuned.registers ∧ tuned.registers.control140 &&& 1 ≠ 0 ∧
      Sound [0xff, 0x70, 0x05, 0xc3, 0x50, 0, 0, 0] ∧
      ¬ tuned.RoutesAgree 0x14 [0xff, 0x70, 0x05, 0xc3, 0x50, 0, 0, 0] 0 := by
  refine ⟨⟨narrowed_sole, by decide, ⟨rfl, by decide⟩, fun agree => ?_⟩,
    tuned_sole, by decide, ⟨rfl, by decide⟩, fun agree => ?_⟩
  · have agrees := agrees_of_routesAgree agree (push_eq narrowed_sole rfl)
      (pushTransport_eq (by decide) ⟨rfl, by decide⟩ narrowed_sole (by decide) rfl unfinished_nil)
    exact absurd (congrFun agrees.status 2) (by decide)
  · have agrees := agrees_of_routesAgree agree (push_eq tuned_sole rfl)
      (pushTransport_stuffing (by decide) tuned_sole rfl unfinished_nil rfl (by decide))
    exact absurd (congrFun agrees.status 2) (by decide)

end Receiver

end Demux

end GoRetroTv
