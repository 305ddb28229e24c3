import GoRetroTv.Overwrites
import GoRetroTv.SectionRoutes
import GoRetroTv.TransportRefusals

/-!
# Transport input and what it recovers from

The bytes of a packet are kept from one call to the next.  A packet that is refused stays in
the buffer, which is then full for good; every other error leaves the buffer ready for the
next packet, and the input never sees where its chunks end.
-/

namespace GoRetroTv

namespace Demux

open Cpu Memory Multiplex Broadcast Overwrites

namespace Registers

variable {d : Registers} {wire : Irq.Wire}

theorem selectionOk_selected (selected : Byte) (narrow : selected.toNat ≤ 0x7f) :
    selectionOk [((selected >>> 2).setWidth 5).setWidth 32, selected.setWidth 32] = true := by
  revert selected
  decide

theorem Coherent.selectIndirect (coherent : d.Coherent) (value : Word) :
    (d.selectIndirect value).Coherent := by
  have narrow : ((value &&& 0x7f).setWidth 8).toNat ≤ 0x7f := by
    have low : (value &&& 0x7f).toNat ≤ 0x7f := by
      rw [BitVec.toNat_and]
      exact Nat.and_le_right
    rw [BitVec.toNat_setWidth]
    exact (Nat.mod_le _ _).trans low
  have selected := selectionOk_selected _ narrow
  have pointer : (d.indirectData &&& 0x1fffff).toNat ≤ 0x1fffff := by
    rw [BitVec.toNat_and]
    exact Nat.and_le_right
  have pointers (filter other : Filter) : (Function.update d.writePointer filter
      (d.indirectData &&& 0x1fffff) other).toNat ≤ 0x1fffff := by
    by_cases here : other = filter
    · rw [here, Function.update_self]
      exact pointer
    · rw [Function.update_of_ne here]
      exact coherent.pointers other
  unfold Registers.selectIndirect
  dsimp only
  split
  · split
    · split
      · exact { coherent with selected, pointers := pointers _ }
      · exact { coherent with selected, pointers := pointers _ }
    · split
      · exact { coherent with selected }
      · exact { coherent with selected }
  · exact { coherent with selected }

theorem coherent_ite {condition : Prop} [Decidable condition] {first second : Attached}
    (isFirst : first.1.Coherent) (isSecond : second.1.Coherent) :
    (if condition then first else second).1.Coherent := by
  split
  · exact isFirst
  · exact isSecond

theorem Coherent.selectMatch (coherent : d.Coherent) (value : Word) :
    (d.selectMatch value).Coherent := by
  unfold Registers.selectMatch
  dsimp only
  split
  · exact { coherent with }
  · exact { coherent with }

theorem Coherent.write (coherent : d.Coherent) (off : Word) (size : Size) (value : Word) :
    (d.write off size value wire).1.Coherent := by
  refine coherent_ite { coherent with } ?_
  refine coherent_ite { coherent with } ?_
  refine coherent_ite new_coherent ?_
  refine coherent_ite (coherent.selectIndirect value) ?_
  refine coherent_ite { coherent with } ?_
  refine coherent_ite { coherent with } ?_
  refine coherent_ite { coherent with } ?_
  refine coherent_ite { coherent with } ?_
  refine coherent_ite { coherent with } ?_
  refine coherent_ite { coherent with } ?_
  exact coherent_ite (coherent.selectMatch value) coherent

end Registers

namespace Receiver

open Registers

variable {s t : Receiver} {data packet : List Byte} {b : Byte}

/-- The byte is the last of a packet. -/
def Completes (b : Byte) (s : Receiver) : Prop :=
  (s.registers.transportPacket ≠ [] ∨ b = 0x47) ∧
    (s.registers.transportPacket ++ [b]).length = transportPacketSize

/-- No packet that the bytes complete is refused. -/
def Unrefused : List Byte → Receiver → Prop
  | [], _ => True
  | b :: data, s =>
      (Completes b s → ¬s.registers.PacketRefused (s.registers.transportPacket ++ [b])) ∧
        ∀ t, pushByte b s = .ok ⟨⟩ t → Unrefused data t

/-- The same of a call, which does nothing while the packet path is off. -/
def CallUnrefused (data : List Byte) (s : Receiver) : Prop :=
  s.registers.control140 &&& 1 ≠ 0 → Unrefused data s

theorem Settled.coherent (settled : s.Settled)
    (length : s.registers.transportPacket.length < transportPacketSize)
    (sync : s.registers.transportPacket = [] ∨ s.registers.transportPacket.getD 0 0 = 0x47) :
    s.registers.Coherent :=
  { settled with packet := length, sync }

theorem settled_of_coherent (coherent : s.registers.Coherent) : s.Settled :=
  { coherent with packet := show 0 < transportPacketSize by decide, sync := .inl rfl }

/-- The packet that is being collected is no business of its own check. -/
theorem packetRefused_keepPacket {buffer : List Byte} :
    (s.keepPacket buffer).registers.PacketRefused packet ↔ s.registers.PacketRefused packet :=
  Iff.rfl

/-- The switch of the packet path and the burst, which the input leaves alone. -/
structure Burst (d d' : Registers) : Prop where
  control : d'.control140 = d.control140
  scheduled : d'.scheduledTransport = d.scheduledTransport
  cursor : d'.scheduledCursor = d.scheduledCursor
  next : d'.nextProgrammeAt = d.nextProgrammeAt
  period : d'.programmePeriod = d.programmePeriod
  pending : d'.programmeScheduled = d.programmeScheduled

/-- A packet leaves alone the bytes that are collected too. -/
structure Aside (d d' : Registers) : Prop extends Burst d d' where
  packet : d'.transportPacket = d.transportPacket

theorem Burst.refl {d : Registers} : Burst d d :=
  ⟨rfl, rfl, rfl, rfl, rfl, rfl⟩

theorem Burst.trans {d d' d'' : Registers} (first : Burst d d') (second : Burst d' d'') :
    Burst d d'' where
  control := second.control.trans first.control
  scheduled := second.scheduled.trans first.scheduled
  cursor := second.cursor.trans first.cursor
  next := second.next.trans first.next
  period := second.period.trans first.period
  pending := second.pending.trans first.pending

theorem Aside.refl {d : Registers} : Aside d d :=
  ⟨.refl, rfl⟩

theorem aside_carried {channel : Filter} {d : Registers} :
    Carried channel fun s => Aside d s.registers where
  part aside _ := { aside with }
  pushed aside _ := { aside with }
  rom := by
    refine keeps_of_stateOf fun s aside => ?_
    unfold acceptROMTransportSection
    dsimp only
    split
    · split
      · exact aside
      · exact { aside with }
    · exact aside

theorem pushTransportPacket_aside {d : Registers} :
    Keeps (fun s => Aside d s.registers) (pushTransportPacket packet) := by
  refine keeps_of_stateOf fun s aside => ?_
  unfold pushTransportPacket
  dsimp only
  generalize (if byteAt packet 3 >>> 4 &&& 3 &&& 2 ≠ 0 then
    4 + 1 + (byteAt packet 4).toNat else 4) = pos
  split
  · exact aside
  · split
    · exact aside
    · split
      · split
        · exact aside
        · exact { aside with }
      · exact stateOf_of_keeps (.forM fun other => aside_carried.pushChannel) aside

/-- A first byte that is kept is the sync byte. -/
theorem sync_append (coherent : s.registers.Coherent)
    (begun : s.registers.transportPacket ≠ [] ∨ b = 0x47) :
    (s.registers.transportPacket ++ [b]).getD 0 0 = 0x47 := by
  cases kept : s.registers.transportPacket with
  | nil => exact begun.resolve_left fun more => more kept
  | cons first rest =>
    have sync := coherent.sync
    rw [kept] at sync
    exact sync.resolve_left (List.cons_ne_nil _ _)

/-- What a byte does: it is taken, or it is no sync byte where one is due, or it completes a
packet that is refused and stays. -/
theorem pushByte_cases (coherent : s.registers.Coherent) (b : Byte) :
    ((Completes b s → ¬s.registers.PacketRefused (s.registers.transportPacket ++ [b])) ∧
        ∃ t, pushByte b s = .ok ⟨⟩ t ∧ t.registers.Coherent) ∨
      (¬Completes b s ∧ s.registers.transportPacket = [] ∧
        ∃ error, pushByte b s = .error error s) ∨
      (Completes b s ∧ s.registers.PacketRefused (s.registers.transportPacket ++ [b]) ∧
        ∃ error t, pushByte b s = .error error t ∧
          t.registers.transportPacket = s.registers.transportPacket ++ [b]) := by
  unfold pushByte
  dsimp only
  by_cases flushed : s.registers.transportPacket = [] ∧ b = 0
  · rw [if_pos flushed]
    refine .inl ⟨fun completes => ?_, s, rfl, coherent⟩
    have single := completes.2
    rw [flushed.1] at single
    cases single
  · rw [if_neg flushed]
    by_cases astray : s.registers.transportPacket = [] ∧ b ≠ 0x47
    · rw [if_pos astray]
      refine .inr (.inl ⟨fun completes => ?_, astray.1, _, rfl⟩)
      have single := completes.2
      rw [astray.1] at single
      cases single
    · rw [if_neg astray]
      have begun : s.registers.transportPacket ≠ [] ∨ b = 0x47 := by tauto
      have sync := sync_append coherent begun
      have before := coherent.packet
      by_cases more : (s.registers.transportPacket ++ [b]).length ≠ transportPacketSize
      · rw [if_pos more]
        refine .inl ⟨fun completes => absurd completes.2 more, _, rfl, ?_⟩
        refine (settled_of_coherent coherent).keepPacket.coherent ?_ (.inr sync)
        change (s.registers.transportPacket ++ [b]).length < _
        rw [List.length_append, List.length_singleton] at more ⊢
        omega
      · rw [if_neg more]
        have whole := not_ne_iff.mp more
        have completes : Completes b s := ⟨begun, whole⟩
        have settled : (s.keepPacket (s.registers.transportPacket ++ [b])).Settled :=
          (settled_of_coherent coherent).keepPacket
        have keeps := pushTransportPacket_settled ⟨whole, sync⟩ _ settled
        by_cases refused : s.registers.PacketRefused (s.registers.transportPacket ++ [b])
        · obtain ⟨error, t, failed⟩ :=
            pushTransportPacket_fails.mpr (packetRefused_keepPacket.mpr refused)
          have aside := @pushTransportPacket_aside (s.registers.transportPacket ++ [b]) _
            (s.keepPacket (s.registers.transportPacket ++ [b])) .refl
          rw [failed] at aside
          refine .inr (.inr ⟨completes, refused, error, t, ?_, aside.packet⟩)
          change (pushTransportPacket _ >>= fun _ => modify (keepPacket [])) _ = _
          simp only [bind, EStateM.bind, failed]
        · obtain ⟨t, ran⟩ := exists_ok_of_not_fails
            (pushTransportPacket_fails.not.mpr (packetRefused_keepPacket.not.mpr refused))
          rw [ran] at keeps
          refine .inl ⟨fun _ => refused, t.keepPacket [], ?_, ?_⟩
          · change (pushTransportPacket _ >>= fun _ => modify (keepPacket [])) _ = _
            rw [bind_of_ok ran]
            rfl
          · exact keeps.keepPacket.coherent (show 0 < transportPacketSize by decide) (.inl rfl)

/-- Bytes of which no packet is refused: the only error is a missing sync byte, where no packet
is being collected. -/
theorem forM_pushByte_cases (coherent : s.registers.Coherent) (unrefused : Unrefused data s) :
    (∃ t, data.forM pushByte s = .ok ⟨⟩ t ∧ t.registers.Coherent) ∨
      ∃ error t, data.forM pushByte s = .error error t ∧ t.registers.Coherent ∧
        t.registers.transportPacket = [] := by
  induction data generalizing s with
  | nil => exact .inl ⟨s, rfl, coherent⟩
  | cons b data ih =>
    change (∃ t, (pushByte b >>= fun _ => data.forM pushByte) s = .ok ⟨⟩ t ∧ _) ∨
      ∃ error t, (pushByte b >>= fun _ => data.forM pushByte) s = .error error t ∧ _
    rcases pushByte_cases coherent b with ⟨-, t, ran, after⟩ | ⟨-, idle, error, failed⟩ |
      ⟨completes, refused, -⟩
    · rw [bind_of_ok ran]
      exact ih after (unrefused.2 t ran)
    · refine .inr ⟨error, s, ?_, coherent, idle⟩
      simp only [bind, EStateM.bind, failed]
    · exact absurd refused (unrefused.1 completes)

/-- A packet that is refused fills the buffer. -/
theorem unrefused_of_room (coherent : s.registers.Coherent)
    (room : (stateOf (data.forM pushByte s)).registers.transportPacket.length <
      transportPacketSize) : Unrefused data s := by
  induction data generalizing s with
  | nil => trivial
  | cons b data ih =>
    change (stateOf ((pushByte b >>= fun _ => data.forM pushByte) s)).registers.transportPacket.length
      < _ at room
    rcases pushByte_cases coherent b with ⟨taken, t, ran, after⟩ | ⟨incomplete, -, error, failed⟩ |
      ⟨completes, -, error, t, failed, full⟩
    · rw [bind_of_ok ran] at room
      refine ⟨taken, fun u same => ?_⟩
      rw [ran] at same
      cases same
      exact ih after room
    · refine ⟨fun completes => absurd completes incomplete, fun t ran => ?_⟩
      rw [failed] at ran
      cases ran
    · simp only [bind, EStateM.bind, failed] at room
      change t.registers.transportPacket.length < _ at room
      rw [full, completes.2] at room
      exact absurd room (Nat.lt_irrefl _)

theorem pushTransport_cases (coherent : s.registers.Coherent) (unrefused : CallUnrefused data s) :
    (∃ t, pushTransport data s = .ok ⟨⟩ t ∧ t.registers.Coherent) ∨
      ∃ error t, pushTransport data s = .error error t ∧ t.registers.Coherent ∧
        t.registers.transportPacket = [] := by
  unfold pushTransport
  split
  · exact .inl ⟨s, rfl, coherent⟩
  next running => exact forM_pushByte_cases coherent (unrefused running)

/-- **When a call leaves room.**  Fewer bytes than a packet's are kept exactly when no packet
of the call is refused. -/
theorem room_iff (coherent : s.registers.Coherent) :
    (stateOf (pushTransport data s)).registers.transportPacket.length < transportPacketSize ↔
      CallUnrefused data s := by
  constructor
  · intro room running
    unfold pushTransport at room
    rw [if_neg running] at room
    exact unrefused_of_room coherent room
  · intro unrefused
    rcases pushTransport_cases coherent unrefused with ⟨t, ran, after⟩ | ⟨error, t, ran, after, -⟩
    · rw [ran]
      exact after.packet
    · rw [ran]
      exact after.packet

theorem pushTransportPacket_burst {d : Registers} :
    Keeps (fun s => Burst d s.registers) (pushTransportPacket packet) := by
  refine keeps_of_stateOf fun s burst => ?_
  have aside := stateOf_of_keeps (@pushTransportPacket_aside packet s.registers) .refl
  exact burst.trans aside.toBurst

theorem pushByte_burst {d : Registers} : Keeps (fun s => Burst d s.registers) (pushByte b) := by
  refine keeps_of_stateOf fun s burst => ?_
  unfold pushByte
  dsimp only
  split
  · exact burst
  · split
    · exact burst
    · split
      · exact { burst with }
      · refine stateOf_of_keeps (.bind pushTransportPacket_burst fun _ => ?_) { burst with }
        exact .modify fun s burst => { burst with }

theorem forM_pushByte_burst {d : Registers} :
    Keeps (fun s => Burst d s.registers) (data.forM pushByte) :=
  .forM fun _ => pushByte_burst

theorem pushTransport_burst {d : Registers} :
    Keeps (fun s => Burst d s.registers) (pushTransport data) := by
  refine keeps_of_stateOf fun s burst => ?_
  unfold pushTransport
  split
  · exact burst
  · exact stateOf_of_keeps forM_pushByte_burst burst

/-- **Chunks.**  A call of which no byte fails is the calls of its parts. -/
theorem pushTransport_append {first second : List Byte}
    (ran : pushTransport (first ++ second) s = .ok ⟨⟩ t) :
    ∃ u, pushTransport first s = .ok ⟨⟩ u ∧ pushTransport second u = .ok ⟨⟩ t := by
  have off (u : Receiver) (stopped : u.registers.control140 &&& 1 = 0) (data : List Byte) :
      pushTransport data u = .ok ⟨⟩ u := if_pos stopped
  have on (u : Receiver) (running : ¬u.registers.control140 &&& 1 = 0) (data : List Byte) :
      pushTransport data u = data.forM pushByte u := if_neg running
  by_cases stopped : s.registers.control140 &&& 1 = 0
  · rw [off s stopped] at ran
    cases ran
    exact ⟨s, off s stopped _, off s stopped _⟩
  · have sequenced : (first ++ second).forM pushByte =
        first.forM pushByte >>= fun _ => second.forM pushByte := List.forM_append
    rw [on s stopped, sequenced] at ran
    obtain ⟨_, u, early, late⟩ := exists_of_bind_ok ran
    have burst := @forM_pushByte_burst first s.registers s .refl
    rw [early] at burst
    have running : ¬u.registers.control140 &&& 1 = 0 := burst.control ▸ stopped
    exact ⟨u, (on s stopped _).trans early, (on u running _).trans late⟩

/-- A packet has entered, and the next one is due later or there is none. -/
theorem advanceBurst_coherent (coherent : s.registers.Coherent)
    (pending : s.registers.programmeScheduled = true) : s.advanceBurst.registers.Coherent := by
  obtain ⟨period, before⟩ := coherent.due pending
  have fits := coherent.scheduled.fits
  have whole := coherent.scheduled.wholePackets
  have cursor := coherent.cursor
  unfold transportPacketSize maxProgrammeTransport at *
  have moved : (s.registers.scheduledCursor + BitVec.ofNat 32 188).toNat =
      s.registers.scheduledCursor.toNat + 188 := by
    rw [BitVec.toNat_add, BitVec.toNat_ofNat, Nat.mod_eq_of_lt (show 188 < 2 ^ 32 by decide),
      Nat.mod_eq_of_lt (by omega)]
  refine { coherent with cursor := ⟨?_, ?_⟩, due := ?_ }
  · change (s.registers.scheduledCursor + BitVec.ofNat 32 188).toNat ≤ _
    rw [moved]
    change _ ≤ s.registers.scheduledTransport.length
    omega
  · change (s.registers.scheduledCursor + BitVec.ofNat 32 188).toNat % 188 = 0
    rw [moved]
    omega
  · intro later
    have more := (Bool.and_eq_true_iff.mp later).2
    have unended := bne_iff_ne.mp more
    refine ⟨period, ?_⟩
    change (s.registers.scheduledCursor + BitVec.ofNat 32 188).toNat < _
    change (s.registers.scheduledCursor + BitVec.ofNat 32 188).toNat ≠ _ at unended
    rw [moved] at unended ⊢
    change _ < s.registers.scheduledTransport.length
    omega

/-- No packet that the pump admits is refused. -/
def PumpUnrefused (now : DoubleWord) : Nat → Receiver → Prop
  | 0, _ => True
  | packets + 1, s =>
      s.registers.programmeScheduled ∧ s.registers.nextProgrammeAt ≤ now →
        CallUnrefused (nextPacket s.registers) s ∧
          ∀ t, pushTransport (nextPacket s.registers) s = .ok ⟨⟩ t →
            PumpUnrefused now packets t.advanceBurst

theorem pumpFrom_cases {now : DoubleWord} {packets : Nat} (coherent : s.registers.Coherent)
    (unrefused : PumpUnrefused now packets s) :
    (stateOf (pumpFrom now packets s)).registers.Coherent := by
  induction packets generalizing s with
  | zero => exact coherent
  | succ packets ih =>
    unfold pumpFrom
    dsimp only
    by_cases due : s.registers.programmeScheduled ∧ s.registers.nextProgrammeAt ≤ now
    · rw [if_pos due]
      obtain ⟨first, later⟩ := unrefused due
      rcases pushTransport_cases coherent first with ⟨t, ran, after⟩ | ⟨error, t, failed, after, -⟩
      · rw [bind_of_ok ran]
        have burst := @pushTransport_burst (nextPacket s.registers) s.registers s .refl
        rw [ran] at burst
        have pending : t.registers.programmeScheduled = true := burst.pending.trans due.1
        exact ih (advanceBurst_coherent after pending) (later t ran)
      · simp only [bind, EStateM.bind, failed]
        exact after
    · rw [if_neg due]
      exact coherent

/-- What happens to a receiver: what the guest and the host do with it, and what the rest of
the board does to DRAM and to the interrupt line. -/
inductive InputAction where
  | write (off : Word) (size : Size) (value : Word)
  | push (pid : Half) (section_ : List Byte)
  | transport (data : List Byte)
  | schedule (data : List Byte) (first period : DoubleWord)
  | pump (now : DoubleWord)
  | take
  | restore (blob : List Byte)
  | reset
  | board (ram : Ram) (wire : Irq.Wire)

def withRegisters (attached : Attached) (s : Receiver) : Receiver :=
  { s with registers := attached.1, wire := attached.2 }

/-- A failure keeps what was done before it. -/
def performInput (s : Receiver) : InputAction → Receiver
  | .write off size value => s.withRegisters (s.registers.write off size value s.wire)
  | .push pid section_ => stateOf (push pid section_ s)
  | .transport data => stateOf (pushTransport data s)
  | .schedule data first period => stateOf (scheduleTransport data first period s)
  | .pump now => stateOf (pump now s)
  | .take => (takeProgrammeTransport s).2
  | .restore blob =>
      match Registers.restore blob s.wire with
      | .ok attached => s.withRegisters attached
      | .error _ => s
  | .reset => s.withRegisters (Registers.reset s.wire)
  | .board ram wire => { s with ram, wire }

theorem performInput_transport :
    s.performInput (.transport data) = stateOf (pushTransport data s) :=
  rfl

/-- No packet that the action completes is refused. -/
def InputUnrefused (s : Receiver) : InputAction → Prop
  | .transport data => CallUnrefused data s
  | .pump now =>
      PumpUnrefused now (s.registers.scheduledTransport.length / transportPacketSize) s
  | _ => True

theorem pushFilter_coherent {filter : Filter} {section_ : List Byte}
    (coherent : s.registers.Coherent) (valid : validateSection section_ = .ok ()) :
    (s.pushFilter filter section_).registers.Coherent :=
  ((settled_of_coherent coherent).pushFilter (fits_of_valid valid)).coherent coherent.packet
    coherent.sync

theorem push_coherent {pid : Half} {section_ : List Byte} (coherent : s.registers.Coherent) :
    (stateOf (push pid section_ s)).registers.Coherent := by
  unfold push
  dsimp only
  split
  · exact coherent
  · split
    · exact coherent
    next valid =>
      split
      · exact coherent
      · split
        · exact coherent
        · exact pushFilter_coherent coherent valid

theorem schedule_coherent {first period : DoubleWord} (coherent : s.registers.Coherent) :
    (stateOf (scheduleTransport data first period s)).registers.Coherent := by
  unfold scheduleTransport
  dsimp only
  split
  · exact coherent
  split
  · exact coherent
  next ticking =>
    split
    · exact coherent
    next sized =>
      split
      · exact coherent
      next synced =>
        have nonempty : data ≠ [] := fun nil => sized (.inl nil)
        have positive := List.length_pos_iff.mpr nonempty
        have packets : Packets data := by
          refine ⟨decide_eq_true (by omega), ?_⟩
          unfold syncOk
          rw [List.all_eq_true]
          intro i member
          have here := List.find?_eq_none.mp synced i member
          rwa [bne_iff_ne, not_ne_iff, ← beq_iff_eq] at here
        exact { coherent with
          scheduled := packets
          cursor := ⟨Nat.zero_le _, rfl⟩
          due := fun _ => ⟨ticking, positive⟩ }

theorem performInput_coherent {action : InputAction} (coherent : s.registers.Coherent)
    (unrefused : s.InputUnrefused action) : (s.performInput action).registers.Coherent := by
  cases action with
  | write off size value => exact coherent.write off size value
  | push pid section_ => exact push_coherent coherent
  | transport data =>
    rcases pushTransport_cases coherent unrefused with ⟨t, ran, after⟩ | ⟨error, t, ran, after, -⟩
    · change (stateOf (pushTransport data s)).registers.Coherent
      rw [ran]
      exact after
    · change (stateOf (pushTransport data s)).registers.Coherent
      rw [ran]
      exact after
  | schedule data first period => exact schedule_coherent coherent
  | pump now => exact pumpFrom_cases coherent unrefused
  | take => exact { coherent with programme := new_packets }
  | restore blob =>
    unfold performInput
    dsimp only
    split
    next attached accepted =>
      obtain ⟨d, decoded, same⟩ := bind_eq_ok.mp accepted
      cases same
      exact coherent_of_decode decoded
    · exact coherent
  | reset => exact new_coherent
  | board ram wire => exact coherent

/-- What the claims about the packet path say of a receiver. -/
structure Recovers (t : Receiver) : Prop where
  room : t.registers.transportPacket.length < transportPacketSize
  chunks : ∀ first second u, pushTransport (first ++ second) t = .ok ⟨⟩ u →
    ∃ v, pushTransport first t = .ok ⟨⟩ v ∧ pushTransport second v = .ok ⟨⟩ u
  realigned : ∀ data error u, pushTransport data t = .error error u → CallUnrefused data t →
    u.registers.transportPacket = []
  parsed : ∀ data, t.registers.control140 &&& 1 ≠ 0 → data ≠ [] →
    IsPacket (t.registers.transportPacket ++ data) →
    pushTransport data t =
      (pushTransportPacket (t.registers.transportPacket ++ data) *> modify (keepPacket []))
        (t.keepPacket (t.registers.transportPacket ++ data))
  restored : ∃ blob, t.registers.snapshot = .ok blob ∧
    ∀ wire, Registers.restore blob wire = .ok (t.registers.updateLine wire)

/-- Bytes that end a packet are parsed as one. -/
theorem pushTransport_parsed (running : s.registers.control140 &&& 1 ≠ 0) (more : data ≠ [])
    (isPacket : IsPacket (s.registers.transportPacket ++ data)) :
    pushTransport data s =
      (pushTransportPacket (s.registers.transportPacket ++ data) *> modify (keepPacket []))
        (s.keepPacket (s.registers.transportPacket ++ data)) := by
  unfold pushTransport
  rw [if_neg running]
  by_cases idle : s.registers.transportPacket = []
  · rw [idle, List.nil_append] at isPacket ⊢
    cases data with
    | nil => exact absurd rfl more
    | cons first body =>
      have sync : first = 0x47 := isPacket.sync
      rw [sync] at isPacket ⊢
      exact forM_packet idle isPacket.length
  · have length := isPacket.length
    rw [List.length_append] at length
    exact forM_pushByte idle more length

theorem recovers_of_coherent (coherent : s.registers.Coherent) : s.Recovers where
  room := coherent.packet
  chunks _ _ _ ran := pushTransport_append ran
  realigned data error u failed unrefused := by
    rcases pushTransport_cases coherent unrefused with ⟨t, ran, -⟩ | ⟨error', t, same, -, idle⟩
    · rw [ran] at failed
      cases failed
    · rw [failed] at same
      cases same
      exact idle
  parsed _ running more isPacket := pushTransport_parsed running more isPacket
  restored := by
    obtain ⟨blob, taken, accepted⟩ := coherent.decode_snapshot
    refine ⟨blob, taken, fun wire => ?_⟩
    unfold Registers.restore
    rw [accepted]
    rfl

/-- **Recovery.**  In every run of which no packet is refused, the packet path has room for a
packet, takes its input in any chunks, finds the next packet behind an error, and the registers
accept their own snapshot; and a further call leaves room exactly when none of its packets is
refused. -/
theorem transport_recovers (ram : Ram) (wire : Irq.Wire) (actions : List InputAction)
    (unrefused : Runs.Along performInput InputUnrefused { ram, wire } actions) :
    Recovers (actions.foldl performInput { ram, wire }) ∧
      ∀ data, (stateOf (pushTransport data
          (actions.foldl performInput { ram, wire }))).registers.transportPacket.length <
            transportPacketSize ↔
        CallUnrefused data (actions.foldl performInput { ram, wire }) := by
  have coherent : (actions.foldl performInput { ram, wire }).registers.Coherent := by
    refine @Runs.Along.invariant _ _ performInput InputUnrefused _
      (fun s => s.registers.Coherent) actions unrefused new_coherent ?_
    exact fun s action holds guarded => performInput_coherent holds guarded
  exact ⟨recovers_of_coherent coherent, fun data => room_iff coherent⟩

/-- A whole packet, where none is being collected. -/
theorem callUnrefused_packet (coherent : s.registers.Coherent)
    (idle : s.registers.transportPacket = []) (isPacket : IsPacket packet) :
    CallUnrefused packet s ↔
      (s.registers.control140 &&& 1 ≠ 0 → ¬s.registers.PacketRefused packet) := by
  have more : packet ≠ [] := fun nil => by
    have length := isPacket.length
    rw [nil] at length
    cases length
  rw [← room_iff coherent]
  by_cases running : s.registers.control140 &&& 1 = 0
  · refine iff_of_true ?_ fun runs => absurd running runs
    rw [show pushTransport packet s = .ok ⟨⟩ s from if_pos running]
    exact coherent.packet
  · have whole : IsPacket (s.registers.transportPacket ++ packet) := by
      rwa [idle, List.nil_append]
    rw [pushTransport_parsed running more whole, idle, List.nil_append]
    change (stateOf ((pushTransportPacket packet >>= fun _ => modify (keepPacket []))
      (s.keepPacket packet))).registers.transportPacket.length < _ ↔ _
    by_cases refused : s.registers.PacketRefused packet
    · refine iff_of_false ?_ fun accepted => accepted running refused
      obtain ⟨error, t, failed⟩ :=
        pushTransportPacket_fails.mpr (packetRefused_keepPacket.mpr refused)
      have aside := @pushTransportPacket_aside packet _ (s.keepPacket packet) .refl
      rw [failed] at aside
      simp only [bind, EStateM.bind, failed]
      change ¬t.registers.transportPacket.length < _
      rw [aside.packet]
      exact (Nat.lt_irrefl _ <| isPacket.length ▸ ·)
    · refine iff_of_true ?_ fun _ => refused
      obtain ⟨t, ran⟩ := exists_ok_of_not_fails
        (pushTransportPacket_fails.not.mpr (packetRefused_keepPacket.not.mpr refused))
      rw [bind_of_ok ran]
      exact show 0 < transportPacketSize by decide

/-- A packet of no programme, with the adaptation control given. -/
def stuffingPacket (control : Byte) : List Byte :=
  [0x47, 0x1f, 0xff, control] ++ List.replicate 184 0xff

theorem stuffingPacket_isPacket (control : Byte) : IsPacket (stuffingPacket control) where
  length := rfl
  sync := rfl

/-- The packet path is switched on, and a packet enters. -/
def stuffed (control : Byte) : List InputAction :=
  [.write 0x140 .word 1, .transport (stuffingPacket control)]

/-- The receiver with its packet path on. -/
def switchedOn : Receiver :=
  { registers := { control140 := 1 } }

theorem switchedOn_eq : performInput {} (.write 0x140 .word 1) = switchedOn :=
  rfl

theorem switchedOn_coherent : switchedOn.registers.Coherent :=
  { new_coherent with }

theorem stuffed_unrefused : Runs.Along performInput InputUnrefused {} (stuffed 0x10) := by
  refine ⟨trivial, ?_, trivial⟩
  rw [switchedOn_eq]
  refine (callUnrefused_packet switchedOn_coherent rfl (stuffingPacket_isPacket 0x10)).mpr ?_
  rintro - refused
  unfold PacketRefused at refused
  dsimp only at refused
  rw [if_neg (by decide), if_neg (by decide), if_neg (by decide)] at refused
  obtain ⟨channel, watches, -⟩ := refused
  cases watches

theorem transport_recovers_stuffed :
    Runs.Along performInput InputUnrefused {} (stuffed 0x10) ∧
      Recovers ((stuffed 0x10).foldl performInput {}) :=
  ⟨stuffed_unrefused, (transport_recovers {} {} (stuffed 0x10) stuffed_unrefused).1⟩

/-- An adaptation field that is longer than its packet fills the buffer. -/
theorem stuffed_not_recovered :
    ¬∀ (ram : Ram) (wire : Irq.Wire) (actions : List InputAction),
      Recovers (actions.foldl performInput { ram, wire }) := by
  intro recovers
  have room := (recovers {} {} (stuffed 0x30)).room
  rw [stuffed, List.foldl_cons, List.foldl_cons, List.foldl_nil, switchedOn_eq,
    performInput_transport] at room
  have unrefused := (room_iff switchedOn_coherent).mp room
  refine (callUnrefused_packet switchedOn_coherent rfl (stuffingPacket_isPacket 0x30)).mp unrefused
    (by decide) ?_
  unfold PacketRefused
  dsimp only
  rw [if_neg (by decide), if_pos (by decide)]
  trivial

end Receiver

end Demux

end GoRetroTv
