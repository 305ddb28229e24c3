import GoRetroTv.DemuxRegisters
import Mathlib.Algebra.Order.BigOperators.Group.List

/-!
# The demultiplexer's own snapshots

What a restore asks of the registers it has read.  Registers that meet it are written
whole and accepted again, and a restore that accepts a blob leaves registers that meet it.
-/

namespace GoRetroTv

namespace Snapcodec

/-- A field is written for each item, as long as each fits. -/
theorem Writer.foldl_mk {α : Type} {step : Writer → α → Writer} {encode : α → List Byte}
    {items : List α} (name : List Byte) (version : Half)
    (one : ∀ payload, ∀ item ∈ items,
      step ⟨name, version, payload, none⟩ item = ⟨name, version, payload ++ encode item, none⟩)
    (payload : List Byte) :
    items.foldl step ⟨name, version, payload, none⟩ =
      ⟨name, version, payload ++ items.flatMap encode, none⟩ := by
  induction items generalizing payload with
  | nil => rw [List.foldl_nil, List.flatMap_nil, List.append_nil]
  | cons item items ih =>
    rw [List.foldl_cons, one payload item List.mem_cons_self,
      ih fun payload later member => one payload later (List.mem_cons_of_mem _ member),
      List.flatMap_cons, List.append_assoc]

theorem Reads.times {α : Type} {reading : Reading α} {encode : α → List Byte} (values : List α)
    (each : ∀ value ∈ values, Reads reading (encode value) value) :
    Reads (reading.times values.length) (values.flatMap encode) values := by
  induction values with
  | nil => exact .pure []
  | cons value values ih =>
    rw [List.length_cons, List.flatMap_cons]
    refine .bind (each value List.mem_cons_self) ?_
    have rest := ih fun later member => each later (List.mem_cons_of_mem _ member)
    rw [← List.append_nil (values.flatMap encode)]
    exact .bind rest (.pure _)

end Snapcodec

namespace Demux

open Snapcodec Cpu

namespace Registers

/-- Whole packets that wait for the host, or to enter the device. -/
structure Packets (transport : List Byte) : Prop where
  whole : packetsOk transport = true
  sync : syncOk transport = true

/-- What `Restore` asks of the registers. -/
structure Coherent (d : Registers) : Prop where
  selected : selectionOk d.selection = true
  parts : ∀ channel, (d.transportPart channel).length ≤ maxTransportSection
  packet : d.transportPacket.length < transportPacketSize
  sync : d.transportPacket = [] ∨ d.transportPacket.getD 0 0 = 0x47
  programme : Packets d.programmeTransport
  scheduled : Packets d.scheduledTransport
  cursor : d.scheduledCursor.toNat ≤ d.scheduledTransport.length ∧
    d.scheduledCursor.toNat % transportPacketSize = 0
  due : d.programmeScheduled = true → d.programmePeriod ≠ 0 ∧
    d.scheduledCursor.toNat < d.scheduledTransport.length
  pointers : ∀ filter, (d.writePointer filter).toNat ≤ 0x1fffff

theorem new_packets : Packets [] where
  whole := rfl
  sync := rfl

theorem new_coherent : Coherent {} where
  selected := rfl
  parts _ := Nat.zero_le _
  packet := by decide
  sync := .inl rfl
  programme := new_packets
  scheduled := new_packets
  cursor := ⟨Nat.le_refl _, rfl⟩
  due scheduled := by cases scheduled
  pointers _ := Nat.zero_le _

theorem readsWhole_matchUnit (unit : Nibble → Word) :
    Reads readMatchUnit (encodeWords (cells unit)) unit := by
  rw [← List.append_nil (encodeWords (cells unit))]
  refine .bind (.words (cells_fit (by decide) unit)) ?_
  rw [cells_length, ofCells_cells]
  exact .pure unit

theorem readsWhole_programmePIDs (pids : BitVec 1 → Word) :
    Reads (readProgrammePIDs snapshotVersion) (encodeWords (cells pids)) (cells pids) := by
  rw [← List.append_nil (encodeWords (cells pids))]
  refine .bind (.words (cells_fit (by decide) pids)) ?_
  rw [cells_length]
  exact .pure _

theorem readsWhole_burst {d : Registers} (fits : d.scheduledTransport.length < wordLimit) :
    Reads (readBurst snapshotVersion) (encodeBurst d) {
      transport := d.scheduledTransport
      cursor := d.scheduledCursor
      next := d.nextProgrammeAt
      period := d.programmePeriod
      scheduled := d.programmeScheduled } := by
  unfold encodeBurst
  rw [← List.append_nil (encodeBool d.programmeScheduled)]
  refine .bind (.bytes fits) ?_
  refine .bind (.uint32 _) ?_
  refine .bind (.uint64 _) ?_
  refine .bind (.uint64 _) ?_
  exact .bind (.bool _) (.pure _)

theorem flatMap_length_le {α : Type} {items : List α} {encode : α → List Byte} {bound : Nat}
    (each : ∀ item ∈ items, (encode item).length ≤ bound) :
    (items.flatMap encode).length ≤ items.length * bound := by
  rw [List.length_flatMap]
  have sum := List.sum_le_card_nsmul (items.map fun item => (encode item).length) bound
    fun length member => by
      obtain ⟨item, isItem, rfl⟩ := List.mem_map.mp member
      exact each item isItem
  rwa [List.length_map, Nat.nsmul_eq_mul] at sum

theorem Packets.fits {transport : List Byte} (packets : Packets transport) :
    transport.length ≤ maxProgrammeTransport :=
  (of_decide_eq_true packets.whole).1

theorem Packets.wholePackets {transport : List Byte} (packets : Packets transport) :
    transport.length % transportPacketSize = 0 :=
  (of_decide_eq_true packets.whole).2

theorem mem_cells {width : Nat} {α : Type} {array : BitVec width → α} {value : α}
    (member : value ∈ cells array) : ∃ address, array address = value := by
  rw [cells, List.mem_ofFn] at member
  obtain ⟨i, here⟩ := member
  exact ⟨_, here⟩

namespace Coherent

variable {d : Registers}

theorem part_length (coherent : d.Coherent) {part : List Byte}
    (member : part ∈ cells d.transportPart) : part.length ≤ maxTransportSection := by
  obtain ⟨channel, rfl⟩ := mem_cells member
  exact coherent.parts channel

theorem encode_length_lt (coherent : d.Coherent) : d.encodeRegisters.length < 2 ^ 26 := by
  have programme := coherent.programme.fits
  have scheduled := coherent.scheduled.fits
  have packet := coherent.packet
  have written : ((cells d.pidWritten).flatMap encodeBool).length ≤
      (cells d.pidWritten).length * 1 :=
    flatMap_length_le fun value _ => (encodeBool_length value).le
  have units : ((cells d.matchWords).flatMap fun unit => encodeWords (cells unit)).length ≤
      (cells d.matchWords).length * 68 :=
    flatMap_length_le fun unit _ => by
      rw [encodeWords_length, cells_length]
      decide
  have parts : ((cells d.transportPart).flatMap encodeBytes).length ≤
      (cells d.transportPart).length * (4 + maxTransportSection) :=
    flatMap_length_le fun part member => by
      rw [encodeBytes_length]
      have := coherent.part_length member
      omega
  rw [cells_length] at written units parts
  simp only [encodeRegisters, encodeBurst, List.length_append, encodeWords_length,
    encodeBytes_length, cells_length, bigEndian_length, encodeBool_length, selection, matchState,
    List.length_cons, List.length_nil]
  unfold maxProgrammeTransport transportPacketSize maxTransportSection at *
  omega

theorem encode_fits (coherent : d.Coherent) : d.encodeRegisters.length < wordLimit :=
  coherent.encode_length_lt.trans (by decide)

/-- A snapshot of such registers is written whole. -/
theorem snapshot_eq (coherent : d.Coherent) :
    d.snapshot =
      .ok (Writer.frame (ascii "emma-demux") snapshotVersion d.encodeRegisters) := by
  have fits := coherent.encode_fits
  have programme : d.programmeTransport.length < wordLimit :=
    Nat.lt_of_le_of_lt coherent.programme.fits (by decide)
  have scheduled : d.scheduledTransport.length < wordLimit :=
    Nat.lt_of_le_of_lt coherent.scheduled.fits (by decide)
  have packet : d.transportPacket.length < wordLimit :=
    Nat.lt_trans coherent.packet (by decide)
  have selected : d.selection.length < wordLimit := show 2 < wordLimit by decide
  have matching : d.matchState.length < wordLimit := show 3 < wordLimit by decide
  have control : [d.control140, d.indirectData].length < wordLimit := show 2 < wordLimit by decide
  unfold snapshot
  rw [newWriter_eq snapshotVersion (show ascii "emma-demux" ≠ [] by decide) (by decide),
    Writer.words_mk _ _ _ (cells_fit (by decide) _),
    Writer.words_mk _ _ _ (cells_fit (by decide) _),
    Writer.words_mk _ _ _ selected,
    Writer.words_mk _ _ _ (cells_fit (by decide) _),
    Writer.words_mk _ _ _ (cells_fit (by decide) _),
    Writer.foldl_mk _ _ (fun payload value _ => Writer.bool_mk _ _ payload value),
    Writer.words_mk _ _ _ (cells_fit (by decide) _),
    Writer.words_mk _ _ _ matching,
    Writer.foldl_mk _ _ (fun payload unit _ =>
      Writer.words_mk _ _ payload (cells_fit (by decide) unit)),
    Writer.words_mk _ _ _ control,
    Writer.words_mk _ _ _ (cells_fit (by decide) _),
    Writer.foldl_mk _ _ (fun payload part member => Writer.bytes_mk _ _ payload
      (Nat.lt_of_le_of_lt (coherent.part_length member) (by decide))),
    Writer.bytes_mk _ _ _ packet, Writer.bytes_mk _ _ _ programme,
    Writer.bytes_mk _ _ _ scheduled, Writer.uint32_mk, Writer.uint64_mk, Writer.uint64_mk,
    Writer.bool_mk]
  simp only [List.nil_append, List.append_assoc]
  exact Writer.blob_mk _ _ _ (by decide) fits

/-- **An own snapshot is accepted.**  Every register comes back. -/
theorem decode_snapshot (coherent : d.Coherent) :
    ∃ blob, d.snapshot = .ok blob ∧ decode blob = .ok d := by
  refine ⟨_, coherent.snapshot_eq, ?_⟩
  refine restoringVersion_frame (by decide) coherent.encode_fits (by decide) (by decide) ?_
  have programme : d.programmeTransport.length < wordLimit :=
    Nat.lt_of_le_of_lt coherent.programme.fits (by decide)
  have scheduled : d.scheduledTransport.length < wordLimit :=
    Nat.lt_of_le_of_lt coherent.scheduled.fits (by decide)
  have packet : d.transportPacket.length < wordLimit :=
    Nat.lt_trans coherent.packet (by decide)
  have bools := Reads.times (cells d.pidWritten) fun value _ => Reads.bool value
  have units := Reads.times (cells d.matchWords) fun unit _ => readsWhole_matchUnit unit
  have parts := Reads.times (cells d.transportPart) fun part member =>
    Reads.bytes (Nat.lt_of_le_of_lt (coherent.part_length member) (by decide))
  simp only [cells_length, Nat.reducePow] at bools units parts
  unfold readSnapshot encodeRegisters
  apply Parses.bind (.words (cells_fit (by decide) _))
  apply Parses.bind (.words (cells_fit (by decide) _))
  apply Parses.bind (.words (show d.selection.length < wordLimit from show 2 < wordLimit by decide))
  apply Parses.bind (.words (cells_fit (by decide) _))
  apply Parses.bind (.words (cells_fit (by decide) _))
  apply Parses.bind bools
  apply Parses.bind (readsWhole_programmePIDs _)
  apply Parses.bind
    (.words (show d.matchState.length < wordLimit from show 3 < wordLimit by decide))
  apply Parses.bind units
  apply Parses.bind (.words (show [d.control140, d.indirectData].length < wordLimit
    from show 2 < wordLimit by decide))
  apply Parses.bind (.words (cells_fit (by decide) _))
  apply Parses.bind parts
  apply Parses.bind (.bytes packet)
  rw [if_pos (show (7 : Half) ≤ snapshotVersion by decide)]
  apply Parses.bind (.bytes programme)
  apply Parses.bind_last (readsWhole_burst scheduled)
  apply Parses.wrapDone
  have unit : (d.matchState.getD 1 0).toNat < 16 := by
    change (d.matchUnit.setWidth 32).toNat < 16
    rw [BitVec.toNat_setWidth_of_le (by decide)]
    exact d.matchUnit.isLt
  have index : (d.matchState.getD 2 0).toNat < 16 := by
    change (d.matchIndex.setWidth 32).toNat < 16
    rw [BitVec.toNat_setWidth_of_le (by decide)]
    exact d.matchIndex.isLt
  have matching : matchStateOk d.matchState = true := decide_eq_true ⟨rfl, unit, index⟩
  apply Parses.require
  · simp only [cells_length, coherent.selected, matching, Bool.and_true]
    rfl
  apply Parses.require
  · rw [List.all_eq_true]
    exact fun part member => decide_eq_true (coherent.part_length member)
  apply Parses.require (decide_eq_true ⟨coherent.packet, coherent.sync⟩)
  apply Parses.require coherent.programme.whole
  apply Parses.require coherent.programme.sync
  apply Parses.require
  · rw [coherent.scheduled.whole, Bool.true_and]
    exact decide_eq_true coherent.cursor
  apply Parses.require coherent.scheduled.sync
  apply Parses.require
  · by_cases pending : d.programmeScheduled = true
    · obtain ⟨period, before⟩ := coherent.due pending
      have nonempty : d.scheduledTransport ≠ [] := by
        rintro nil
        rw [nil] at before
        cases before
      rw [Bool.not_eq_true', pending, Bool.true_and, decide_eq_false_iff_not]
      rintro (never | empty | past)
      · exact period never
      · exact nonempty empty
      · exact Nat.not_lt.mpr past before
    · rw [Bool.not_eq_true] at pending
      rw [pending, Bool.false_and]
      rfl
  apply Parses.require
  · rw [List.all_eq_true]
    intro pointer member
    obtain ⟨filter, rfl⟩ := mem_cells member
    exact decide_eq_true (coherent.pointers filter)
  have filter : (d.selection.getD 0 0).setWidth 5 = d.selectedFilter :=
    setWidth_word (by decide) _
  have indirect : (d.selection.getD 1 0).setWidth 8 = d.selectedIndirect :=
    setWidth_word (by decide) _
  have unit' : (d.matchState.getD 1 0).setWidth 4 = d.matchUnit :=
    setWidth_word (by decide) _
  have index' : (d.matchState.getD 2 0).setWidth 4 = d.matchIndex :=
    setWidth_word (by decide) _
  simp only [ofCells_cells, filter, indirect, unit', index']
  exact Parses.pure [] d

end Coherent

theorem getD_of_all {α : Type} {list : List α} {absent : α} {check : α → Bool} (i : Nat)
    (all : list.all check = true) (default : check absent = true) :
    check (list.getD i absent) = true := by
  rw [List.getD_eq_getElem?_getD]
  cases here : list[i]? with
  | none => exact default
  | some value => exact List.all_eq_true.mp all value (List.mem_of_getElem? here)

theorem setWidth_narrow {width : Nat} {word : Word} (small : word.toNat < 2 ^ width) :
    (word.setWidth width).setWidth 32 = word := by
  apply BitVec.eq_of_toNat_eq
  rw [BitVec.toNat_setWidth, BitVec.toNat_setWidth, Nat.mod_eq_of_lt small,
    Nat.mod_eq_of_lt word.isLt]

theorem selectionOk_kept {selected : List Word} (ok : selectionOk selected = true) :
    selectionOk [((selected.getD 0 0).setWidth 5).setWidth 32,
      ((selected.getD 1 0).setWidth 8).setWidth 32] = true := by
  obtain ⟨_, filter, indirect, same⟩ := of_decide_eq_true ok
  rw [setWidth_narrow filter, setWidth_narrow (Nat.lt_of_le_of_lt indirect (by decide))]
  exact decide_eq_true ⟨rfl, filter, indirect, same⟩

/-- Registers that a restore has accepted. -/
theorem coherent_of_decode {blob : List Byte} {d : Registers} (accepted : decode blob = .ok d) :
    d.Coherent := by
  obtain ⟨opened, last, -, ran⟩ := restoringVersion_ok accepted
  unfold readSnapshot at ran
  obtain ⟨status, _, -, ran⟩ := bind_ok ran
  obtain ⟨enable, _, -, ran⟩ := bind_ok ran
  obtain ⟨selected, _, -, ran⟩ := bind_ok ran
  obtain ⟨pointers, _, -, ran⟩ := bind_ok ran
  obtain ⟨channels, _, -, ran⟩ := bind_ok ran
  obtain ⟨written, _, -, ran⟩ := bind_ok ran
  obtain ⟨programmePIDs, _, -, ran⟩ := bind_ok ran
  obtain ⟨matchState, _, -, ran⟩ := bind_ok ran
  obtain ⟨units, _, -, ran⟩ := bind_ok ran
  obtain ⟨transportState, _, -, ran⟩ := bind_ok ran
  obtain ⟨indirect, _, -, ran⟩ := bind_ok ran
  obtain ⟨parts, _, -, ran⟩ := bind_ok ran
  obtain ⟨packet, _, -, ran⟩ := bind_ok ran
  dsimp only at ran
  split at ran
  -- version 7 is the first that has packets for the host
  all_goals
    obtain ⟨programmeTransport, _, -, ran⟩ := bind_ok ran
    obtain ⟨burst, _, -, ran⟩ := bind_ok ran
    obtain ⟨_, _, -, ran⟩ := bind_ok ran
    obtain ⟨_, _, counts, ran⟩ := bind_ok ran
    obtain ⟨_, _, partsFit, ran⟩ := bind_ok ran
    obtain ⟨_, _, packetFits, ran⟩ := bind_ok ran
    obtain ⟨_, _, programmeWhole, ran⟩ := bind_ok ran
    obtain ⟨_, _, programmeSync, ran⟩ := bind_ok ran
    obtain ⟨_, _, scheduledWhole, ran⟩ := bind_ok ran
    obtain ⟨_, _, scheduledSync, ran⟩ := bind_ok ran
    obtain ⟨_, _, due, ran⟩ := bind_ok ran
    obtain ⟨_, _, pointersFit, ran⟩ := bind_ok ran
    cases ran
    have counts := require_ok counts
    have packetFits := of_decide_eq_true (require_ok packetFits)
    have scheduledWhole := Bool.and_eq_true_iff.mp (require_ok scheduledWhole)
    have due := require_ok due
    simp only [Bool.and_eq_true] at counts
    exact {
      selected := selectionOk_kept counts.1.1.1.2
      parts := fun channel =>
        of_decide_eq_true (@getD_of_all _ parts []
          (fun part => decide (part.length ≤ maxTransportSection)) channel.toNat
          (require_ok partsFit) rfl)
      packet := packetFits.1
      sync := packetFits.2
      programme := ⟨require_ok programmeWhole, require_ok programmeSync⟩
      scheduled := ⟨scheduledWhole.1, require_ok scheduledSync⟩
      cursor := of_decide_eq_true scheduledWhole.2
      due := by
        intro pending
        dsimp only at pending ⊢
        rw [pending, Bool.true_and, Bool.not_eq_true', decide_eq_false_iff_not] at due
        exact ⟨fun never => due (.inl never), Nat.not_le.mp fun past => due (.inr (.inr past))⟩
      pointers := fun filter =>
        of_decide_eq_true (@getD_of_all _ pointers 0
          (fun pointer => decide (pointer.toNat ≤ 0x1fffff)) filter.toNat
          (require_ok pointersFit) rfl) }

end Registers

end Demux

end GoRetroTv
