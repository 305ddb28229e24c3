import GoRetroTv.InstructionClockRestore

/-!
# The clock's snapshot, read back

What `Restore` decodes from a blob that `Snapshot` wrote, if it accepts it: the
live events in registration order, with the handlers of the restoring clock.
-/

namespace GoRetroTv

namespace Clock

open Snapcodec

variable {H : Type}

def encodeEvent (ev : Event H) : List Byte :=
  bigEndian 8 (BitVec.ofNat 64 ev.id).toNat ++
    (encodeBytes ev.name ++
      (bigEndian 8 (BitVec.ofNat 64 ev.due).toNat ++
        (bigEndian 8 (BitVec.ofNat 64 ev.period).toNat ++
          bigEndian 8 (BitVec.ofNat 64 ev.seq).toNat)))

def encodeClock (c : Clock H) : List Byte :=
  bigEndian 8 (BitVec.ofNat 64 c.icount).toNat ++
    (bigEndian 8 (BitVec.ofNat 64 c.nextID).toNat ++
      (bigEndian 8 (BitVec.ofNat 64 c.nextSeq).toNat ++
        (bigEndian 4 (BitVec.ofNat 32 c.liveEvents.length).toNat ++
          c.liveEvents.flatMap encodeEvent)))

theorem writeEvent_failed {w : Writer} (failed : w.err.isSome) (ev : Event H) :
    writeEvent ev w = w := by
  simp only [writeEvent]
  rw [Writer.count_failed failed, Writer.string_failed failed, Writer.count_failed failed,
    Writer.count_failed failed, Writer.count_failed failed]

theorem foldl_writeEvent_failed {w : Writer} (failed : w.err.isSome) (events : List (Event H)) :
    events.foldl (fun w ev => writeEvent ev w) w = w := by
  induction events with
  | nil => rfl
  | cons ev events ih => rw [List.foldl_cons, writeEvent_failed failed, ih]

theorem writeEvent_mk {ev : Event H} (fits : ev.name.length < wordLimit) (name : List Byte)
    (version : Half) (payload : List Byte) :
    writeEvent ev ⟨name, version, payload, none⟩ =
      ⟨name, version, payload ++ encodeEvent ev, none⟩ := by
  simp only [writeEvent, Writer.count_mk, Writer.string_mk _ _ _ fits, encodeEvent,
    List.append_assoc]

/-- A name too long for its field stops the snapshot. -/
theorem writeEvent_too_long {ev : Event H} (tooLong : ¬ ev.name.length < wordLimit)
    (name : List Byte) (version : Half) (payload : List Byte) :
    (writeEvent ev ⟨name, version, payload, none⟩).err.isSome := by
  have failed := Writer.string_too_long name version
    (payload ++ bigEndian 8 (BitVec.ofNat 64 ev.id).toNat) tooLong
  simp only [writeEvent, Writer.count_mk]
  rw [Writer.count_failed failed, Writer.count_failed failed, Writer.count_failed failed]
  exact failed

theorem foldl_writeEvent_ok {events : List (Event H)} {name : List Byte} {version : Half}
    {payload blob : List Byte}
    (written : (events.foldl (fun w ev => writeEvent ev w)
      (Writer.mk name version payload none)).blob = .ok blob) :
    (∀ ev ∈ events, ev.name.length < wordLimit) ∧
      events.foldl (fun w ev => writeEvent ev w) (Writer.mk name version payload none) =
        ⟨name, version, payload ++ events.flatMap encodeEvent, none⟩ := by
  induction events generalizing payload with
  | nil => simp
  | cons ev events ih =>
      rw [List.foldl_cons] at written ⊢
      by_cases fits : ev.name.length < wordLimit
      · rw [writeEvent_mk fits] at written ⊢
        obtain ⟨names, folded⟩ := ih written
        refine ⟨?_, by rw [folded, List.flatMap_cons, List.append_assoc]⟩
        intro other member
        rcases List.mem_cons.mp member with rfl | later
        · exact fits
        · exact names other later
      · have failed := writeEvent_too_long fits name version payload
        rw [foldl_writeEvent_failed failed] at written
        exact absurd written (Writer.blob_failed failed blob)

/-- What a successful snapshot wrote. -/
theorem snapshot_ok {c : Clock H} {blob : List Byte} (taken : c.snapshot = .ok blob) :
    blob = Writer.frame snapshotName snapshotVersion c.encodeClock ∧
      c.encodeClock.length < wordLimit ∧ c.liveEvents.length < wordLimit ∧
      ∀ ev ∈ c.liveEvents, ev.name.length < wordLimit := by
  simp only [snapshot] at taken
  split at taken
  · cases taken
  next countFits =>
    split at taken
    · cases taken
    next =>
      have fresh : newWriter snapshotName snapshotVersion =
          ⟨snapshotName, snapshotVersion, [], none⟩ := by decide
      simp only [fresh, Writer.count_mk, Writer.uint32_mk] at taken
      obtain ⟨names, folded⟩ := foldl_writeEvent_ok taken
      rw [folded] at taken
      obtain ⟨-, payloadFits, isFrame⟩ := Writer.eq_frame_of_blob taken
      have payload : [] ++ bigEndian 8 (BitVec.ofNat 64 c.icount).toNat ++
          bigEndian 8 (BitVec.ofNat 64 c.nextID).toNat ++
          bigEndian 8 (BitVec.ofNat 64 c.nextSeq).toNat ++
          bigEndian 4 (BitVec.ofNat 32 c.liveEvents.length).toNat ++
          c.liveEvents.flatMap encodeEvent = c.encodeClock := by
        simp only [encodeClock, List.nil_append, List.append_assoc]
      rw [payload] at payloadFits isFrame
      refine ⟨isFrame, payloadFits, ?_, names⟩
      simp only [wordLimit] at countFits ⊢
      omega

/-- An event as the restoring clock builds it. -/
def rebuild (handlers : List Byte → Option H) (ev : Event H) : Event H :=
  { ev with fn := (handlers ev.name).getD ev.fn, index := some 0 }

theorem readEvents_accepted (icount nextID nextSeq : Nat) (handlers : List Byte → Option H)
    {events : List (Event H)} (read : List (Event H))
    (names : ∀ ev ∈ events, ev.name.length < wordLimit)
    (numbers : ∀ ev ∈ events,
      ev.id < countLimit ∧ ev.due < countLimit ∧ ev.period < countLimit ∧ ev.seq < countLimit) :
    ReadsIfAccepted (readEvents icount nextID nextSeq handlers events.length read)
      (events.flatMap encodeEvent) (read ++ events.map (rebuild handlers)) := by
  induction events generalizing read with
  | nil =>
      rw [List.map_nil, List.append_nil]
      exact .pure read
  | cons ev events ih =>
      obtain ⟨idFits, dueFits, periodFits, seqFits⟩ := numbers ev (by simp)
      rw [List.length_cons, readEvents, List.flatMap_cons, encodeEvent]
      simp only [List.append_assoc]
      refine .bind (.of_reads (.count idFits)) ?_
      refine .bind (.of_reads (.string (names ev (by simp)))) ?_
      refine .bind (.of_reads (.count dueFits)) ?_
      refine .bind (.of_reads (.count periodFits)) ?_
      refine .bind (.of_reads (.count seqFits)) ?_
      refine .bind_check (.wrap .check) ?_
      refine .bind_check (.require _ _) ?_
      refine .bind_check (.require _ _) ?_
      refine .bind_check (.require _ _) ?_
      refine .bind_check (.require _ _) ?_
      refine .bind_check (.require _ _) ?_
      cases handler : handlers ev.name with
      | none => exact .throw _
      | some fn =>
          have rest := ih (read ++ [rebuild handlers ev])
            (fun other member => names other (List.mem_cons_of_mem _ member))
            (fun other member => numbers other (List.mem_cons_of_mem _ member))
          rw [List.append_assoc] at rest
          simpa [rebuild, handler] using rest

/-- Every event a restore accepts is due after its instruction count, at one that
fits a `uint64`. -/
theorem readEvents_due {icount nextID nextSeq : Nat} {handlers : List Byte → Option H}
    {count : Nat} {read events : List (Event H)} {r last : Reader}
    (readDue : ∀ ev ∈ read, icount < ev.due ∧ ev.due < countLimit)
    (succeeded : readEvents icount nextID nextSeq handlers count read r = .ok events last) :
    ∀ ev ∈ events, icount < ev.due ∧ ev.due < countLimit := by
  induction count generalizing read r with
  | zero =>
      obtain ⟨rfl, -⟩ := EStateM.Result.ok.inj succeeded
      exact readDue
  | succ count ih =>
      rw [readEvents] at succeeded
      obtain ⟨id, _, _, succeeded⟩ := bind_ok succeeded
      obtain ⟨name, _, _, succeeded⟩ := bind_ok succeeded
      obtain ⟨due, _, readsDue, succeeded⟩ := bind_ok succeeded
      obtain ⟨period, _, _, succeeded⟩ := bind_ok succeeded
      obtain ⟨seq, _, _, succeeded⟩ := bind_ok succeeded
      obtain ⟨_, _, _, succeeded⟩ := bind_ok succeeded
      obtain ⟨_, _, _, succeeded⟩ := bind_ok succeeded
      obtain ⟨_, _, _, succeeded⟩ := bind_ok succeeded
      obtain ⟨_, _, _, succeeded⟩ := bind_ok succeeded
      obtain ⟨_, _, later, succeeded⟩ := bind_ok succeeded
      obtain ⟨_, _, _, succeeded⟩ := bind_ok succeeded
      cases handler : handlers name with
      | none =>
          rw [handler] at succeeded
          cases succeeded
      | some fn =>
          rw [handler] at succeeded
          refine ih ?_ succeeded
          intro ev member
          rcases List.mem_append.mp member with earlier | new
          · exact readDue ev earlier
          · rw [List.mem_singleton] at new
            rw [new]
            exact ⟨by simpa using require_ok later, count_lt readsDue⟩

/-- An accepted `Restore` installs what it has decoded, all of it due later. -/
theorem restore_installed {d d' : Clock H} {handlers : List Byte → Option H} {blob : List Byte}
    (restored : d.restore blob handlers = .ok d') :
    ∃ decoded, restoring blob snapshotName snapshotVersion snapshotVersion "clock: restore: "
        (readSnapshot blob.length handlers) = .ok decoded ∧
      d' = (d.install decoded).refreshNextDue ∧
        decoded.icount < countLimit ∧
          ∀ ev ∈ decoded.events, decoded.icount < ev.due ∧ ev.due < countLimit := by
  unfold restore at restored
  cases decoding : restoring blob snapshotName snapshotVersion snapshotVersion "clock: restore: "
      (readSnapshot blob.length handlers) with
  | error error => rw [decoding] at restored; cases restored
  | ok decoded =>
      rw [decoding] at restored
      refine ⟨decoded, rfl, (Except.ok.inj restored).symm, ?_⟩
      obtain ⟨r, last, ran⟩ := restoring_ok decoding
      rw [readSnapshot] at ran
      obtain ⟨icount, _, readsIcount, ran⟩ := bind_ok ran
      obtain ⟨nextID, _, _, ran⟩ := bind_ok ran
      obtain ⟨nextSeq, _, _, ran⟩ := bind_ok ran
      obtain ⟨count, _, _, ran⟩ := bind_ok ran
      obtain ⟨_, _, _, ran⟩ := bind_ok ran
      obtain ⟨_, _, _, ran⟩ := bind_ok ran
      obtain ⟨events, _, readAll, ran⟩ := bind_ok ran
      obtain ⟨_, _, _, ran⟩ := bind_ok ran
      obtain ⟨rfl, -⟩ := EStateM.Result.ok.inj ran
      exact ⟨count_lt readsIcount, readEvents_due (by simp) readAll⟩

/-- What an accepted `Restore` of a snapshot installs. -/
theorem restore_of_snapshot {c d d' : Clock H} {handlers : List Byte → Option H}
    {blob : List Byte} (taken : c.snapshot = .ok blob)
    (icountFits : c.icount < countLimit) (nextIDFits : c.nextID < countLimit)
    (nextSeqFits : c.nextSeq < countLimit)
    (numbers : ∀ ev ∈ c.liveEvents,
      ev.id < countLimit ∧ ev.due < countLimit ∧ ev.period < countLimit ∧ ev.seq < countLimit)
    (restored : d.restore blob handlers = .ok d') :
    d' = (d.install {
        icount := c.icount
        nextID := c.nextID
        nextSeq := c.nextSeq
        events := c.liveEvents.map (rebuild handlers) }).refreshNextDue ∧
      ∀ ev ∈ c.liveEvents, c.icount < ev.due := by
  obtain ⟨isFrame, payloadFits, countFits, names⟩ := snapshot_ok taken
  have countEq := toNat_ofNat_of_lt_wordLimit countFits
  have reads : ReadsIfAccepted (readSnapshot blob.length handlers) c.encodeClock {
      icount := c.icount
      nextID := c.nextID
      nextSeq := c.nextSeq
      events := c.liveEvents.map (rebuild handlers) } := by
    rw [readSnapshot, encodeClock]
    refine .bind (.of_reads (.count icountFits)) ?_
    refine .bind (.of_reads (.count nextIDFits)) ?_
    refine .bind (.of_reads (.count nextSeqFits)) ?_
    refine .bind (.of_reads (.uint32 _)) ?_
    refine .bind_check (.wrap .check) ?_
    refine .bind_check (.require _ _) ?_
    rw [countEq]
    have events := readEvents_accepted c.icount c.nextID c.nextSeq handlers []
      names numbers
    refine .bind_last events ?_
    exact .bind_check (.wrap .done) (.pure _)
  obtain ⟨decoded, decoding, isInstalled, _, due⟩ := restore_installed restored
  generalize blob.length = length at reads decoding
  rw [isFrame] at decoding
  have isDecoded := value_of_restoring_frame (by decide) payloadFits reads decoding
  subst isDecoded
  refine ⟨isInstalled, ?_⟩
  intro ev member
  exact (due (rebuild handlers ev) (List.mem_map_of_mem member)).1

end Clock

end GoRetroTv
