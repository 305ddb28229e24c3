import GoRetroTv.SnapshotRecords

/-!
# The satellite front-end

`internal/device/demod/model.go`: an indirect register port on the serial bus.
The registers the guest has uploaded are kept in key order, as the snapshot
writes them, and never more than the source's limit.
-/

namespace GoRetroTv

namespace Demod

open Snapcodec

def maxWrittenRegisters : Nat :=
  65536

/-- A map from register keys to bytes, in key order. -/
abbrev Writes := List (Word × Byte)

structure Model where
  register : Half := 0
  selector : Byte := 0
  index : Half := 0
  writes : Writes := []
  reads : DoubleWord := 0

namespace Model

/-- `Answer`: the fixed responses of a locked front-end. -/
def answer (register : Half) : Byte :=
  match register.toNat with
  | 11 => 0x3f
  | 34 => 0x03
  | 74 | 92 => 0x80
  | 75 => 0x17
  | 78 => 0x02
  | _ => 0

/-- `Start`: the next byte selects a port. -/
def start (m : Model) : Model :=
  { m with index := 0 }

/-- Store a byte under a key of the map. -/
def put (key : Word) (value : Byte) : Writes → Writes
  | [] => [(key, value)]
  | (other, held) :: rest =>
      if key < other then (key, value) :: (other, held) :: rest
      else if key = other then (key, value) :: rest
      else (other, held) :: put key value rest

/-- The data port: upload a byte unless the map is full. -/
def upload (value : Byte) (m : Model) : Model :=
  let key := m.selector.setWidth 32 <<< 16 ||| m.register.setWidth 32
  let known := m.writes.any fun entry => entry.1 == key
  let writes :=
    if m.writes.length < maxWrittenRegisters || known then put key value m.writes else m.writes
  { m with writes, register := m.register + 1 }

/-- `ShiftWrite`: the indirect address and data protocol. -/
def shiftWrite (value : Byte) (m : Model) : Model :=
  if m.index = 0 then { m with selector := value, index := m.index + 1 }
  else
    let written :=
      match m.selector.toNat with
      | 0 => { m with register := m.register &&& 0xff00 ||| value.setWidth 16 }
      | 1 => { m with register := value.setWidth 16 <<< 8 ||| m.register &&& 0x00ff }
      | _ => m.upload value
    { written with index := m.index + 1 }

/-- `ShiftRead`: one response byte. -/
def shiftRead (m : Model) : Byte × Model :=
  (answer m.register, { m with register := m.register + 1, reads := m.reads + 1 })

def snapshot (m : Model) : Except String (List Byte) :=
  let w := newWriter (ascii "satellite-demod") 1
    |>.uint16 m.register
    |>.uint8 m.selector
    |>.uint16 m.index
    |>.uint64 m.reads
    |>.uint32 (BitVec.ofNat 32 m.writes.length)
  (m.writes.foldl (fun w entry => w |>.uint32 entry.1 |>.uint8 entry.2) w).blob

/-- The uploads of a snapshot, whose keys must increase. -/
def readWrites : Nat → Option Word → Reading Writes
  | 0, _ => pure []
  | remaining + 1, prior => do
      let key ← Reading.uint32
      let value ← Reading.uint8
      Reading.require (prior.all fun prior => prior < key)
        "demod: restore: unordered register keys"
      return (key, value) :: (← readWrites remaining (some key))

def readSnapshot : Reading Model := do
  let register ← Reading.uint16
  let selector ← Reading.uint8
  let index ← Reading.uint16
  let reads ← Reading.uint64
  let count ← Reading.uint32
  Reading.require (decide (count.toNat ≤ maxWrittenRegisters))
    "demod: restore: too many register writes"
  let writes ← readWrites count.toNat none
  Reading.wrap "demod: restore: " Reading.done
  return { register, selector, index, reads, writes }

def restore (blob : List Byte) : Except String Model :=
  restoring blob (ascii "satellite-demod") 1 1 "demod: restore: " readSnapshot

def Sorted (writes : Writes) : Prop :=
  writes.Pairwise fun first second => first.1 < second.1

structure WellFormed (m : Model) : Prop where
  sorted : Sorted m.writes
  bounded : m.writes.length ≤ maxWrittenRegisters

theorem new_wellFormed : WellFormed {} where
  sorted := .nil
  bounded := Nat.zero_le _

theorem mem_put {key : Word} {value : Byte} {writes : Writes} {entry : Word × Byte}
    (member : entry ∈ put key value writes) : entry = (key, value) ∨ entry ∈ writes := by
  induction writes with
  | nil => exact .inl (List.mem_singleton.mp member)
  | cons head rest ih =>
      rw [put] at member
      split at member
      · rcases List.mem_cons.mp member with isNew | old
        · exact .inl isNew
        · exact .inr old
      · split at member
        · rcases List.mem_cons.mp member with isNew | old
          · exact .inl isNew
          · exact .inr (List.mem_cons_of_mem _ old)
        · rcases List.mem_cons.mp member with isHead | rest
          · exact .inr (isHead ▸ List.mem_cons_self)
          · rcases ih rest with isNew | old
            · exact .inl isNew
            · exact .inr (List.mem_cons_of_mem _ old)

theorem put_sorted {writes : Writes} (sorted : Sorted writes) (key : Word) (value : Byte) :
    Sorted (put key value writes) := by
  induction writes with
  | nil => exact List.pairwise_singleton _ _
  | cons head rest ih =>
      obtain ⟨below, restSorted⟩ := List.pairwise_cons.mp sorted
      rw [put]
      split
      next isBelow =>
        refine List.pairwise_cons.mpr ⟨fun entry member => ?_, sorted⟩
        rcases List.mem_cons.mp member with rfl | old
        · exact isBelow
        · exact BitVec.lt_trans isBelow (below entry old)
      next notBelow =>
        split
        next isHead =>
          refine List.pairwise_cons.mpr ⟨fun entry member => ?_, restSorted⟩
          rw [isHead]
          exact below entry member
        next notHead =>
          refine List.pairwise_cons.mpr ⟨fun entry member => ?_, ih restSorted⟩
          rcases mem_put member with rfl | old
          · have atLeast := BitVec.le_def.mp (BitVec.not_lt.mp notBelow)
            have differs : key.toNat ≠ head.1.toNat :=
              fun same => notHead (BitVec.eq_of_toNat_eq same)
            change head.1.toNat < key.toNat
            omega
          · exact below entry old

theorem put_length_le (key : Word) (value : Byte) (writes : Writes) :
    (put key value writes).length ≤ writes.length + 1 := by
  induction writes with
  | nil => rfl
  | cons head rest ih =>
      rw [put]
      split
      · rfl
      · split
        · simp
        · simpa using ih

theorem put_length_of_known {key : Word} {writes : Writes} (sorted : Sorted writes)
    (known : writes.any (fun entry => entry.1 == key) = true) (value : Byte) :
    (put key value writes).length = writes.length := by
  induction writes with
  | nil => cases known
  | cons head rest ih =>
      obtain ⟨below, restSorted⟩ := List.pairwise_cons.mp sorted
      obtain ⟨entry, member, isKey⟩ := List.any_eq_true.mp known
      have isKey : entry.1 = key := by simpa using isKey
      rw [put]
      split
      next isBelow =>
        -- The key is in a sorted list, so it is not below the head.
        rcases List.mem_cons.mp member with rfl | old
        · exact absurd isBelow (isKey ▸ BitVec.lt_irrefl _)
        · exact absurd (BitVec.lt_trans isBelow (below entry old)) (isKey ▸ BitVec.lt_irrefl _)
      next =>
        split
        · rfl
        next notHead =>
          rw [List.length_cons, List.length_cons, ih restSorted]
          rcases List.mem_cons.mp member with rfl | old
          · exact absurd isKey.symm notHead
          · exact List.any_eq_true.mpr ⟨entry, old, by simp [isKey]⟩

theorem upload_wellFormed {m : Model} (wellFormed : m.WellFormed) (value : Byte) :
    (m.upload value).WellFormed := by
  unfold upload
  dsimp only
  split
  next room =>
    refine ⟨put_sorted wellFormed.sorted _ _, ?_⟩
    dsimp only
    rw [Bool.or_eq_true, decide_eq_true_iff] at room
    rcases room with room | known
    · exact (put_length_le _ _ _).trans room
    · rw [put_length_of_known wellFormed.sorted known]
      exact wellFormed.bounded
  · exact ⟨wellFormed.sorted, wellFormed.bounded⟩

theorem shiftWrite_wellFormed {m : Model} (wellFormed : m.WellFormed) (value : Byte) :
    (m.shiftWrite value).WellFormed := by
  unfold shiftWrite
  split
  · exact ⟨wellFormed.sorted, wellFormed.bounded⟩
  · have uploaded := upload_wellFormed wellFormed value
    dsimp only
    split
    · exact ⟨wellFormed.sorted, wellFormed.bounded⟩
    · exact ⟨wellFormed.sorted, wellFormed.bounded⟩
    · exact ⟨uploaded.sorted, uploaded.bounded⟩

theorem shiftRead_wellFormed {m : Model} (wellFormed : m.WellFormed) :
    m.shiftRead.2.WellFormed :=
  ⟨wellFormed.sorted, wellFormed.bounded⟩

def encodeWrites (writes : Writes) : List Byte :=
  writes.flatMap fun entry => bigEndian 4 entry.1.toNat ++ bigEndian 1 entry.2.toNat

@[simp]
theorem encodeWrites_length (writes : Writes) : (encodeWrites writes).length = 5 * writes.length := by
  induction writes with
  | nil => rfl
  | cons entry rest ih =>
      simp only [encodeWrites, List.flatMap_cons, List.length_append, bigEndian_length,
        List.length_cons] at ih ⊢
      omega

def encodeModel (m : Model) : List Byte :=
  bigEndian 2 m.register.toNat ++
    (bigEndian 1 m.selector.toNat ++
      (bigEndian 2 m.index.toNat ++
        (bigEndian 8 m.reads.toNat ++
          (bigEndian 4 (BitVec.ofNat 32 m.writes.length).toNat ++ encodeWrites m.writes))))

def blobOf (m : Model) : List Byte :=
  Writer.frame (ascii "satellite-demod") 1 (encodeModel m)

theorem foldl_write_mk (writes : Writes) (name : List Byte) (version : Half)
    (payload : List Byte) :
    writes.foldl (fun w entry => w |>.uint32 entry.1 |>.uint8 entry.2)
        (Writer.mk name version payload none) =
      ⟨name, version, payload ++ encodeWrites writes, none⟩ := by
  induction writes generalizing payload with
  | nil => simp [encodeWrites]
  | cons entry rest ih =>
      rw [List.foldl_cons, Writer.uint32_mk, Writer.uint8_mk, ih]
      simp [encodeWrites]

theorem encodeModel_length {m : Model} (wellFormed : m.WellFormed) :
    (encodeModel m).length ≤ 17 + 5 * maxWrittenRegisters := by
  have bounded := wellFormed.bounded
  simp only [encodeModel, List.length_append, bigEndian_length, encodeWrites_length]
  omega

theorem encodeModel_fits {m : Model} (wellFormed : m.WellFormed) :
    (encodeModel m).length < wordLimit :=
  (encodeModel_length wellFormed).trans_lt (by decide)

theorem blobOf_fits {m : Model} (wellFormed : m.WellFormed) : (blobOf m).length < wordLimit := by
  have length := encodeModel_length wellFormed
  rw [blobOf, frame_length]
  simp only [maxWrittenRegisters, headerSize, ascii, wordLimit] at length ⊢
  simp
  omega

theorem snapshot_eq {m : Model} (wellFormed : m.WellFormed) :
    m.snapshot = .ok (blobOf m) := by
  simp only [snapshot, newWriter_eq 1 (show ascii "satellite-demod" ≠ [] by decide) (by decide),
    Writer.uint16_mk, Writer.uint8_mk, Writer.uint64_mk, Writer.uint32_mk, foldl_write_mk,
    List.nil_append, List.append_assoc]
  exact Writer.blob_mk _ _ _ (by decide) (encodeModel_fits wellFormed)

theorem reads_readWrites {writes : Writes} (sorted : Sorted writes) (prior : Option Word)
    (above : ∀ p ∈ prior, ∀ entry ∈ writes, p < entry.1) :
    Reads (readWrites writes.length prior) (encodeWrites writes) writes := by
  induction writes generalizing prior with
  | nil => exact Reads.pure []
  | cons entry rest ih =>
      obtain ⟨below, restSorted⟩ := List.pairwise_cons.mp sorted
      have increasing : (prior.all fun prior => prior < entry.1) = true := by
        cases prior with
        | none => rfl
        | some p => simpa using above p rfl entry List.mem_cons_self
      have restRead := ih restSorted (some entry.1) (by
        rintro p isEntry other member
        rw [Option.mem_some_iff] at isEntry
        rw [← isEntry]
        exact below other member)
      rw [List.length_cons, readWrites, encodeWrites, List.flatMap_cons, List.append_assoc]
      apply Reads.bind (.uint32 entry.1)
      apply Reads.bind (.uint8 entry.2)
      rw [increasing]
      exact Reads.map (entry :: ·) restRead

theorem restore_blobOf {m : Model} (wellFormed : m.WellFormed) :
    restore (blobOf m) = .ok m := by
  have count : (BitVec.ofNat 32 m.writes.length).toNat = m.writes.length :=
    toNat_ofNat_of_lt_wordLimit (wellFormed.bounded.trans_lt (by decide))
  refine restoring_frame (by decide) (encodeModel_fits wellFormed) (by decide) (by decide) ?_
  unfold readSnapshot encodeModel
  apply Parses.bind (.uint16 m.register)
  apply Parses.bind (.uint8 m.selector)
  apply Parses.bind (.uint16 m.index)
  apply Parses.bind (.uint64 m.reads)
  apply Parses.bind (.uint32 _)
  rw [count]
  apply Parses.require (decide_eq_true wellFormed.bounded)
  apply Parses.bind_last (reads_readWrites wellFormed.sorted none (by simp))
  apply Parses.wrapDone
  exact Parses.pure [] m

theorem written (m : Model) :
    Written (ascii "satellite-demod") 1 (encodeModel m)
      (m.writes.foldl (fun w entry => w |>.uint32 entry.1 |>.uint8 entry.2)
        (newWriter (ascii "satellite-demod") 1
          |>.uint16 m.register
          |>.uint8 m.selector
          |>.uint16 m.index
          |>.uint64 m.reads
          |>.uint32 (BitVec.ofNat 32 m.writes.length))) := by
  have counted := (Written.start (ascii "satellite-demod") 1).uint16 m.register
    |>.uint8 m.selector |>.uint16 m.index |>.uint64 m.reads
    |>.uint32 (BitVec.ofNat 32 m.writes.length)
  have fields := counted.foldl
    (fun entry : Word × Byte => bigEndian 4 entry.1.toNat ++ bigEndian 1 entry.2.toNat)
    (fun entry written => by
      simpa only [List.append_assoc] using (written.uint32 entry.1).uint8 entry.2)
    m.writes
  simpa only [encodeModel, encodeWrites, List.nil_append, List.append_assoc] using fields

theorem readWrites_accepted (writes : Writes) (prior : Option Word) :
    ReadsIfAccepted (readWrites writes.length prior) (encodeWrites writes) writes := by
  induction writes generalizing prior with
  | nil => exact .pure []
  | cons entry rest ih =>
      rw [List.length_cons, readWrites, encodeWrites, List.flatMap_cons, List.append_assoc]
      refine .bind (.of_reads (.uint32 entry.1)) ?_
      refine .bind (.of_reads (.uint8 entry.2)) ?_
      refine .bind_check (.require _ _) ?_
      refine .bind_last (ih (some entry.1)) ?_
      exact .pure _

/-- A front-end that accepts its own snapshot is the same front-end. -/
theorem restore_snapshot {m restored : Model} {blob : List Byte} (taken : m.snapshot = .ok blob)
    (accepted : restore blob = .ok restored) : restored = m := by
  refine m.written.restored taken (fun fits => ?_) accepted
  have count : (BitVec.ofNat 32 m.writes.length).toNat = m.writes.length := by
    simp only [encodeModel, List.length_append, encodeWrites_length] at fits
    exact toNat_ofNat_of_lt_wordLimit (by omega)
  unfold readSnapshot encodeModel
  refine .bind (.of_reads (.uint16 m.register)) ?_
  refine .bind (.of_reads (.uint8 m.selector)) ?_
  refine .bind (.of_reads (.uint16 m.index)) ?_
  refine .bind (.of_reads (.uint64 m.reads)) ?_
  refine .bind (.of_reads (.uint32 _)) ?_
  refine .bind_check (.require _ _) ?_
  rw [count]
  refine .bind_last (readWrites_accepted m.writes none) ?_
  exact .bind_check (.wrap .done) (.pure m)

end Model

end Demod

end GoRetroTv
