import GoRetroTv.BusSnapshots
import GoRetroTv.CpuSnapshot
import GoRetroTv.MachineInvariants

/-!
# The machine's snapshot

`internal/machine/snapshot.go`: one set with a member for every owner of state, the bus with all
its devices among them.  A restore puts the bus last, which undoes its own refusals, and puts the
others back if any owner refuses its member.
-/

namespace GoRetroTv

open Cpu Snapcodec

namespace Machine

def snapshotName : List Byte :=
  ascii "goretrotv-machine"

def snapshotVersion : Half :=
  1

def maxSnapshotSize : Nat :=
  128 * 2 ^ 20

/-- The owners of state. -/
inductive Owner where
  | bus
  | clock
  | cpu
  | handoff
  | retired
  | skyGates
  deriving DecidableEq

def Owner.name : Owner → List Byte
  | .bus => ascii "bus"
  | .clock => ascii "clock"
  | .cpu => ascii "cpu"
  | .handoff => ascii "handoff"
  | .retired => ascii "retired"
  | .skyGates => ascii "sky-gates"

/-- `machineMembers`, which is the order of a snapshot too. -/
def owners : List Owner :=
  [.bus, .clock, .cpu, .handoff, .retired, .skyGates]

/-- The bus of the machine's core. -/
def bus {C : Type} (m : Machine C) : Board.Bus where
  devices := m.core.bus
  unknownState := m.unknownBus

/-- The handlers of the machine's clock. -/
def clockHandlers (name : List Byte) : Option Unit :=
  if name = pumpName then some () else none

def snapshotRetired (retired : DoubleWord) : Except String (List Byte) :=
  newWriter (ascii "retired-instructions") 1 |>.uint64 retired |>.blob

def readRetired : Reading DoubleWord := do
  let retired ← Reading.uint64
  Reading.done
  return retired

def restoreRetired (blob : List Byte) : Except String DoubleWord :=
  restoring blob (ascii "retired-instructions") 1 1 "" readRetired

def save (m : Machine (Clock Unit)) : Owner → Except String (List Byte)
  | .bus => m.bus.snapshot
  | .clock => m.clock.snapshot
  | .cpu => m.core.snapshot
  | .handoff => m.handoff.snapshot
  | .retired => snapshotRetired m.retired
  | .skyGates => m.skyGates.snapshot

def snapshot (m : Machine (Clock Unit)) : Except String (List Byte) :=
  match m.unknownState with
  | some error => .error s!"machine: snapshot: {error}"
  | none => do
      let label (o : Owner) := s!"machine: snapshot {text o.name}: "
      let w ← addOwners Owner.name m.save label label owners
        (newSetWriter snapshotName snapshotVersion)
      let blob ← labelled "machine: snapshot: " w.blob
      if maxSnapshotSize < blob.length then
        .error s!"machine: snapshot is {blob.length} bytes, above {maxSnapshotSize}-byte limit"
      else return blob

/-- An owner that keeps what it has if it refuses its blob. -/
def given {α : Type} (m : Machine (Clock Unit)) (put : α → Machine (Clock Unit))
    (decoded : Except String α) : Staged (Clock Unit) :=
  match decoded with
  | .error error => (.error error, m)
  | .ok value => (.ok (), put value)

/-- `Restore` of an owner. -/
def restoreOwner (blob : List Byte) (m : Machine (Clock Unit)) : Owner → Staged (Clock Unit)
  | .bus =>
      let (bus, result) := m.bus.restore blob
      (result, { m.withBoard bus.devices with unknownBus := bus.unknownState })
  | .clock => m.given (fun clock => { m with clock }) (m.clock.restore blob clockHandlers)
  | .cpu => m.given (fun core => { m with core }) (m.core.restore blob)
  | .handoff => m.given (fun handoff => { m with handoff }) (Handoff.restore blob)
  | .retired => m.given (fun retired => { m with retired }) (restoreRetired blob)
  | .skyGates => m.given (fun skyGates => { m with skyGates }) (SkyGates.restore blob)

/-- The order of a restore. -/
def restoreOrder : List Owner :=
  [.cpu, .handoff, .retired, .skyGates, .clock, .bus]

/-- `restoreSet`. -/
def restoreSet (set : MemberSet) : List Owner → Machine (Clock Unit) → Staged (Clock Unit)
  | [], m => (.ok (), m)
  | o :: os, m =>
      match set.members.find? o.name with
      | none =>
          (.error s!"machine: restore: missing {text o.name} after completeness check", m)
      | some blob =>
          match m.restoreOwner blob o with
          | (.error error, m) => (.error s!"machine: restore {text o.name}: {error}", m)
          | (.ok (), m) => restoreSet set os m

/-- The state of the owners besides the bus, saved. -/
structure NonBusState where
  cpu : List Byte
  clock : List Byte
  handoff : List Byte
  sky : List Byte
  retired : DoubleWord

def saveNonBusState (m : Machine (Clock Unit)) : Except String NonBusState := do
  let cpu ← m.core.snapshot
  let clock ← m.clock.snapshot
  let handoff ← m.handoff.snapshot
  let sky ← m.skyGates.snapshot
  return { cpu, clock, handoff, sky, retired := m.retired }

/-- An owner put back: the failure is kept and the others go on. -/
def putBack (label : String) (blob : List Byte) (o : Owner)
    (left : List String × Machine (Clock Unit)) : List String × Machine (Clock Unit) :=
  match left.2.restoreOwner blob o with
  | (.error error, m) => (left.1 ++ [label ++ error], m)
  | (.ok (), m) => (left.1, m)

/-- `restoreNonBusState`. -/
def restoreNonBusState (state : NonBusState) (m : Machine (Clock Unit)) :
    List String × Machine (Clock Unit) :=
  let left := putBack "clock: " state.clock .clock <|
    putBack "sky gates: " state.sky .skyGates <|
    putBack "handoff: " state.handoff .handoff <|
    putBack "cpu: " state.cpu .cpu ([], m)
  (left.1, { left.2 with retired := state.retired })

/-- What a restore reads and saves before it writes. -/
def prepare (state : List Byte) (m : Machine (Clock Unit)) :
    Except String (MemberSet × NonBusState) := do
  let set ← labelled "machine: restore: "
    (openSet state snapshotName snapshotVersion snapshotVersion)
  labelled "machine: restore: " (set.require (owners.map Owner.name))
  let before ← labelled "machine: restore: save rollback state: " m.saveNonBusState
  return (set, before)

/-- The rollback of a restore that failed. -/
def rollback (before : NonBusState) (error : String) (m : Machine (Clock Unit)) :
    Staged (Clock Unit) :=
  match restoreNonBusState before m with
  | ([], m) => (.error error, m)
  | (failures, m) =>
      let unknown := "machine state is unknown after failed rollback: " ++
        "\n".intercalate failures
      (.error (error ++ "\n" ++ unknown), { m with unknownState := some unknown })

/-- `Restore`. -/
def restore (state : List Byte) (m : Machine (Clock Unit)) : Staged (Clock Unit) :=
  match m.unknownState with
  | some error => (.error s!"machine: restore: {error}", m)
  | none =>
      if maxSnapshotSize < state.length then
        (.error s!"machine: snapshot exceeds {maxSnapshotSize}-byte limit", m)
      else
        match m.prepare state with
        | .error error => (.error error, m)
        | .ok (set, before) =>
            match restoreSet set restoreOrder m with
            | (.ok (), m) => (.ok (), m)
            | (.error error, m) => m.rollback before error

/-- The registers are some that a core would take. -/
def Compatible {β : Type} (c : Core β) : Prop :=
  Core.compatible (cells c.gpr) (cells c.cop0) c.pc c.isa c.delayed = true

instance {β : Type} (c : Core β) : Decidable (Compatible c) :=
  inferInstanceAs (Decidable (_ = true))

theorem core_restore {β : Type} {c d : Core β} {blob : List Byte} (taken : c.snapshot = .ok blob) :
    d.restore blob =
      if Compatible c then .ok { c with bus := d.bus }
      else .error "cpu: restore: incompatible register state" := by
  cases c.snapshot_eq.symm.trans taken
  exact Core.restore_frame c d

theorem snapshotRetired_eq (retired : DoubleWord) :
    snapshotRetired retired =
      .ok (Writer.frame (ascii "retired-instructions") 1 (bigEndian 8 retired.toNat)) := by
  rw [snapshotRetired, newWriter_eq 1 (show ascii "retired-instructions" ≠ [] by decide)
    (by decide), Writer.uint64_mk, List.nil_append]
  exact Writer.blob_mk _ _ _ (by decide) (by rw [bigEndian_length]; decide)

theorem restoreRetired_frame (retired : DoubleWord) :
    restoreRetired (Writer.frame (ascii "retired-instructions") 1 (bigEndian 8 retired.toNat)) =
      .ok retired := by
  refine restoring_frame (by decide) (by rw [bigEndian_length]; decide) (by decide) (by decide) ?_
  apply Parses.bind_last (.uint64 retired)
  apply Parses.done
  exact Parses.pure [] retired

section Parts

variable {m n : Machine (Clock Unit)} {p q : Machine (Agenda Unit)} {blob : List Byte}

/-- The pump's event is one that the clock knows again. -/
theorem paced_known {a : Agenda Unit} (paced : Rig.Paced a) : Clock.Shows.Known clockHandlers a := by
  obtain ⟨ev, pending, name, -, -⟩ := paced.next
  intro other here
  cases pending.symm.trans here
  rw [name]
  exact ⟨if_pos rfl, by decide, by decide⟩

/-- A machine that shows an agenda, that has not failed and whose bus is in a known state. -/
structure Alive (m : Machine (Clock Unit)) (p : Machine (Agenda Unit)) : Prop where
  shows_ : m.Shows p
  running : p.Running
  bus : m.unknownBus = none

theorem Alive.sound (alive : m.Alive p) : m.core.bus.Sound := by
  have core : m.core = p.core := congrArg Machine.core alive.shows_.rest
  rw [core]
  exact alive.running.served.1

theorem Alive.quiet (alive : m.Alive p) : m.core.bus.wire.raised = 0 := by
  have core : m.core = p.core := congrArg Machine.core alive.shows_.rest
  rw [core]
  exact alive.running.served.2

theorem Alive.clock_restore (alive : m.Alive p) (taken : m.clock.snapshot = .ok blob)
    (d : Clock Unit) : ∃ d', d.restore blob clockHandlers = .ok d' ∧ d'.Shows p.clock := by
  have paced := alive.running.paced
  obtain ⟨own, isOwn, -, restored⟩ :=
    alive.shows_.clock.restore_own paced.toTimely (paced_known paced)
  cases isOwn.symm.trans taken
  exact restored d

theorem owners_nodup : (owners.map Owner.name).Nodup := by
  decide

theorem owner_ne_nil (o : Owner) : o.name ≠ [] := by
  cases o <;> decide

theorem mem_owners (o : Owner) : o ∈ owners := by
  cases o <;> decide

theorem owner_collection {blobs : Owner → List Byte} :
    Collection (ownerEntries Owner.name owners blobs) :=
  ownerEntries_collection (fun o _ => owner_ne_nil o) owners_nodup

/-- The owners of such a machine are all saved, in little space but for the bus. -/
theorem Alive.saves (alive : m.Alive p) (o : Owner) :
    ∃ blob, m.save o = .ok blob ∧ blob.length ≤ if o = .bus then Board.Bus.room else 0x20000 := by
  have paced := alive.running.paced
  cases o with
  | bus =>
    obtain ⟨blob, taken, size⟩ := @Board.Bus.snapshot_of_sound m.bus alive.sound alive.bus
    exact ⟨blob, taken, size⟩
  | clock =>
    obtain ⟨blob, taken, size, -⟩ :=
      alive.shows_.clock.restore_own paced.toTimely (paced_known paced)
    exact ⟨blob, taken, size.trans (by decide)⟩
  | cpu =>
    refine ⟨_, m.core.snapshot_eq, ?_⟩
    rw [frame_length]
    simp [Core.encodeCore, encodeBool, headerSize]
    decide
  | handoff =>
    refine ⟨_, Handoff.snapshot_eq _, ?_⟩
    rw [frame_length, Handoff.encodePolicy_length]
    decide
  | retired =>
    refine ⟨_, snapshotRetired_eq _, ?_⟩
    rw [frame_length, bigEndian_length]
    decide
  | skyGates =>
    refine ⟨_, SkyGates.snapshot_eq _, ?_⟩
    rw [frame_length, SkyGates.encodePolicy_length]
    decide

theorem Alive.saveNonBusState (alive : m.Alive p) :
    ∃ before, m.saveNonBusState = .ok before ∧ m.core.snapshot = .ok before.cpu ∧
      m.clock.snapshot = .ok before.clock ∧ m.handoff.snapshot = .ok before.handoff ∧
      m.skyGates.snapshot = .ok before.sky ∧ before.retired = m.retired := by
  obtain ⟨clock, saved, -⟩ := alive.saves .clock
  refine ⟨_, bind_eq_ok.mpr ⟨_, Core.snapshot_eq _, bind_eq_ok.mpr ⟨clock, saved,
    bind_eq_ok.mpr ⟨_, Handoff.snapshot_eq _, bind_eq_ok.mpr ⟨_, SkyGates.snapshot_eq _, rfl⟩⟩⟩⟩,
    Core.snapshot_eq _, saved, Handoff.snapshot_eq _, SkyGates.snapshot_eq _, rfl⟩

/-- What a snapshot is made of. -/
theorem snapshot_ok (taken : m.snapshot = .ok blob) :
    m.unknownState = none ∧ blob.length ≤ maxSnapshotSize ∧
      ∃ blobs : Owner → List Byte, (∀ o, m.save o = .ok (blobs o)) ∧
        (addAll (ownerEntries Owner.name owners blobs)
          (newSetWriter snapshotName snapshotVersion)).blob = .ok blob := by
  unfold snapshot at taken
  split at taken
  · cases taken
  next known =>
    obtain ⟨w, added, taken⟩ := bind_eq_ok.mp taken
    obtain ⟨whole, written, taken⟩ := bind_eq_ok.mp taken
    obtain ⟨blobs, saved, isAdded, -⟩ := addOwners_ok rfl (by decide) added
    rw [labelled_ok, isAdded] at written
    split at taken
    · cases taken
    next fits =>
      cases taken
      exact ⟨known, Nat.le_of_not_lt fits, blobs, fun o => saved o (mem_owners o), written⟩

/-- Blobs of little space are written in one set. -/
theorem written_of_short {blobs : Owner → List Byte}
    (short : ∀ o, (blobs o).length ≤ if o = .bus then Board.Bus.room else 0x20000) :
    ∃ blob, (addAll (ownerEntries Owner.name owners blobs)
      (newSetWriter snapshotName snapshotVersion)).blob = .ok blob ∧
        ¬ maxSnapshotSize < blob.length := by
  have each (o : Owner) : (encodeMember (o.name, blobs o)).length ≤
      (if o = .bus then Board.Bus.room else 0x20000) + 28 := by
    have name : o.name.length ≤ 20 := by cases o <;> decide
    have blob := short o
    simp only [encodeMember, List.length_append, encodeBytes_length]
    omega
  have total : ((ownerEntries Owner.name owners blobs).flatMap encodeMember).length ≤
      (owners.map fun o => (if o = .bus then Board.Bus.room else 0x20000) + 28).sum := by
    unfold ownerEntries
    rw [List.length_flatMap, List.map_map]
    exact List.sum_le_sum fun o _ => each o
  have size : (encodeMembers (ownerEntries Owner.name owners blobs)).length + 100 ≤
      maxSnapshotSize := by
    simp only [encodeMembers, List.length_append, bigEndian_length]
    exact (Nat.add_le_add_right (Nat.add_le_add_left total 4) 100).trans (by decide)
  have limit : maxSnapshotSize < wordLimit := by decide
  have label : snapshotName.length = 17 := by decide
  have named : Collection (ownerEntries Owner.name owners blobs) := owner_collection
  obtain ⟨blob, written⟩ := blob_addAll_of_fits snapshotVersion named
    (show snapshotName ≠ [] by decide) (by decide) (by omega)
  have whole := blob_addAll_length named written
  unfold headerSize at whole
  exact ⟨blob, written, by omega⟩

/-- Owners that are saved in little space make a snapshot. -/
theorem snapshot_of_saves {blobs : Owner → List Byte} (known : m.unknownState = none)
    (saved : ∀ o, m.save o = .ok (blobs o))
    (short : ∀ o, (blobs o).length ≤ if o = .bus then Board.Bus.room else 0x20000) :
    ∃ blob, m.snapshot = .ok blob := by
  obtain ⟨blob, written, fits⟩ := written_of_short short
  refine ⟨blob, ?_⟩
  unfold snapshot
  rw [known]
  refine bind_eq_ok.mpr ⟨_, addOwners_of_ok rfl (fun o _ => owner_ne_nil o) owners_nodup
    fun o _ => saved o, bind_eq_ok.mpr ⟨blob, labelled_ok.mpr written, ?_⟩⟩
  rw [if_neg fits]
  rfl

theorem Alive.snapshot (alive : m.Alive p) (known : m.unknownState = none) :
    ∃ blob, m.snapshot = .ok blob := by
  choose blobs saved short using alive.saves
  exact snapshot_of_saves known saved short

/-- A set opens as the blobs in it, if the machine restored onto can be saved. -/
theorem Alive.prepare_written (alive : n.Alive q) {blobs : Owner → List Byte}
    (written : (addAll (ownerEntries Owner.name owners blobs)
      (newSetWriter snapshotName snapshotVersion)).blob = .ok blob) :
    ∃ set before, n.prepare blob = .ok (set, before) ∧ n.saveNonBusState = .ok before ∧
      ∀ o, set.members.find? o.name = some (blobs o) := by
  obtain ⟨set, opened, -, names, found⟩ := openSet_owners owner_collection written
    (show snapshotVersion ≤ snapshotVersion by decide)
    (show snapshotVersion ≤ snapshotVersion by decide)
  obtain ⟨before, kept, -⟩ := alive.saveNonBusState
  refine ⟨set, before, ?_, kept, fun o => found o (mem_owners o)⟩
  refine bind_eq_ok.mpr ⟨set, labelled_ok.mpr opened, bind_eq_ok.mpr ⟨(), labelled_ok.mpr ?_,
    bind_eq_ok.mpr ⟨before, labelled_ok.mpr kept, rfl⟩⟩⟩
  rw [require_iff]
  exact fun member => (names member).symm

/-- A snapshot opens as the owners' blobs. -/
theorem Alive.prepare (alive : n.Alive q) (taken : m.snapshot = .ok blob) :
    ∃ set before, n.prepare blob = .ok (set, before) ∧ n.saveNonBusState = .ok before ∧
      ∀ o, ∃ copy, m.save o = .ok copy ∧ set.members.find? o.name = some copy := by
  obtain ⟨-, -, blobs, saved, written⟩ := snapshot_ok taken
  obtain ⟨set, before, prepared, kept, found⟩ := alive.prepare_written written
  exact ⟨set, before, prepared, kept, fun o => ⟨blobs o, saved o, found o⟩⟩

end Parts

end Machine

end GoRetroTv
