import GoRetroTv.BoardAcceptance
import GoRetroTv.RefusableSteps
import GoRetroTv.SnapshotOwners

/-!
# The bus's snapshot

`internal/bus/snapshot.go`: one member for every attached device.  A restore reads every member
and saves every device before it writes one; if a device then refuses its blob, those reached so
far are put back.
-/

namespace GoRetroTv

open Cpu Snapcodec Refusable

namespace Board

def snapWriter : List Byte :=
  ascii "machine"

def snapVersion : Half :=
  2

def legacyAudioControl : List Byte :=
  ascii "audio-control"

def legacyBeforeAudioVer : Half :=
  1

/-- The devices on their bus, and whether a failed restore has left them in no known state. -/
structure Bus where
  devices : Board
  unknownState : Failure := none

namespace Bus

def snapshot (m : Bus) : Except String (List Byte) :=
  match m.unknownState with
  | some error => .error s!"bus: snapshot: {error}"
  | none => do
      let w ← addOwners Region.name m.devices.save
        (fun r => s!"bus: snapshot {quoted r.name}: ") (fun _ => "bus: snapshot: ") regions
        (newSetWriter snapWriter snapVersion)
      labelled "bus: snapshot: " w.blob

/-- The names a snapshot of a version must describe. -/
def required (version : Half) : List (List Byte) :=
  let attached := regions.map Region.name
  if version = legacyBeforeAudioVer then attached.filter fun name => name ≠ legacyAudioControl
  else attached

/-- A device's blob in a set.  A version without the audio control keeps the one attached. -/
def member (b : Board) (set : MemberSet) (r : Region) : Except String (List Byte) :=
  match set.members.find? r.name with
  | some blob => .ok blob
  | none =>
      if set.version = legacyBeforeAudioVer ∧ r.name = legacyAudioControl then
        labelled s!"bus: restore: initialise {quoted r.name} for legacy snapshot: " (b.save r)
      else
        .error <| s!"bus: restore: {quoted r.name} passed the completeness check and then had no " ++
          "blob, which cannot happen and means this package and snapcodec disagree"

/-- The rollback copy of a device. -/
def beforeCopy (b : Board) (r : Region) : Except String (List Byte) :=
  labelled (s!"bus: restore: could not save {quoted r.name} first, so the restore was not " ++
    "attempted: ") (b.save r)

/-- What a restore reads and saves before it writes: the blobs, and the devices' own. -/
def prepare (b : Board) (state : List Byte) :
    Except String ((Region → List Byte) × (Region → List Byte)) := do
  let set ← labelled "bus: restore: " (openSet state snapWriter legacyBeforeAudioVer snapVersion)
  labelled "bus: restore: the snapshot does not describe the devices on this bus: "
    (set.require (required set.version))
  let blobs ← gather (member b set) regions
  let before ← gather (beforeCopy b) regions
  return (blobs, before)

def loadStep (blobs : Region → List Byte) (r : Region) (b : Board) : Except String Board :=
  b.load (blobs r) r

def rejected (refusal : Region × String) : String :=
  s!"{quoted refusal.1.name} rejected the snapshot taken from it moments earlier: {refusal.2}"

/-- `Restore`. -/
def restore (state : List Byte) (m : Bus) : Bus × Except String Unit :=
  match m.unknownState with
  | some error => (m, .error s!"bus: restore: {error}")
  | none =>
      match prepare m.devices state with
      | .error error => (m, .error error)
      | .ok (blobs, before) =>
          match takeSteps (loadStep blobs) 0 regions m.devices with
          | (devices, none) => ({ m with devices }, .ok ())
          | (devices, some (i, r, error)) =>
              let failed := s!"bus: restore {quoted r.name}: {error}"
              -- `rollback`, over the devices reached.
              match takeAllSteps (loadStep before) (regions.take (i + 1)) devices with
              | (devices, []) => ({ m with devices }, .error failed)
              | (devices, failures) =>
                  let unknown := "the machine is in no known state: a restore failed part way " ++
                    "through and could not be undone; Reset it before using it again " ++
                    "(" ++ "\n".intercalate (failures.map rejected) ++ ")"
                  ({ devices, unknownState := some unknown }, .error (failed ++ "\n" ++ unknown))

/-- `Reset`. -/
def reset (m : Bus) : Bus where
  devices := regions.foldl resetAt m.devices

variable {b t : Board} {m : Bus} {blob state : List Byte} {blobs before : Region → List Byte}
  {r : Region}

theorem name_ne_nil (r : Region) : r.name ≠ [] := by
  cases r <;> decide

theorem names_nodup : (regions.map Region.name).Nodup :=
  Region.regions_nodup.map fun _ _ => Region.name_injective

theorem collection : Collection (ownerEntries Region.name regions blobs) :=
  ownerEntries_collection (fun r _ => name_ne_nil r) names_nodup

theorem prepare_before (prepared : prepare b state = .ok (blobs, before)) (r : Region) :
    b.save r = .ok (before r) := by
  obtain ⟨set, -, prepared⟩ := bind_eq_ok.mp prepared
  obtain ⟨_, -, prepared⟩ := bind_eq_ok.mp prepared
  obtain ⟨_, -, prepared⟩ := bind_eq_ok.mp prepared
  obtain ⟨copies, gathered, returned⟩ := bind_eq_ok.mp prepared
  cases returned
  exact labelled_ok.mp (gather_ok gathered r (Region.mem_regions r))

/-- The members of a snapshot are the devices it was taken from. -/
theorem snapshot_ok (taken : m.snapshot = .ok blob) :
    m.unknownState = none ∧ ∃ blobs : Region → List Byte, (∀ r, m.devices.save r = .ok (blobs r)) ∧
      (addAll (ownerEntries Region.name regions blobs) (newSetWriter snapWriter snapVersion)).blob =
        .ok blob := by
  unfold snapshot at taken
  split at taken
  · cases taken
  next known =>
    obtain ⟨w, added, written⟩ := bind_eq_ok.mp taken
    obtain ⟨blobs, saved, isAdded, -⟩ := addOwners_ok rfl Region.regions_nodup added
    rw [labelled_ok, isAdded] at written
    exact ⟨known, blobs, fun r => saved r (Region.mem_regions r), written⟩

/-- A snapshot opens as the devices' blobs. -/
theorem openSet_snapshot
    (taken : (addAll (ownerEntries Region.name regions blobs)
      (newSetWriter snapWriter snapVersion)).blob = .ok blob) :
    ∃ set, openSet blob snapWriter legacyBeforeAudioVer snapVersion = .ok set ∧
      set.version = snapVersion ∧
      (∀ member, member ∈ set.members.names ↔ member ∈ regions.map Region.name) ∧
      ∀ r, set.members.find? r.name = some (blobs r) := by
  have lowBound : legacyBeforeAudioVer ≤ snapVersion := by decide
  obtain ⟨set, opened, version, names, found⟩ :=
    openSet_owners collection taken lowBound (show snapVersion ≤ snapVersion by decide)
  exact ⟨set, opened, version, names, fun r => found r (Region.mem_regions r)⟩

/-- A snapshot is read back device by device, if the devices restored onto can be saved. -/
theorem prepare_of_snapshot
    (taken : (addAll (ownerEntries Region.name regions blobs)
      (newSetWriter snapWriter snapVersion)).blob = .ok blob)
    (saved : ∀ r, t.save r = .ok (before r)) :
    prepare t blob = .ok (blobs, before) := by
  obtain ⟨set, opened, version, names, found⟩ := openSet_snapshot taken
  have accepted : set.require (required set.version) = .ok () := by
    rw [require_iff, version]
    exact fun member => (names member).symm
  have read (r : Region) : member t set r = .ok (blobs r) := by
    unfold member
    rw [found r]
  obtain ⟨blobs', gathered, same⟩ := gather_of_ok fun r (_ : r ∈ regions) => read r
  obtain ⟨before', copied, sameCopies⟩ :=
    gather_of_ok fun r (_ : r ∈ regions) => show beforeCopy t r = .ok (before r) from
      labelled_ok.mpr (saved r)
  obtain rfl : blobs' = blobs := funext fun r => same r (Region.mem_regions r)
  obtain rfl : before' = before := funext fun r => sameCopies r (Region.mem_regions r)
  refine bind_eq_ok.mpr ⟨set, labelled_ok.mpr opened, bind_eq_ok.mpr ⟨(), labelled_ok.mpr accepted,
    bind_eq_ok.mpr ⟨_, gathered, bind_eq_ok.mpr ⟨_, copied, rfl⟩⟩⟩⟩

/-- What the devices read from some blobs. -/
def decoded (t : Board) (blobs : Region → List Byte) (r : Region) : Except String r.State :=
  t.decode (blobs r) r

/-- The states that a board would take from some blobs. -/
def statesFrom (t : Board) (blobs : Region → List Byte) : (r : Region) → r.State :=
  valueOr (decoded t blobs) t.get

theorem puts (t : Board) (blobs : Region → List Byte) :
    Puts (loadStep blobs) (decoded t blobs) (fun r s b => b.restored r s) (Kin t) where
  step r _ kin := kin.load_eq (blobs r) r
  keeps _ _ _ kin accepted := kin.restored accepted

/-- A device that accepts its own snapshot takes its own state from it. -/
theorem statesFrom_save {b : Board} (built : b.Built) (onto : t.Built)
    (saved : b.save r = .ok (blobs r)) (accepted : decoded t blobs r = .ok (statesFrom t blobs r)) :
    statesFrom t blobs r = configured t.i2c.imagePath r (b.get r) :=
  decode_save built onto saved accepted

/-- How a restore ends once it has begun. -/
theorem restore_cases (built : m.devices.Built) (known : m.unknownState = none)
    (prepared : prepare m.devices state = .ok (blobs, before)) :
    ((∀ r, decoded m.devices blobs r = .ok (statesFrom m.devices blobs r)) ∧
      m.restore state =
        ({ devices := restoredAll (statesFrom m.devices blobs) regions m.devices }, .ok ())) ∨
    ∃ done r rest error, regions = done ++ r :: rest ∧
      decoded m.devices blobs r = .error error ∧
      ((∀ k ∈ done ++ [r], decoded m.devices before k = .ok (statesFrom m.devices before k)) ∧
        m.restore state =
          ({ devices := restoredAll (statesFrom m.devices before) (done ++ [r])
              (restoredAll (statesFrom m.devices blobs) done m.devices) },
            .error s!"bus: restore {quoted r.name}: {error}") ∨
      (∃ k ∈ done ++ [r], ∃ error, decoded m.devices before k = .error error) ∧
        (∃ unknown, (m.restore state).1.unknownState = some unknown) ∧
        ∃ error, (m.restore state).2 = .error error) := by
  obtain ⟨devices, unknownState⟩ := m
  cases known
  unfold restore
  rw [prepared]
  dsimp only at built ⊢
  rcases (puts devices blobs).takeSteps built.kin devices.get 0 regions with
    ⟨all, taken⟩ | ⟨done, r, rest, error, split, refused, before_, taken⟩
  · rw [taken]
    exact .inl ⟨fun r => all r (Region.mem_regions r), rfl⟩
  · rw [taken]
    have reached : regions.take (0 + done.length + 1) = done ++ [r] := by
      rw [split, Nat.zero_add, List.take_append, List.take_of_length_le (Nat.le_succ _)]
      simp
    refine .inr ⟨done, r, rest, error, split, refused, ?_⟩
    dsimp only
    rw [reached]
    have kin := (puts devices blobs).putAll built.kin before_
    rcases (puts devices before).takeAllSteps kin devices.get (done ++ [r]) with
      ⟨all, undone⟩ | ⟨refusal, some_⟩
    · rw [undone]
      exact .inl ⟨all, rfl⟩
    · refine .inr ⟨refusal, ?_⟩
      generalize takeAllSteps (loadStep before) (done ++ [r])
        (putAll (fun r s b => b.restored r s) (valueOr (decoded devices blobs) devices.get) done
          devices) = undone at some_
      obtain ⟨reached, failures⟩ := undone
      cases failures with
      | nil => exact absurd rfl some_
      | cons failure failures => exact ⟨⟨_, rfl⟩, _, rfl⟩

/-- A board that a restore was undone on: every device is as it was, but for the policy that a
restored front panel starts with, and the lines reached are driven to their levels. -/
structure PutBack (reached : List Region) (b b' : Board) : Prop where
  devices : ∀ r, r ≠ .irq → r ≠ .csi → b'.get r = b.get r
  csi : b'.csi = b.csi ∨ b'.csi = b.csi.setAckPolicy Csi.defaultAckPolicy
  enable : b'.wire.enable = b.wire.enable
  pending : b'.wire.pending = (driveAll b.get reached b.wire).pending

/-- The interrupt controller is restored second. -/
theorem reached_cases {done rest : List Region} (split : regions = done ++ r :: rest) :
    done ++ [r] = [.dram] ∨
      ∃ behind, done ++ [r] = .dram :: .irq :: behind ∧ .irq ∉ behind := by
  have distinct := Region.regions_nodup
  rw [split] at distinct
  change .dram :: .irq :: regions.drop 2 = _ at split
  match done, split, distinct with
  | [], split, _ =>
    cases split
    exact .inl rfl
  | [_], split, _ =>
    cases split
    exact .inr ⟨[], rfl, List.not_mem_nil⟩
  | first :: second :: done, split, distinct =>
    obtain ⟨rfl, rfl⟩ : .dram = first ∧ .irq = second :=
      ⟨(List.cons.inj split).1, (List.cons.inj (List.cons.inj split).2).1⟩
    refine .inr ⟨done ++ [r], rfl, fun member => ?_⟩
    have later : Region.irq ∉ done ++ r :: rest :=
      (List.nodup_cons.mp (List.nodup_cons.mp distinct).2).1
    refine later (List.mem_append.mpr ((List.mem_append.mp member).imp id fun last => ?_))
    rw [List.mem_singleton.mp last]
    exact List.mem_cons_self

theorem configured_self (b : Board) (device : r ≠ .csi) :
    configured b.i2c.imagePath r (b.get r) = b.get r := by
  cases r <;> first | rfl | exact absurd rfl device

theorem putBack (built : b.Built) (saved : ∀ r, b.save r = .ok (before r)) {done rest : List Region}
    (split : regions = done ++ r :: rest) (states : (r : Region) → r.State)
    (accepted : ∀ k ∈ done ++ [r], decoded b before k = .ok (statesFrom b before k)) :
    PutBack (done ++ [r]) b
      (restoredAll (statesFrom b before) (done ++ [r]) (restoredAll states done b)) := by
  have own (k : Region) (member : k ∈ done ++ [r]) :
      statesFrom b before k = configured b.i2c.imagePath k (b.get k) :=
    statesFrom_save built built (saved k) (accepted k member)
  have distinct : (done ++ [r]).Nodup := by
    refine Region.regions_nodup.sublist ?_
    rw [split]
    exact List.Sublist.append_left (List.Sublist.cons_cons r (List.nil_sublist rest)) done
  have untouched (k : Region) (apart : k ∉ done ++ [r]) (device : k ≠ .irq) :
      (restoredAll (statesFrom b before) (done ++ [r]) (restoredAll states done b)).get k =
        b.get k := by
    rw [restoredAll_get_of_not_mem apart device]
    exact restoredAll_get_of_not_mem (fun member => apart (List.mem_append_left _ member)) device
  have wire : ∃ before', before'.toController = b.wire.toController ∧
      (restoredAll (statesFrom b before) (done ++ [r]) (restoredAll states done b)).wire =
        driveAll (statesFrom b before) (done ++ [r]) before' := by
    rcases reached_cases split with first | ⟨behind, reached, devices⟩
    · have started : done = [] := by
        cases done with
        | nil => rfl
        | cons k done => simp at first
      subst started
      rw [first]
      exact ⟨b.wire, rfl, rfl⟩
    · rw [reached, restoredAll_wire_behind devices]
      have irq := own .irq (by rw [reached]; simp)
      refine ⟨_, ?_, rfl⟩
      exact irq
  obtain ⟨wire', controller, driven⟩ := wire
  constructor
  · intro k device notCsi
    by_cases member : k ∈ done ++ [r]
    · rw [restoredAll_get distinct member device, own k member, configured_self b notCsi]
    · exact untouched k member device
  · by_cases member : .csi ∈ done ++ [r]
    · exact .inr ((restoredAll_get distinct member (by decide)).trans (own .csi member))
    · exact .inl (untouched .csi member (by decide))
  · rw [driven, driveAll_enable, controller]
  · have levels : driveAll (statesFrom b before) (done ++ [r]) wire' =
        driveAll b.get (done ++ [r]) wire' := by
      refine driveAll_congr fun k member wire => ?_
      rw [own k member, drive_configured]
    rw [driven, levels]
    exact driveAll_pending_congr (congrArg Irq.Controller.pending controller)

/-- No snapshot of sound devices is longer than this. -/
def room : Nat :=
  0x7b00000

/-- The members of a sound board fit in one set. -/
theorem entries_length (short : ∀ r, (blobs r).length ≤ Region.room r) :
    (encodeMembers (ownerEntries Region.name regions blobs)).length + 0x11000 ≤ room := by
  have each (r : Region) :
      (encodeMember (r.name, blobs r)).length ≤ Region.room r + 28 := by
    have name : r.name.length ≤ 20 := by cases r <;> decide
    have blob := short r
    simp only [encodeMember, List.length_append, encodeBytes_length]
    omega
  have total : ((ownerEntries Region.name regions blobs).flatMap encodeMember).length ≤
      (regions.map fun r => Region.room r + 28).sum := by
    unfold ownerEntries
    rw [List.length_flatMap, List.map_map]
    exact List.sum_le_sum fun r _ => each r
  simp only [encodeMembers, List.length_append, bigEndian_length]
  exact (Nat.add_le_add_right (Nat.add_le_add_left total 4) 0x11000).trans (by decide)

/-- Short blobs are written in one set. -/
theorem written_of_short (short : ∀ r, (blobs r).length ≤ Region.room r) :
    ∃ blob, (addAll (ownerEntries Region.name regions blobs)
      (newSetWriter snapWriter snapVersion)).blob = .ok blob ∧ blob.length ≤ room := by
  have named : Collection (ownerEntries Region.name regions blobs) := collection
  have size := entries_length short
  have limit : room < wordLimit := by decide
  obtain ⟨blob, written⟩ := blob_addAll_of_fits snapVersion named
    (show snapWriter ≠ [] by decide) (by decide) (by omega)
  refine ⟨blob, written, ?_⟩
  have label : snapWriter.length = 7 := by decide
  rw [blob_addAll_length named written, label, headerSize]
  omega

/-- A bus of sound devices gives a snapshot. -/
theorem snapshot_of_sound (sound : m.devices.Sound) (known : m.unknownState = none) :
    ∃ blob, m.snapshot = .ok blob ∧ blob.length ≤ room := by
  choose blobs accepts using sound.accepts
  have saved : ∀ r ∈ regions, m.devices.save r = .ok (blobs r) := fun r _ => (accepts r).saved
  obtain ⟨blob, written, size⟩ := written_of_short fun r => (accepts r).short
  refine ⟨blob, ?_, size⟩
  unfold snapshot
  rw [known]
  refine bind_eq_ok.mpr ⟨_, addOwners_of_ok rfl (fun r _ => name_ne_nil r) names_nodup saved, ?_⟩
  exact labelled_ok.mpr written

/-- Sound devices take each other's blobs. -/
theorem accepted_of_sound {copy : List Byte} (sound : b.Sound) (onto : t.Sound)
    (saved : b.save r = .ok copy) : ∃ s, t.decode copy r = .ok s := by
  obtain ⟨own, accepts⟩ := sound.accepts r
  cases saved.symm.trans accepts.saved
  have alike := decode_alike onto.toBuilt sound.toBuilt copy r
  rw [accepts.decoded] at alike
  cases result : t.decode copy r with
  | error error =>
    rw [result] at alike
    cases alike
  | ok s => exact ⟨s, rfl⟩

/-- It is accepted by any bus of sound devices. -/
theorem restore_of_sound {source target : Bus} (sound : source.devices.Sound)
    (onto : target.devices.Sound) (known : target.unknownState = none)
    (taken : source.snapshot = .ok blob) : (target.restore blob).2 = .ok () := by
  obtain ⟨-, blobs, saved, written⟩ := snapshot_ok taken
  choose before own using onto.accepts
  have prepared := prepare_of_snapshot written fun r => (own r).saved
  rcases restore_cases onto.toBuilt known prepared with
    ⟨-, done⟩ | ⟨done, r, rest, error, -, refused, -⟩
  · exact congrArg Prod.snd done
  · obtain ⟨s, accepted⟩ := accepted_of_sound sound onto (saved r)
    cases refused.symm.trans accepted

/-- A snapshot shows the devices through their own snapshots. -/
theorem snapshot_congr {m' : Bus} (known : m'.unknownState = m.unknownState)
    (saves : ∀ r, m'.devices.save r = m.devices.save r) : m'.snapshot = m.snapshot := by
  unfold snapshot
  rw [known, show m'.devices.save = m.devices.save from funext saves]

theorem PutBack.saves {reached : List Region} {b b' : Board} (undone : PutBack reached b b')
    (controller : b'.wire.toController = b.wire.toController) (r : Region) :
    b'.save r = b.save r := by
  by_cases irq : r = .irq
  · subst irq
    exact congrArg Irq.snapshot controller
  by_cases csi : r = .csi
  · subst csi
    rcases undone.csi with same | same
    · exact congrArg Csi.Link.snapshot same
    · exact @save_of_get b b' .csi [] same
  refine @save_of_get b b' r b.i2c.imagePath ?_
  rw [configured_self b csi]
  exact undone.devices r irq csi

theorem controller_eq {c d : Irq.Controller} (pending : c.pending = d.pending)
    (enable : c.enable = d.enable) : c = d := by
  cases c
  cases d
  cases pending
  cases enable
  rfl

/-- On a settled board undoing leaves the interrupt controller as it was. -/
theorem PutBack.controller {reached : List Region} {b b' : Board} (undone : PutBack reached b b')
    (settled : b.Settled) : b'.wire.toController = b.wire.toController := by
  have pending := undone.pending
  rw [driveAll_of_level fun r _ => settled r] at pending
  exact controller_eq pending undone.enable

/-- In no known state every restore is refused. -/
theorem restore_unknown {unknown : String} (lost : m.unknownState = some unknown)
    (state : List Byte) : m.restore state = (m, .error s!"bus: restore: {unknown}") := by
  unfold restore
  rw [lost]

/-- **A refused restore.**  Nothing was written; or every device reached was put back, with the
lines driven to their levels; or a device has refused its own snapshot, and the bus stays in no
known state whatever is restored next. -/
theorem restore_refused (built : m.devices.Built) {error : String}
    (refused : (m.restore state).2 = .error error) :
    let m' := (m.restore state).1
    m' = m ∨
    (m.unknownState = none ∧ m'.unknownState = none ∧
      (∃ reached, reached <+: regions ∧ PutBack reached m.devices m'.devices) ∧
      (m.devices.Settled →
        m'.devices.wire.toController = m.devices.wire.toController ∧
          m'.snapshot = m.snapshot)) ∨
    ((∃ r blob error, m.devices.save r = .ok blob ∧ m.devices.decode blob r = .error error) ∧
      ∃ unknown, m'.unknownState = some unknown ∧
        ∀ states : List (List Byte), states.foldl (fun m state => (m.restore state).1) m' = m') := by
  intro m'
  cases known : m.unknownState with
  | some unknown => exact .inl (congrArg Prod.fst (restore_unknown known state))
  | none =>
    cases isPrepared : prepare m.devices state with
    | error error =>
      refine .inl ?_
      show (m.restore state).1 = m
      unfold restore
      rw [known, isPrepared]
    | ok prepared =>
      obtain ⟨blobs, before⟩ := prepared
      have saved := prepare_before isPrepared
      rcases restore_cases built known isPrepared with
        ⟨-, done⟩ | ⟨done, r, rest, error, split, -, ⟨accepted, undone⟩ | ⟨refusal, lost, -⟩⟩
      · rw [done] at refused
        cases refused
      · have back := putBack built saved split (statesFrom m.devices blobs) accepted
        have here : m' = _ := congrArg Prod.fst undone
        refine .inr (.inl ⟨rfl, by rw [here], ⟨done ++ [r], ⟨rest, by simp [split]⟩, ?_⟩, ?_⟩)
        · rw [here]
          exact back
        · intro settled
          rw [here]
          have controller := back.controller settled
          exact ⟨controller, snapshot_congr known.symm (back.saves controller)⟩
      · obtain ⟨k, -, error, rejected⟩ := refusal
        obtain ⟨unknown, lost⟩ := lost
        refine .inr (.inr ⟨⟨k, before k, error, saved k, rejected⟩, unknown, lost, fun states => ?_⟩)
        induction states with
        | nil => rfl
        | cons state states ih =>
          rw [List.foldl_cons, restore_unknown lost]
          exact ih

/-- A board on which the audio control was written to. -/
def loud (b : Board) : Board :=
  b.put .audio { registers := fun i => b.audio.registers i + 1 }

theorem loud_audio (b : Board) : (loud b).audio ≠ b.audio := by
  intro alike
  have first := congrFun (congrArg Audio.Control.registers alike) 0
  change b.audio.registers 0 + 1 = b.audio.registers 0 at first
  simp at first

theorem loud_sound (sound : b.Sound) : (loud b).Sound :=
  { sound with }

theorem loud_settled (settled : b.Settled) : (loud b).Settled := by
  intro r
  cases r <;> exact settled _

/-- If the last device alone refuses its blob, the audio control was restored. -/
theorem audio_reached (built : b.Built)
    (accepted : ∀ r, r ≠ .flashU202 → ∃ s, decoded b blobs r = .ok s)
    {error : String} (refused : decoded b blobs .flashU202 = .error error) :
    (takeSteps (loadStep blobs) 0 regions b).1.audio = statesFrom b blobs .audio := by
  have last : regions = regions.dropLast ++ [.flashU202] := by decide
  rcases (puts b blobs).takeSteps built.kin b.get 0 regions with
    ⟨all, -⟩ | ⟨done, r, rest, reason, split, rejected, -, taken⟩
  · cases refused.symm.trans (all .flashU202 (Region.mem_regions _))
  have isLast : r = .flashU202 := by
    by_contra other
    obtain ⟨s, accepted⟩ := accepted r other
    cases rejected.symm.trans accepted
  subst isLast
  have front : .audio ∈ done := by
    rcases List.append_eq_append_iff.mp (last.symm.trans split) with
      ⟨more, isDone, -⟩ | ⟨more, isFront, back⟩
    · rw [isDone]
      exact List.mem_append_left more (by decide)
    · cases more with
      | nil =>
        rw [← List.append_nil done, ← isFront]
        decide
      | cons k more =>
        obtain ⟨rfl, -⟩ := List.cons.inj back
        exact absurd (isFront ▸ List.mem_append_right done List.mem_cons_self) (by decide)
  have distinct : done.Nodup := by
    have all := Region.regions_nodup
    rw [split] at all
    exact (List.nodup_append.mp all).1
  rw [taken]
  exact restoredAll_get distinct front (by decide)

/-- A set whose last member is no blob: the devices before it are restored and put back. -/
theorem erased_refuses : ∃ (m : Bus) (blobs before : Region → List Byte) (blob : List Byte),
    prepare m.devices blob = .ok (blobs, before) ∧
      (takeSteps (loadStep blobs) 0 regions m.devices).1.audio ≠ m.devices.audio ∧
      (∃ error, (m.restore blob).2 = .error error) ∧
      (m.restore blob).1.devices.audio = m.devices.audio ∧
      (m.restore blob).1.snapshot = m.snapshot := by
  obtain ⟨b, made⟩ := new_erased
  have sound := new_sound made
  have others := loud_sound sound
  choose before own using sound.accepts
  choose copies accepts using others.accepts
  let blobs : Region → List Byte := fun r => if r = .flashU202 then [] else copies r
  have short (r : Region) : (blobs r).length ≤ Region.room r := by
    dsimp only [blobs]
    split_ifs
    · exact Nat.zero_le _
    · exact (accepts r).short
  obtain ⟨blob, written, -⟩ := written_of_short short
  have prepared := prepare_of_snapshot written fun r => (own r).saved
  have saved (r : Region) (other : r ≠ .flashU202) : (loud b).save r = .ok (blobs r) :=
    (accepts r).saved.trans (congrArg Except.ok (if_neg other).symm)
  have accepted (r : Region) (other : r ≠ .flashU202) : ∃ s, decoded b blobs r = .ok s :=
    accepted_of_sound others sound (saved r other)
  have restored : (takeSteps (loadStep blobs) 0 regions b).1.audio = (loud b).audio := by
    obtain ⟨s, isAccepted⟩ := accepted .audio (by decide)
    rw [audio_reached sound.toBuilt accepted (show decoded b blobs .flashU202 = .error _ from rfl)]
    exact statesFrom_save others.toBuilt sound.toBuilt (saved .audio (by decide))
      (value_eq_valueOr isAccepted)
  obtain ⟨error, refused⟩ : ∃ error, (({ devices := b } : Bus).restore blob).2 = .error error := by
    rcases @restore_cases { devices := b } _ _ _ sound.toBuilt rfl prepared with
      ⟨all, -⟩ | ⟨_, _, _, _, -, -, ⟨-, undone⟩ | ⟨-, -, error, failed⟩⟩
    · cases all .flashU202
    · exact ⟨_, congrArg Prod.snd undone⟩
    · exact ⟨error, failed⟩
  refine ⟨{ devices := b }, blobs, before, blob, prepared, restored ▸ loud_audio b,
    ⟨error, refused⟩, ?_⟩
  rcases @restore_refused { devices := b } _ sound.toBuilt _ refused with
    same | ⟨-, -, ⟨_, -, back⟩, shown⟩ | ⟨⟨k, copy, reason, saved, rejected⟩, -⟩
  · rw [same]
    exact ⟨rfl, rfl⟩
  · exact ⟨back.devices .audio (by decide) (by decide), (shown (new_settled made)).2⟩
  · obtain ⟨s, accepted⟩ := accepted_of_sound sound sound saved
    cases rejected.symm.trans accepted

/-- The states that a finished restore has put in place. -/
theorem restoredAll_regions (states : (r : Region) → r.State) (t : Board) :
    (∀ r, r ≠ .irq → (restoredAll states regions t).get r = states r) ∧
      (restoredAll states regions t).wire =
        driveAll states regions { t.wire with toController := states .irq } := by
  refine ⟨fun r device => restoredAll_get Region.regions_nodup (Region.mem_regions r) device, ?_⟩
  have devices : Region.irq ∉ regions.drop 2 := by decide
  change (restoredAll states (.dram :: .irq :: regions.drop 2) t).wire = _
  rw [restoredAll_wire_behind devices]
  change _ = driveAll states (.dram :: .irq :: regions.drop 2) _
  rw [driveAll_cons, driveAll_cons]
  rfl

/-- A snapshot of a bus is another's only if every device's is. -/
theorem snapshot_eq_ok {m' : Bus} (taken : m.snapshot = .ok blob) :
    m'.snapshot = .ok blob ↔
      m'.unknownState = none ∧ ∀ r, m'.devices.save r = m.devices.save r := by
  obtain ⟨known, blobs, saved, written⟩ := snapshot_ok taken
  constructor
  · intro other
    obtain ⟨known', blobs', saved', written'⟩ := snapshot_ok other
    refine ⟨known', fun r => ?_⟩
    obtain ⟨set, opened, -, -, found⟩ := openSet_snapshot written
    obtain ⟨set', opened', -, -, found'⟩ := openSet_snapshot written'
    cases opened.symm.trans opened'
    have same := (found r).symm.trans (found' r)
    rw [saved r, saved' r, Option.some.inj same]
  · rintro ⟨known', same⟩
    rw [← taken]
    exact snapshot_congr (known'.trans known.symm) same

/-- The interrupt controller's snapshot is its registers. -/
theorem irq_snapshot_inj {c d : Irq.Controller} (same : Irq.snapshot c = Irq.snapshot d) :
    c = d := by
  obtain ⟨blob, saved, restored⟩ := Irq.restore_snapshot c
  obtain ⟨blob', saved', restored'⟩ := Irq.restore_snapshot d
  cases saved.symm.trans (same.trans saved')
  exact Except.ok.inj (restored.symm.trans restored')

/-- A restore that finishes has read every device from its blob. -/
theorem restore_ok (built : m.devices.Built) (accepted : (m.restore state).2 = .ok ()) :
    ∃ blobs before, prepare m.devices state = .ok (blobs, before) ∧
      (∀ r, decoded m.devices blobs r = .ok (statesFrom m.devices blobs r)) ∧
      (m.restore state).1 =
        { devices := restoredAll (statesFrom m.devices blobs) regions m.devices } := by
  cases known : m.unknownState with
  | some unknown =>
    rw [restore_unknown known] at accepted
    cases accepted
  | none =>
    cases isPrepared : prepare m.devices state with
    | error error =>
      unfold restore at accepted
      rw [known, isPrepared] at accepted
      cases accepted
    | ok prepared =>
      obtain ⟨blobs, before⟩ := prepared
      rcases restore_cases built known isPrepared with
        ⟨all, done⟩ | ⟨done, r, rest, error, -, -, ⟨-, undone⟩ | ⟨-, -, error, refused⟩⟩
      · exact ⟨blobs, before, rfl, all, congrArg Prod.fst done⟩
      · rw [undone] at accepted
        cases accepted
      · rw [refused] at accepted
        cases accepted

/-- What a bus takes from the snapshot of another: the devices, and every line driven to its
level. -/
structure Taken (source target : Board) (restored : Bus) : Prop where
  known : restored.unknownState = none
  devices : ∀ r, r ≠ .irq →
    restored.devices.get r = configured target.i2c.imagePath r (source.get r)
  wire : restored.devices.wire =
    driveAll source.get regions { target.wire with toController := source.wire.toController }

theorem Taken.enable {restored : Bus} (from_ : Taken b t restored) :
    restored.devices.wire.enable = b.wire.enable := by
  rw [from_.wire, driveAll_enable]

theorem Taken.pending {restored : Bus} (from_ : Taken b t restored) :
    restored.devices.wire.pending = (driveAll b.get regions b.wire).pending := by
  rw [from_.wire]
  exact driveAll_pending_congr rfl

/-- On a settled board no line is raised on the way. -/
theorem Taken.wire_of_settled {restored : Bus} (from_ : Taken b t restored) (settled : b.Settled) :
    restored.devices.wire = { t.wire with toController := b.wire.toController } := by
  rw [from_.wire]
  exact driveAll_of_level fun r _ => settled r

theorem restoredAll_taken {states : (r : Region) → r.State}
    (same : ∀ r, states r = configured t.i2c.imagePath r (b.get r)) :
    Taken b t { devices := restoredAll states regions t } := by
  obtain ⟨devices, wire⟩ := restoredAll_regions states t
  have levels (wire : Irq.Wire) : driveAll states regions wire = driveAll b.get regions wire := by
    refine driveAll_congr fun r _ wire => ?_
    rw [same r, drive_configured]
  rw [levels, same .irq] at wire
  exact ⟨rfl, fun r device => (devices r device).trans (same r), wire⟩

/-- The registers of the interrupt controller are as recorded on a settled board only. -/
theorem Taken.controller_iff {restored : Bus} (from_ : Taken b t restored) :
    restored.devices.wire.toController = b.wire.toController ↔ b.Settled := by
  rw [← driveAll_pending_iff, ← from_.pending]
  constructor
  · exact fun same => congrArg Irq.Controller.pending same
  · exact fun same => controller_eq same from_.enable

theorem Taken.saves_iff {restored : Bus} (from_ : Taken b t restored) :
    (∀ r, restored.devices.save r = b.save r) ↔ b.Settled := by
  rw [← from_.controller_iff]
  constructor
  · exact fun same => irq_snapshot_inj (same .irq)
  · intro controller r
    by_cases irq : r = .irq
    · subst irq
      exact congrArg Irq.snapshot controller
    · exact save_of_get (from_.devices r irq)

/-- An accepted snapshot is taken whole. -/
theorem taken_of_accepted {source target : Bus} (built : source.devices.Built)
    (onto : target.devices.Built) (taken : source.snapshot = .ok blob)
    (accepted : (target.restore blob).2 = .ok ()) :
    Taken source.devices target.devices (target.restore blob).1 := by
  obtain ⟨-, blobs, saved, written⟩ := snapshot_ok taken
  obtain ⟨blobs', before, prepared, all, restored⟩ := restore_ok onto accepted
  cases prepared.symm.trans (prepare_of_snapshot written (prepare_before prepared))
  rw [restored]
  exact restoredAll_taken fun r => statesFrom_save built onto (saved r) (all r)

theorem Taken.sound {restored : Bus} (from_ : Taken b t restored) (sound : b.Sound) :
    restored.devices.Sound := by
  refine sound.of_alike fun r device => ?_
  rw [from_.devices r device]
  cases r <;> rfl

/-- Sound devices that refuse a snapshot are all put back. -/
theorem refused_of_sound (sound : m.devices.Sound) {error : String}
    (refused : (m.restore state).2 = .error error) :
    (m.restore state).1.unknownState = m.unknownState ∧
      ((m.restore state).1.devices = m.devices ∨
        ∃ reached, reached <+: regions ∧ PutBack reached m.devices (m.restore state).1.devices) := by
  cases known : m.unknownState with
  | some unknown =>
    rw [restore_unknown known]
    exact ⟨known, .inl rfl⟩
  | none =>
    cases isPrepared : prepare m.devices state with
    | error error =>
      unfold restore
      rw [known, isPrepared]
      exact ⟨known, .inl rfl⟩
    | ok prepared =>
      obtain ⟨blobs, before⟩ := prepared
      have saved := prepare_before isPrepared
      rcases restore_cases sound.toBuilt known isPrepared with
        ⟨-, done⟩ | ⟨done, r, rest, error, split, -, ⟨accepted, undone⟩ | ⟨⟨k, -, error, own⟩, -⟩⟩
      · rw [done] at refused
        cases refused
      · rw [undone]
        refine ⟨rfl, .inr ⟨done ++ [r], ⟨rest, by simp [split]⟩, ?_⟩⟩
        exact putBack sound.toBuilt saved split (statesFrom m.devices blobs) accepted
      · obtain ⟨copy, accepts⟩ := sound.accepts k
        cases (saved k).symm.trans accepts.saved
        cases own.symm.trans accepts.decoded

/-- Devices that were put back are as they were, but for the configuration. -/
theorem PutBack.alike {reached : List Region} {b b' : Board} (undone : PutBack reached b b')
    (r : Region) (device : r ≠ .irq) : configured [] r (b'.get r) = configured [] r (b.get r) := by
  by_cases csi : r = .csi
  · subst csi
    change b'.csi.setAckPolicy Csi.defaultAckPolicy = b.csi.setAckPolicy Csi.defaultAckPolicy
    rcases undone.csi with same | same <;> rw [same]
    rfl
  · rw [undone.devices r device csi]

/-- **A bus's own snapshot.**  It is accepted if and only if every device accepts its own; then
every device is as recorded and every line at its level, and a snapshot of the restored bus is
the same bytes if and only if the lines were at their levels when it was taken. -/
theorem restores_bus_snapshot {source target : Bus} (built : source.devices.Built)
    (onto : target.devices.Built) (known : target.unknownState = none)
    (taken : source.snapshot = .ok blob) :
    ((target.restore blob).2 = .ok () ↔
      (∀ r, ∃ copy, target.devices.save r = .ok copy) ∧
        ∀ r copy, source.devices.save r = .ok copy →
          ∃ s, target.devices.decode copy r = .ok s) ∧
    ((target.restore blob).2 = .ok () →
      Taken source.devices target.devices (target.restore blob).1 ∧
        ((target.restore blob).1.snapshot = .ok blob ↔ source.devices.Settled)) := by
  obtain ⟨-, blobs, saved, written⟩ := snapshot_ok taken
  have read (accepted : (target.restore blob).2 = .ok ()) :
      (∀ r, ∃ copy, target.devices.save r = .ok copy) ∧
        ∀ r, decoded target.devices blobs r = .ok (statesFrom target.devices blobs r) := by
    obtain ⟨blobs', before, prepared, all, -⟩ := restore_ok onto accepted
    have copies := prepare_before prepared
    cases prepared.symm.trans (prepare_of_snapshot written copies)
    exact ⟨fun r => ⟨before r, copies r⟩, all⟩
  refine ⟨⟨fun accepted => ?_, fun ⟨copies, accepts⟩ => ?_⟩, fun accepted => ?_⟩
  · obtain ⟨copies, all⟩ := read accepted
    refine ⟨copies, fun r copy isCopy => ?_⟩
    cases (saved r).symm.trans isCopy
    exact ⟨_, all r⟩
  · choose before copied using copies
    rcases restore_cases onto known (prepare_of_snapshot written copied) with
      ⟨-, done⟩ | ⟨done, r, rest, error, -, refused, -⟩
    · exact congrArg Prod.snd done
    · obtain ⟨s, accepted⟩ := accepts r (blobs r) (saved r)
      cases refused.symm.trans accepted
  · have from_ := taken_of_accepted built onto taken accepted
    refine ⟨from_, ?_⟩
    rw [snapshot_eq_ok taken, ← from_.saves_iff]
    exact and_iff_right from_.known

/-- A board as it is assembled takes another's snapshot and shows the same bytes. -/
theorem erased_restores : ∃ (source target : Bus) (blob : List Byte),
    source.devices.audio ≠ target.devices.audio ∧ source.snapshot = .ok blob ∧
      (target.restore blob).2 = .ok () ∧
      (target.restore blob).1.devices.audio = source.devices.audio ∧
      (target.restore blob).1.snapshot = .ok blob := by
  obtain ⟨b, made⟩ := new_erased
  have sound := new_sound made
  have others := loud_sound sound
  obtain ⟨blob, taken, -⟩ := @snapshot_of_sound { devices := loud b } others rfl
  have accepted := @restore_of_sound _ { devices := loud b } { devices := b } others sound rfl taken
  obtain ⟨from_, shown⟩ :=
    (restores_bus_snapshot others.toBuilt sound.toBuilt rfl taken).2 accepted
  exact ⟨_, { devices := b }, blob, loud_audio b, taken, accepted, from_.devices .audio (by decide),
    shown.mpr (loud_settled (new_settled made))⟩

/-- A member of an accepted set is read from it. -/
theorem member_of_find {set : MemberSet} (found : set.members.find? r.name = some blob) :
    member b set r = .ok blob := by
  unfold member
  rw [found]

/-- The audio control of a version without one is the one attached. -/
theorem member_legacy {set : MemberSet} (legacy : set.version = legacyBeforeAudioVer)
    (absent : set.members.find? Region.audio.name = none)
    (read : member b set .audio = .ok blob) : b.save .audio = .ok blob := by
  unfold member at read
  rw [absent, if_pos ⟨legacy, rfl⟩] at read
  exact labelled_ok.mp read

theorem find?_isSome {members : Members} {name : List Byte} :
    (members.find? name).isSome ↔ name ∈ members.names := by
  unfold Members.names
  constructor
  · intro found
    obtain ⟨blob, here⟩ := Option.isSome_iff_exists.mp found
    exact List.mem_map_of_mem (Members.find?_eq_some.mp here)
  · intro member
    obtain ⟨⟨_, blob⟩, entry, rfl⟩ := List.mem_map.mp member
    rw [Members.find?_eq_some.mpr entry]
    rfl

/-- What a prepared restore has opened. -/
theorem prepare_ok (prepared : prepare b state = .ok (blobs, before)) :
    ∃ set, openSet state snapWriter legacyBeforeAudioVer snapVersion = .ok set ∧
      (∀ name, name ∈ required set.version ↔ name ∈ set.members.names) ∧
      ∀ r, member b set r = .ok (blobs r) := by
  obtain ⟨set, opened, prepared⟩ := bind_eq_ok.mp prepared
  obtain ⟨_, accepted, prepared⟩ := bind_eq_ok.mp prepared
  obtain ⟨members, gathered, prepared⟩ := bind_eq_ok.mp prepared
  obtain ⟨copies, -, returned⟩ := bind_eq_ok.mp prepared
  cases returned
  exact ⟨set, labelled_ok.mp opened, (require_iff _ set).mp (labelled_ok.mp accepted),
    fun r => gather_ok gathered r (Region.mem_regions r)⟩

/-- A version's snapshot describes a device, unless it is the audio control of the first. -/
theorem mem_required {version : Half} :
    r.name ∈ required version ↔ r ≠ .audio ∨ version ≠ legacyBeforeAudioVer := by
  have attached : r.name ∈ regions.map Region.name := List.mem_map_of_mem (Region.mem_regions r)
  have named : r.name = Region.audio.name ↔ r = .audio :=
    ⟨Region.name_injective, fun same => by rw [same]⟩
  change r.name = legacyAudioControl ↔ r = .audio at named
  unfold required
  split
  next legacy => simp [attached, named, legacy]
  next current => simp [current, attached]

theorem audio_snapshot_inj {c d : Audio.Control} (same : c.snapshot = d.snapshot) : c = d := by
  have saved : c.blobOf = d.blobOf := by
    rw [Audio.Control.snapshot_eq, Audio.Control.snapshot_eq] at same
    exact Except.ok.inj same
  have restored := Audio.Control.restore_blobOf c
  rw [saved, Audio.Control.restore_blobOf] at restored
  exact (Except.ok.inj restored).symm

/-- A state that two boards of one build read from one blob. -/
theorem states_alike (built : b.Built) (built' : t.Built) (same : blobs r = before r)
    (first : decoded b blobs r = .ok (statesFrom b blobs r))
    (second : decoded t before r = .ok (statesFrom t before r)) :
    configured [] r (statesFrom b blobs r) = configured [] r (statesFrom t before r) := by
  have alike := decode_alike built built' (blobs r) r
  unfold decoded at first second
  rw [first, same, second] at alike
  exact Except.ok.inj alike

/-- **What a restore depends on.**  Restored from one blob, two buses of the same build show the
same devices, except that the audio control, which the first version leaves out, stays as it was
on each; so they show the same snapshot if and only if those agree or the version is later. -/
theorem restored_bus_depends {m' : Bus} (built : m.devices.Built) (built' : m'.devices.Built)
    (accepted : (m.restore state).2 = .ok ()) (accepted' : (m'.restore state).2 = .ok ()) :
    let n := (m.restore state).1
    let n' := (m'.restore state).1
    ∃ set, openSet state snapWriter legacyBeforeAudioVer snapVersion = .ok set ∧
      (∀ r, r ≠ .audio ∨ set.version ≠ legacyBeforeAudioVer →
        n.devices.save r = n'.devices.save r) ∧
      (set.version = legacyBeforeAudioVer →
        n.devices.audio = m.devices.audio ∧ n'.devices.audio = m'.devices.audio) ∧
      ∀ blob, n.snapshot = .ok blob →
        (n'.snapshot = .ok blob ↔
          (set.version = legacyBeforeAudioVer → m.devices.audio = m'.devices.audio)) := by
  intro n n'
  obtain ⟨blobs, before, prepared, all, restored⟩ := restore_ok built accepted
  obtain ⟨blobs', before', prepared', all', restored'⟩ := restore_ok built' accepted'
  obtain ⟨set, opened, names, members⟩ := prepare_ok prepared
  obtain ⟨set', opened', -, members'⟩ := prepare_ok prepared'
  cases opened.symm.trans opened'
  have devices := restoredAll_regions (statesFrom m.devices blobs) m.devices
  have devices' := restoredAll_regions (statesFrom m'.devices blobs') m'.devices
  have described (r : Region) : r.name ∈ set.members.names ↔
      r ≠ .audio ∨ set.version ≠ legacyBeforeAudioVer :=
    (names r.name).symm.trans mem_required
  have same (r : Region) (here : r ≠ .audio ∨ set.version ≠ legacyBeforeAudioVer) :
      configured [] r (statesFrom m.devices blobs r) =
        configured [] r (statesFrom m'.devices blobs' r) := by
    obtain ⟨blob, found⟩ := Option.isSome_iff_exists.mp (find?_isSome.mpr ((described r).mpr here))
    refine states_alike built built' ?_ (all r) (all' r)
    exact (Except.ok.inj ((member_of_find found).symm.trans (members r))).symm.trans
      (Except.ok.inj ((member_of_find found).symm.trans (members' r)))
  have legacy (old : set.version = legacyBeforeAudioVer) :
      n.devices.audio = m.devices.audio ∧ n'.devices.audio = m'.devices.audio := by
    have absent : set.members.find? Region.audio.name = none := by
      rw [← Option.not_isSome_iff_eq_none, find?_isSome, described]
      simp [old]
    have kept := member_legacy old absent (members .audio)
    have kept' := member_legacy old absent (members' .audio)
    constructor
    · change n.devices.get .audio = _
      rw [show n = _ from restored, devices.1 .audio (by decide)]
      exact statesFrom_save built built kept (all .audio)
    · change n'.devices.get .audio = _
      rw [show n' = _ from restored', devices'.1 .audio (by decide)]
      exact statesFrom_save built' built' kept' (all' .audio)
  have controller : n.devices.wire.toController = n'.devices.wire.toController := by
    have irq : statesFrom m.devices blobs .irq = statesFrom m'.devices blobs' .irq :=
      same .irq (.inl (by decide))
    have levels (wire : Irq.Wire) : driveAll (statesFrom m.devices blobs) regions wire =
        driveAll (statesFrom m'.devices blobs') regions wire := by
      refine driveAll_congr fun r _ wire => ?_
      by_cases here : r ≠ .audio ∨ set.version ≠ legacyBeforeAudioVer
      · rw [← @drive_configured r _ wire [], same r here, drive_configured]
      · obtain rfl := not_not.mp (not_or.mp here).1
        rfl
    rw [show n = _ from restored, show n' = _ from restored']
    dsimp only
    rw [devices.2, devices'.2, levels, irq]
    refine controller_eq (driveAll_pending_congr rfl) ?_
    rw [driveAll_enable, driveAll_enable]
  have saves (r : Region) (here : r ≠ .audio ∨ set.version ≠ legacyBeforeAudioVer) :
      n.devices.save r = n'.devices.save r := by
    by_cases irq : r = .irq
    · subst irq
      exact congrArg Irq.snapshot controller
    · refine save_of_alike ?_
      rw [show n = _ from restored, show n' = _ from restored', devices.1 r irq, devices'.1 r irq]
      exact same r here
  refine ⟨set, opened, saves, legacy, fun blob taken => ?_⟩
  rw [snapshot_eq_ok taken]
  constructor
  · rintro ⟨-, shown⟩ old
    rw [← (legacy old).1, ← (legacy old).2]
    exact audio_snapshot_inj (shown .audio).symm
  · intro agree
    refine ⟨by rw [show n' = _ from restored'], fun r => ?_⟩
    by_cases here : r ≠ .audio ∨ set.version ≠ legacyBeforeAudioVer
    · exact (saves r here).symm
    · obtain ⟨isAudio, old⟩ := not_or.mp here
      obtain rfl := not_not.mp isAudio
      have kept := legacy (not_not.mp old)
      change Audio.Control.snapshot n'.devices.audio = Audio.Control.snapshot n.devices.audio
      rw [kept.1, kept.2, agree (not_not.mp old)]

/-- Two boards that differ in the audio control are alike once both are restored. -/
theorem erased_depends : ∃ m m' : Bus, ∃ blob, m.devices.audio ≠ m'.devices.audio ∧
    (m.restore blob).2 = .ok () ∧ (m'.restore blob).2 = .ok () ∧
      ((m.restore blob).1.devices.audio = m.devices.audio ∨
        ∀ r, (m.restore blob).1.devices.save r = (m'.restore blob).1.devices.save r) := by
  obtain ⟨b, made⟩ := new_erased
  have sound := new_sound made
  have sound' := loud_sound sound
  obtain ⟨blob, taken, -⟩ := @snapshot_of_sound { devices := b } sound rfl
  have accepted := @restore_of_sound _ { devices := b } { devices := b } sound sound rfl taken
  have accepted' := @restore_of_sound _ { devices := b } { devices := loud b } sound sound' rfl
    taken
  obtain ⟨set, -, same, legacy, -⟩ :=
    restored_bus_depends sound.toBuilt sound'.toBuilt accepted accepted'
  refine ⟨_, _, blob, (loud_audio b).symm, accepted, accepted', ?_⟩
  · by_cases old : set.version = legacyBeforeAudioVer
    · exact .inl (legacy old).1
    · exact .inr fun r => same r (.inr old)

end Bus

end Board

end GoRetroTv
