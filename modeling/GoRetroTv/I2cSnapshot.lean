import GoRetroTv.FallibleActions
import GoRetroTv.I2cController
import GoRetroTv.SnapshotRecords

/-!
# The serial bus master's snapshot

What the transfer registers and the slaves maintain, that the master's snapshot
is then read back whole, and that a fault text too long for `Restore` is the
only way out.
-/

namespace GoRetroTv

namespace I2c

open Snapcodec Cpu

namespace Controller

/-- The state `Restore` accepts, but for the fault. -/
structure Transferring (c : Controller) : Prop where
  addressBytes : c.addressBytes.toNat ≤ 2
  pointer : c.pointer.toNat < Eeprom.capacity
  demod : ∀ m ∈ c.demod, m.WellFormed

/-- The state `Restore` accepts. -/
structure WellFormed (c : Controller) : Prop extends Transferring c where
  fault : c.fault.length ≤ 256

theorem new_wellFormed (store : Option Eeprom.Store) (demod : Option Demod.Model)
    (wellFormed : ∀ m ∈ demod, m.WellFormed) (imagePath : List Byte) :
    WellFormed { store, demod, imagePath } where
  addressBytes := Nat.zero_le 2
  pointer := Nat.two_pow_pos 14
  demod := wellFormed
  fault := Nat.zero_le 256

theorem and_mask_lt (value : Half) : (value &&& 0x3fff).toNat < Eeprom.capacity := by
  rw [BitVec.toNat_and]
  exact Nat.lt_of_le_of_lt Nat.and_le_right (by decide)

/-- The address within a page moves, the page does not. -/
theorem page_step_lt {pointer : Half} (inside : pointer.toNat < Eeprom.capacity) :
    (pointer &&& ~~~63 ||| (pointer + 1) &&& 63).toNat < Eeprom.capacity := by
  have page : (pointer &&& ~~~63).toNat < 2 ^ 14 := by
    rw [BitVec.toNat_and]
    exact Nat.lt_of_le_of_lt Nat.and_le_left inside
  have place : ((pointer + 1) &&& 63).toNat < 2 ^ 14 := by
    rw [BitVec.toNat_and]
    exact Nat.lt_of_le_of_lt Nat.and_le_right (by decide)
  rw [BitVec.toNat_or]
  exact Nat.or_lt_two_pow page place

theorem writeStore_wellFormed {c : Controller} (wellFormed : c.WellFormed) (value : Byte) :
    (c.writeStore value).WellFormed := by
  have pointer := wellFormed.pointer
  unfold writeStore
  split
  next first =>
    refine ⟨⟨?_, ?_, wellFormed.demod⟩, wellFormed.fault⟩
    · dsimp only
      rw [BitVec.toNat_add, first]
      decide
    · dsimp only
      rw [BitVec.toNat_and]
      exact Nat.lt_of_le_of_lt Nat.and_le_right (by decide)
  next second =>
    refine ⟨⟨?_, and_mask_lt _, wellFormed.demod⟩, wellFormed.fault⟩
    dsimp only
    rw [BitVec.toNat_add, second]
    decide
  · split
    · exact wellFormed
    · exact ⟨⟨wellFormed.addressBytes, page_step_lt pointer, wellFormed.demod⟩, wellFormed.fault⟩

theorem writeDemod_wellFormed {c : Controller} (wellFormed : c.WellFormed) (value : Byte) :
    (c.writeDemod value).WellFormed := by
  unfold writeDemod
  split
  · exact wellFormed
  next demod isDemod =>
    refine ⟨⟨wellFormed.addressBytes, wellFormed.pointer, ?_⟩, wellFormed.fault⟩
    intro m isEntry
    rw [← Option.some.inj isEntry]
    exact Demod.Model.shiftWrite_wellFormed (wellFormed.demod demod isDemod) value

theorem startDemod_wellFormed {c : Controller} (wellFormed : c.WellFormed) :
    c.startDemod.WellFormed := by
  unfold startDemod
  split
  next demod isDemod =>
    split
    · refine ⟨⟨wellFormed.addressBytes, wellFormed.pointer, ?_⟩, wellFormed.fault⟩
      intro m isEntry
      have sound := wellFormed.demod demod isDemod
      rw [← Option.some.inj isEntry]
      exact ⟨sound.sorted, sound.bounded⟩
    · exact wellFormed
  · exact wellFormed

theorem address_wellFormed {c : Controller} (wellFormed : c.WellFormed) (value : Byte) :
    (c.address value).WellFormed := by
  unfold address
  apply startDemod_wellFormed
  split
  · exact ⟨⟨Nat.zero_le 2, wellFormed.pointer, wellFormed.demod⟩, wellFormed.fault⟩
  · exact ⟨⟨wellFormed.addressBytes, wellFormed.pointer, wellFormed.demod⟩, wellFormed.fault⟩

theorem complete_wellFormed {c : Controller} (wellFormed : c.WellFormed) (ack : Bool)
    (wire : Irq.Wire) : (c.complete ack wire).1.WellFormed :=
  ⟨⟨wellFormed.addressBytes, wellFormed.pointer, wellFormed.demod⟩, wellFormed.fault⟩

theorem writeData_wellFormed {c : Controller} (wellFormed : c.WellFormed) (value : Byte)
    (wire : Irq.Wire) : (c.writeData value wire).1.WellFormed := by
  have loaded : WellFormed { c with data := value.setWidth 32 } :=
    ⟨⟨wellFormed.addressBytes, wellFormed.pointer, wellFormed.demod⟩, wellFormed.fault⟩
  unfold writeData
  dsimp only
  split
  · exact complete_wellFormed (address_wellFormed loaded value) _ _
  · apply complete_wellFormed
    split
    · exact writeStore_wellFormed loaded value
    · split
      · exact writeDemod_wellFormed loaded value
      · exact loaded

/-- The host's error texts fit the fault field. -/
def ShortTexts (persist : Persist) : Prop :=
  ∀ path store error, persist path store = some error → error.length ≤ 256

theorem stop_wellFormed {c : Controller} (wellFormed : c.WellFormed) {persist : Persist}
    (short : ShortTexts persist) : (c.stop persist).WellFormed := by
  have stopped {c' : Controller} (sound : c'.WellFormed) :
      WellFormed { c' with active := false, startArmed := false, dirty := false } :=
    ⟨⟨sound.addressBytes, sound.pointer, sound.demod⟩, sound.fault⟩
  unfold stop
  apply stopped
  split
  · split
    · split
      next error failed =>
        exact ⟨⟨wellFormed.addressBytes, wellFormed.pointer, wellFormed.demod⟩,
          short _ _ error failed⟩
      · exact wellFormed
    · exact wellFormed
  · exact wellFormed

theorem receive_wellFormed {c : Controller} (wellFormed : c.WellFormed) :
    c.receive.WellFormed := by
  unfold receive
  split
  · split
    · exact ⟨⟨wellFormed.addressBytes, and_mask_lt _, wellFormed.demod⟩, wellFormed.fault⟩
    next demod _ isDemod _ =>
      refine ⟨⟨wellFormed.addressBytes, wellFormed.pointer, ?_⟩, wellFormed.fault⟩
      intro m isEntry
      rw [← Option.some.inj isEntry]
      exact Demod.Model.shiftRead_wellFormed (wellFormed.demod demod isDemod)
    · exact ⟨⟨wellFormed.addressBytes, wellFormed.pointer, wellFormed.demod⟩, wellFormed.fault⟩
  · exact ⟨⟨wellFormed.addressBytes, wellFormed.pointer, wellFormed.demod⟩, wellFormed.fault⟩

theorem write_wellFormed {c : Controller} (wellFormed : c.WellFormed) {persist : Persist}
    (short : ShortTexts persist) (off : Word) (size : Size) (value : Word) (wire : Irq.Wire) :
    (c.write persist off size value wire).1.WellFormed := by
  have set (control clock enable : Word) (startArmed : Bool) :
      WellFormed { c with control, clock, enable, startArmed } :=
    ⟨⟨wellFormed.addressBytes, wellFormed.pointer, wellFormed.demod⟩, wellFormed.fault⟩
  have controlled := set (value &&& 0xff) c.clock c.enable c.startArmed
  unfold write
  split
  · exact wellFormed
  · split
    · dsimp only
      split
      · exact stop_wellFormed controlled short
      · exact set (value &&& 0xff) c.clock c.enable true
      · exact complete_wellFormed (receive_wellFormed controlled) true wire
      · exact complete_wellFormed (receive_wellFormed controlled) true wire
      · exact controlled
    · exact set c.control (value &&& 0xff) c.enable c.startArmed
    · exact writeData_wellFormed wellFormed _ wire
    · exact wellFormed
    · exact set c.control c.clock (value &&& 1) c.startArmed
    · exact wellFormed

theorem bindImage_wellFormed {c : Controller} (wellFormed : c.WellFormed) (path : List Byte)
    (loaded : Option Eeprom.Store) : (c.bindImage path loaded).WellFormed := by
  unfold bindImage
  split
  · exact ⟨⟨wellFormed.addressBytes, wellFormed.pointer, wellFormed.demod⟩, wellFormed.fault⟩
  · exact wellFormed

/-- What the guest and the host do to the master. -/
inductive Action where
  | write (persist : Persist) (off : Word) (size : Size) (value : Word)
  | bindImage (path : List Byte) (loaded : Option Eeprom.Store)
  | reset

def perform (action : Action) (attached : Attached) : Attached :=
  match action with
  | .write persist off size value => attached.1.write persist off size value attached.2
  | .bindImage path loaded => (attached.1.bindImage path loaded, attached.2)
  | .reset => attached.1.reset attached.2

def run (actions : List Action) (attached : Attached) : Attached :=
  actions.foldl (fun attached action => perform action attached) attached

/-- Every failure to make the store durable is told in at most 256 bytes. -/
def ShortFaults (actions : List Action) : Prop :=
  ∀ persist off size value, .write persist off size value ∈ actions → ShortTexts persist

theorem run_wellFormed {actions : List Action} {attached : Attached}
    (wellFormed : attached.1.WellFormed) (short : ShortFaults actions) :
    (run actions attached).1.WellFormed := by
  induction actions generalizing attached with
  | nil => exact wellFormed
  | cons action actions ih =>
      apply ih
      · cases action with
        | write persist off size value =>
            exact write_wellFormed wellFormed
              (short persist off size value List.mem_cons_self) off size value attached.2
        | bindImage path loaded => exact bindImage_wellFormed wellFormed path loaded
        | reset => exact new_wellFormed _ _ wellFormed.demod _
      · intro persist off size value member
        exact short persist off size value (List.mem_cons_of_mem _ member)

def encodeSlave (state : Option (List Byte)) : List Byte :=
  encodeBool state.isSome ++ (state.map encodeBytes).getD []

def encodeController (c : Controller) : List Byte :=
  encodeWords c.registers ++
    (encodeBool c.startArmed ++
      (encodeBool c.active ++
        (encodeBool c.dirty ++
          (bigEndian 1 c.slave.toNat ++
            (bigEndian 2 c.pointer.toNat ++
              (bigEndian 1 c.addressBytes.toNat ++
                (encodeBytes c.fault ++
                  (encodeSlave (c.store.map Eeprom.blobOf) ++
                    encodeSlave (c.demod.map Demod.Model.blobOf)))))))))

/-- A slave's state fits its field of the master's snapshot. -/
def SlaveFits (state : Option (List Byte)) : Prop :=
  ∀ blob ∈ state, blob.length < wordLimit

theorem writeSlave_mk {state : Option (List Byte)} (fits : SlaveFits state) (name : List Byte)
    (version : Half) (payload : List Byte) :
    writeSlave state ⟨name, version, payload, none⟩ =
      ⟨name, version, payload ++ encodeSlave state, none⟩ := by
  cases state with
  | none => simp [writeSlave, encodeSlave]
  | some blob =>
      simp only [writeSlave, Writer.bool_mk, Writer.bytes_mk _ _ _ (fits blob rfl)]
      simp [encodeSlave]

theorem reads_readSlave {state : Option (List Byte)} (fits : SlaveFits state) :
    Reads readSlave (encodeSlave state) state := by
  cases state with
  | none => exact Reads.bind (.bool false) (Reads.pure none)
  | some blob =>
      apply Reads.bind (.bool true)
      exact Reads.map some (.bytes (fits blob rfl))

theorem registers_fit (c : Controller) : c.registers.length < wordLimit :=
  show 5 < wordLimit by decide

theorem store_fits (c : Controller) : SlaveFits (c.store.map Eeprom.blobOf) := by
  intro blob isBlob
  obtain ⟨store, _, rfl⟩ := Option.map_eq_some_iff.mp isBlob
  exact Eeprom.blobOf_fits store

theorem slaveState_some {α : Type} {save : α → Except String (List Byte)} {slave : α}
    {state : List Byte} (saved : save slave = .ok state) (label : String) :
    slaveState save label (some slave) = .ok (some state) := by
  simp only [slaveState, saved]

theorem restoreSlave_some {α : Type} {load : List Byte → Except String α} {state : List Byte}
    {slave : α} (loaded : load state = .ok slave) (label : String) (bound : α) :
    restoreSlave load label (some state) (some bound) = .ok (some slave) := by
  simp only [restoreSlave, Option.getD_some, loaded]

section Snapshot

variable {c : Controller} (transferring : c.Transferring) (faultFits : c.fault.length < wordLimit)

include transferring

theorem demod_fits : SlaveFits (c.demod.map Demod.Model.blobOf) := by
  intro blob isBlob
  obtain ⟨demod, isDemod, rfl⟩ := Option.map_eq_some_iff.mp isBlob
  exact Demod.Model.blobOf_fits (transferring.demod demod isDemod)

theorem slaveStates :
    slaveState Eeprom.snapshot "i2c: snapshot EEPROM: " c.store =
        .ok (c.store.map Eeprom.blobOf) ∧
      slaveState Demod.Model.snapshot "i2c: snapshot demod: " c.demod =
        .ok (c.demod.map Demod.Model.blobOf) := by
  constructor
  · cases c.store with
    | none => rfl
    | some store => exact slaveState_some (Eeprom.snapshot_eq store) _
  · cases isDemod : c.demod with
    | none => rfl
    | some demod =>
        exact slaveState_some (Demod.Model.snapshot_eq (transferring.demod demod isDemod)) _

include faultFits

theorem snapshot_eq_blob :
    c.snapshot = Writer.blob ⟨ascii "i2c-master", 2, encodeController c, none⟩ := by
  obtain ⟨store, demod⟩ := slaveStates transferring
  simp only [snapshot, store, demod, bind, Except.bind,
    newWriter_eq 2 (show ascii "i2c-master" ≠ [] by decide) (by decide),
    Writer.words_mk _ _ _ (registers_fit c), Writer.bool_mk, Writer.uint8_mk, Writer.uint16_mk,
    Writer.string_mk _ _ _ faultFits, writeSlave_mk (store_fits c),
    writeSlave_mk (demod_fits transferring), encodeController, List.nil_append,
    List.append_assoc]

/-- What a restore decodes: everything, unless the fault is too long. -/
theorem readSnapshot_parses {d : Controller} (sameStore : d.store.isSome = c.store.isSome)
    (sameDemod : d.demod.isSome = c.demod.isSome) :
    Parses (d.readSnapshot 2) (encodeController c)
      (if c.fault.length ≤ 256 then
        .ok {
          regs := c.registers
          armed := c.startArmed
          active := c.active
          dirty := c.dirty
          slave := c.slave
          pointer := c.pointer
          addressBytes := c.addressBytes
          fault := c.fault
          storeState := c.store.map Eeprom.blobOf
          demodState := c.demod.map Demod.Model.blobOf }
      else .error "i2c: restore: invalid state") := by
  unfold readSnapshot encodeController
  apply Parses.bind (.words (registers_fit c))
  apply Parses.bind (.bool c.startArmed)
  apply Parses.bind (.bool c.active)
  apply Parses.bind (.bool c.dirty)
  apply Parses.bind (.uint8 c.slave)
  apply Parses.bind (.uint16 c.pointer)
  apply Parses.bind (.uint8 c.addressBytes)
  apply Parses.bind (.string faultFits)
  rw [if_pos (show (2 : Half) ≤ 2 by decide)]
  apply Parses.bind (reads_readSlave (store_fits c))
  apply Parses.bind_last (reads_readSlave (demod_fits transferring))
  apply Parses.wrapDone
  split
  next short =>
    apply Parses.require
    · rw [decide_eq_true_iff]
      exact ⟨rfl, transferring.addressBytes, transferring.pointer, short⟩
    apply Parses.require
    · rw [show ((2 : Half) == 1) = false by decide]
      rfl
    apply Parses.require
    · rw [Option.isSome_map, Option.isSome_map, sameStore, sameDemod]
      simp
    exact Parses.pure [] _
  next long =>
    rw [decide_eq_false (by rintro ⟨_, _, _, short⟩; exact long short)]
    exact Parses.throw [] _

/-- Restoring a controller's own snapshot, here or where the same slaves are
bound. -/
theorem restore_blob (payloadFits : (encodeController c).length < wordLimit) {d : Controller}
    (sameStore : d.store.isSome = c.store.isSome) (sameDemod : d.demod.isSome = c.demod.isSome)
    (wire : Irq.Wire) :
    d.restore (Writer.frame (ascii "i2c-master") 2 (encodeController c)) wire =
      if c.fault.length ≤ 256 then
        .ok ({ c with imagePath := d.imagePath },
          wire.setLine irqMask (c.enable ≠ 0 ∧ c.status ≠ 0))
      else .error "i2c: restore: invalid state" := by
  have decoded : restoringVersion (Writer.frame (ascii "i2c-master") 2 (encodeController c))
      (ascii "i2c-master") 1 2 "i2c: restore: " d.readSnapshot = _ :=
    restoringVersion_frame (by decide) payloadFits (by decide) (by decide)
      (readSnapshot_parses transferring faultFits sameStore sameDemod)
  have store : restoreSlave Eeprom.restore "i2c: restore EEPROM: " (c.store.map Eeprom.blobOf)
      d.store = .ok c.store := by
    cases isStore : c.store with
    | none =>
        rw [isStore, Option.isSome_none, Option.isSome_eq_false_iff, Option.isNone_iff_eq_none]
          at sameStore
        rw [sameStore]
        rfl
    | some store =>
        rw [isStore, Option.isSome_some] at sameStore
        obtain ⟨other, isOther⟩ := Option.isSome_iff_exists.mp sameStore
        rw [isOther]
        exact restoreSlave_some (Eeprom.restore_blobOf store) _ other
  have demod : restoreSlave Demod.Model.restore "i2c: restore demod: "
      (c.demod.map Demod.Model.blobOf) d.demod = .ok c.demod := by
    cases isDemod : c.demod with
    | none =>
        rw [isDemod, Option.isSome_none, Option.isSome_eq_false_iff, Option.isNone_iff_eq_none]
          at sameDemod
        rw [sameDemod]
        rfl
    | some demod =>
        rw [isDemod, Option.isSome_some] at sameDemod
        obtain ⟨other, isOther⟩ := Option.isSome_iff_exists.mp sameDemod
        rw [isOther]
        exact restoreSlave_some
          (Demod.Model.restore_blobOf (transferring.demod demod isDemod)) _ other
  unfold restore
  rw [decoded]
  split
  · simp only [bind, Except.bind, store, demod, pure, Except.pure]
    rfl
  · rfl

end Snapshot

theorem encodeSlave_length_le {state : Option (List Byte)} {bound : Nat}
    (small : ∀ blob ∈ state, blob.length ≤ bound) :
    (encodeSlave state).length ≤ 5 + bound := by
  cases state with
  | none =>
      simp [encodeSlave, encodeBool]
      omega
  | some blob =>
      have := small blob rfl
      simp [encodeSlave, encodeBool]
      omega

theorem encodeController_length_le {c : Controller} (transferring : c.Transferring)
    (fault : c.fault.length ≤ 65536) : (encodeController c).length ≤ 0x200000 := by
  have store : (encodeSlave (c.store.map Eeprom.blobOf)).length ≤ 5 + 100000 := by
    apply encodeSlave_length_le
    intro blob isBlob
    obtain ⟨store, _, rfl⟩ := Option.map_eq_some_iff.mp isBlob
    rw [Eeprom.blobOf, frame_length, encodeBytes_length, cells_length]
    simp [headerSize, ascii]
  have demod : (encodeSlave (c.demod.map Demod.Model.blobOf)).length ≤ 5 + 400000 := by
    apply encodeSlave_length_le
    intro blob isBlob
    obtain ⟨demod, isDemod, rfl⟩ := Option.map_eq_some_iff.mp isBlob
    have length := Demod.Model.encodeModel_length (transferring.demod demod isDemod)
    rw [Demod.Model.blobOf, frame_length]
    simp only [headerSize, ascii, Demod.maxWrittenRegisters] at length ⊢
    simp
    omega
  simp only [encodeController, List.length_append, encodeWords_length, registers,
    List.length_cons, List.length_nil, encodeBool, bigEndian_length, encodeBytes_length]
    at store demod ⊢
  omega

theorem encodeController_fits {c : Controller} (transferring : c.Transferring)
    (fault : c.fault.length ≤ 65536) : (encodeController c).length < wordLimit :=
  (encodeController_length_le transferring fault).trans_lt (by decide)

/-- The same slaves are bound to both. -/
def SameSlaves (c d : Controller) : Prop :=
  d.store.isSome = c.store.isSome ∧ d.demod.isSome = c.demod.isSome

/-- The master accepts its own snapshot and every field comes back. -/
theorem restore_snapshot {c : Controller} (wellFormed : c.WellFormed) :
    ∃ blob, c.snapshot = .ok blob ∧
      ∀ d wire, c.SameSlaves d → d.restore blob wire =
        .ok ({ c with imagePath := d.imagePath },
          wire.setLine irqMask (c.enable ≠ 0 ∧ c.status ≠ 0)) := by
  have payloadFits := encodeController_fits wellFormed.toTransferring
    (wellFormed.fault.trans (by decide))
  have faultFits : c.fault.length < wordLimit := wellFormed.fault.trans_lt (by decide)
  refine ⟨Writer.frame (ascii "i2c-master") 2 (encodeController c), ?_, fun d wire same => ?_⟩
  · rw [snapshot_eq_blob wellFormed.toTransferring faultFits]
    exact Writer.blob_mk _ _ _ (by decide) payloadFits
  · rw [restore_blob wellFormed.toTransferring faultFits payloadFits same.1 same.2,
      if_pos wellFormed.fault]

/-- The bytes of a snapshot. -/
theorem snapshot_frame {c : Controller} (wellFormed : c.WellFormed) :
    c.snapshot = .ok (Writer.frame (ascii "i2c-master") 2 (encodeController c)) := by
  rw [snapshot_eq_blob wellFormed.toTransferring (wellFormed.fault.trans_lt (by decide))]
  exact Writer.blob_mk _ _ _ (by decide)
    (encodeController_fits wellFormed.toTransferring (wellFormed.fault.trans (by decide)))

/-- The payload of a controller whose slaves are in these states. -/
def encodeWith (storeState demodState : Option (List Byte)) (c : Controller) : List Byte :=
  encodeWords c.registers ++
    (encodeBool c.startArmed ++
      (encodeBool c.active ++
        (encodeBool c.dirty ++
          (bigEndian 1 c.slave.toNat ++
            (bigEndian 2 c.pointer.toNat ++
              (bigEndian 1 c.addressBytes.toNat ++
                (encodeBytes c.fault ++ (encodeSlave storeState ++ encodeSlave demodState))))))))

theorem written_slave {name payload : List Byte} {version : Half} {w : Writer}
    (written : Written name version payload w) (state : Option (List Byte)) :
    Written name version (payload ++ encodeSlave state) (writeSlave state w) := by
  cases state with
  | none => simpa [writeSlave, encodeSlave] using written.bool false
  | some blob => simpa [writeSlave, encodeSlave] using (written.bool true).bytes blob

theorem written (storeState demodState : Option (List Byte)) (c : Controller) :
    Written (ascii "i2c-master") 2 (encodeWith storeState demodState c)
      (writeSlave demodState <| writeSlave storeState <|
        newWriter (ascii "i2c-master") 2
          |>.words c.registers
          |>.bool c.startArmed
          |>.bool c.active
          |>.bool c.dirty
          |>.uint8 c.slave
          |>.uint16 c.pointer
          |>.uint8 c.addressBytes
          |>.string c.fault) := by
  have transfer := (Written.start (ascii "i2c-master") 2).words c.registers
    |>.bool c.startArmed |>.bool c.active |>.bool c.dirty |>.uint8 c.slave |>.uint16 c.pointer
    |>.uint8 c.addressBytes |>.string c.fault
  have fields := written_slave (written_slave transfer storeState) demodState
  simpa only [encodeWith, List.nil_append, List.append_assoc] using fields

theorem readSlave_accepted {state : Option (List Byte)}
    (fits : (encodeSlave state).length < wordLimit) :
    ReadsIfAccepted readSlave (encodeSlave state) state := by
  refine .of_reads (reads_readSlave ?_)
  rintro blob rfl
  simp only [encodeSlave, Option.map_some, Option.getD_some, List.length_append,
    encodeBytes_length] at fits
  omega

/-- A slave that is bound here and accepts the state it was saved in is as it
was. -/
theorem restoreSlave_exact {α : Type} {save : α → Except String (List Byte)}
    {load : List Byte → Except String α} {saveLabel loadLabel : String}
    (exact : ∀ {slave restored state}, save slave = .ok state → load state = .ok restored →
      restored = slave)
    {slave bound restored : Option α} {state : Option (List Byte)}
    (saved : slaveState save saveLabel slave = .ok state)
    (accepted : restoreSlave load loadLabel state bound = .ok restored)
    (same : bound.isSome = slave.isSome) : restored = slave := by
  cases slave with
  | none =>
      rw [Option.isSome_none, Option.isSome_eq_false_iff, Option.isNone_iff_eq_none] at same
      subst same
      exact (Except.ok.inj accepted).symm
  | some slave =>
      obtain ⟨other, rfl⟩ := Option.isSome_iff_exists.mp same
      simp only [slaveState] at saved
      split at saved
      next blob isBlob =>
        obtain rfl := Except.ok.inj saved
        simp only [restoreSlave, Option.getD_some] at accepted
        split at accepted
        next value isValue =>
          rw [← Except.ok.inj accepted, exact isBlob isValue]
        next => cases accepted
      next => cases saved

theorem restoreSlave_isSome {α : Type} {load : List Byte → Except String α} {label : String}
    {state : Option (List Byte)} {bound restored : Option α}
    (accepted : restoreSlave load label state bound = .ok restored) :
    restored.isSome = bound.isSome := by
  unfold restoreSlave at accepted
  split at accepted
  · cases accepted
    rfl
  · split at accepted
    · cases accepted
      rfl
    · cases accepted

/-- A restore keeps what is bound. -/
theorem restore_keeps {c restored : Controller} {blob : List Byte} {wire wire' : Irq.Wire}
    (accepted : c.restore blob wire = .ok (restored, wire')) :
    c.SameSlaves restored ∧ restored.imagePath = c.imagePath := by
  obtain ⟨decoded, -, accepted⟩ := bind_eq_ok.mp accepted
  obtain ⟨store, storeRestored, accepted⟩ := bind_eq_ok.mp accepted
  obtain ⟨demod, demodRestored, accepted⟩ := bind_eq_ok.mp accepted
  cases accepted
  exact ⟨⟨restoreSlave_isSome storeRestored, restoreSlave_isSome demodRestored⟩, rfl⟩

theorem restoreSlave_congr {α : Type} {load : List Byte → Except String α} {label : String}
    {state : Option (List Byte)} {bound bound' : Option α} (same : bound.isSome = bound'.isSome) :
    restoreSlave load label state bound = restoreSlave load label state bound' := by
  cases bound <;> cases bound' <;> first | rfl | cases same

/-- A master reads a blob by what is bound to it. -/
theorem restore_congr {c d : Controller} (same : c.SameSlaves d)
    (path : d.imagePath = c.imagePath) (blob : List Byte) (wire : Irq.Wire) :
    c.restore blob wire = d.restore blob wire := by
  have fields : c.readSnapshot = d.readSnapshot := by
    unfold readSnapshot
    rw [same.1, same.2]
  unfold restore
  rw [fields, path]
  refine bind_congr fun decoded => ?_
  rw [restoreSlave_congr same.1.symm]
  refine bind_congr fun store => ?_
  rw [restoreSlave_congr same.2.symm]

/-- A master that accepts a snapshot of one with the same slaves is as that one
was, but for the path of its image. -/
theorem restored_of_snapshot {c d : Controller} {blob : List Byte} {wire : Irq.Wire}
    {restored : Attached} (taken : c.snapshot = .ok blob)
    (accepted : d.restore blob wire = .ok restored) (same : c.SameSlaves d) :
    restored = ({ c with imagePath := d.imagePath },
      wire.setLine irqMask (c.enable ≠ 0 ∧ c.status ≠ 0)) := by
  obtain ⟨storeState, storeSaved, taken⟩ := bind_eq_ok.mp taken
  obtain ⟨demodState, demodSaved, taken⟩ := bind_eq_ok.mp taken
  obtain ⟨decoded, decoding, accepted⟩ := bind_eq_ok.mp accepted
  obtain ⟨store, storeRestored, accepted⟩ := bind_eq_ok.mp accepted
  obtain ⟨demod, demodRestored, accepted⟩ := bind_eq_ok.mp accepted
  have isDecoded : decoded = {
      regs := c.registers
      armed := c.startArmed
      active := c.active
      dirty := c.dirty
      slave := c.slave
      pointer := c.pointer
      addressBytes := c.addressBytes
      fault := c.fault
      storeState, demodState } := by
    refine (written storeState demodState c).restoredVersion taken (fun fits => ?_) decoding
    simp only [encodeWith, List.length_append, encodeBytes_length, ← Nat.add_assoc] at fits
    have faultFits : c.fault.length < wordLimit := by omega
    have storeFits : (encodeSlave storeState).length < wordLimit := by omega
    have demodFits : (encodeSlave demodState).length < wordLimit := by omega
    unfold readSnapshot encodeWith
    refine .bind (.of_reads (.words (registers_fit c))) ?_
    refine .bind (.of_reads (.bool _)) ?_
    refine .bind (.of_reads (.bool _)) ?_
    refine .bind (.of_reads (.bool _)) ?_
    refine .bind (.of_reads (.uint8 _)) ?_
    refine .bind (.of_reads (.uint16 _)) ?_
    refine .bind (.of_reads (.uint8 _)) ?_
    refine .bind (.of_reads (.string faultFits)) ?_
    rw [if_pos (show (2 : Half) ≤ 2 by decide)]
    refine .bind (readSlave_accepted storeFits) ?_
    refine .bind_last (readSlave_accepted demodFits) ?_
    refine .bind_check (.wrap .done) ?_
    refine .bind_check (.require _ _) ?_
    refine .bind_check (.require _ _) ?_
    exact .bind_check (.require _ _) (.pure _)
  subst isDecoded
  have isStore : store = c.store := by
    refine restoreSlave_exact ?_ storeSaved storeRestored same.1
    intro slave restored state saved loaded
    rw [Eeprom.snapshot_eq, Except.ok.injEq] at saved
    rw [← saved, Eeprom.restore_blobOf, Except.ok.injEq] at loaded
    exact loaded.symm
  have isDemod : demod = c.demod :=
    restoreSlave_exact Demod.Model.restore_snapshot demodSaved demodRestored same.2
  subst isStore isDemod
  exact (Except.ok.inj accepted).symm

end Controller

end I2c

end GoRetroTv
