import GoRetroTv.GuardedRuns
import GoRetroTv.I2cController

/-!
# What the nonvolatile image holds after a stop

The master with its image on the host's disk, under whatever the guest writes to
its registers.  A stop makes the store durable if the slave it ends with is the
store; a start condition in between may have addressed another one.
-/

namespace GoRetroTv

namespace I2c

open Cpu Eeprom

/-- What the host makes of one call of `Persist`: the image is written, or an
error is told and the disk is left in some state. -/
inductive Outcome where
  | written
  | failed (error : List Byte) (told : error ≠ []) (left : Option Store)

/-- A register write of the guest, and what the host will answer if it persists. -/
structure Access where
  off : Word
  size : Size
  value : Word
  outcome : Outcome

/-- The master and the image at its path, if there is one. -/
structure World where
  master : Controller
  wire : Irq.Wire
  disk : Option Store

namespace Outcome

def persist : Outcome → Persist
  | written, _, _ => none
  | failed error _ _, _, _ => some error

/-- The image after a call. -/
def disk (store : Store) : Outcome → Option Store
  | written => some store
  | failed _ _ left => left

end Outcome

/-- The write is a stop condition. -/
def Access.Stops (a : Access) : Prop :=
  a.size = .word ∧ a.off = 0 ∧ a.value &&& 0xff = 0x99

instance (a : Access) : Decidable a.Stops :=
  inferInstanceAs (Decidable (_ ∧ _))

/-- The store that a stop makes durable. -/
def Controller.persisted (c : Controller) : Option Store :=
  if c.active && c.isEEPROM && c.dirty && !c.imagePath.isEmpty then c.store else none

namespace World

def perform (w : World) (a : Access) : World :=
  let after := w.master.write a.outcome.persist a.off a.size a.value w.wire
  { master := after.1
    wire := after.2
    disk :=
      match w.master.persisted with
      | some store => if a.Stops then a.outcome.disk store else w.disk
      | none => w.disk }

/-- What `Load` makes of the disk: a missing file stands for a blank chip. -/
def image (w : World) : Store :=
  w.disk.getD {}

/-- Nothing the guest wrote is lost: the image is the store's contents, or the
fault tells. -/
def Durable (w : World) : Prop :=
  w.master.store = some w.image ∨ w.master.fault ≠ []

/-- A stop that finds a written store ends a transaction with the store. -/
def EndsAtStore (w : World) (a : Access) : Prop :=
  a.Stops → w.master.dirty = true → w.master.active = true ∧ w.master.isEEPROM = true

/-- After a stop nothing the guest wrote is lost. -/
def DurableAfter (w : World) (a : Access) : Prop :=
  a.Stops → (w.perform a).Durable

/-- The board's master, reset after `BindImage` loaded the image. -/
def bound (path : List Byte) (disk : Option Store) (demod : Option Demod.Model)
    (wire : Irq.Wire) : World :=
  let master := Controller.bindImage path (some (disk.getD {})) { store := some {}, demod }
  let after := master.reset wire
  { master := after.1, wire := after.2, disk }

end World

/-- A step that ends no transaction: the store is left alone, or written and
marked so. -/
structure Carries (c after : Controller) : Prop where
  imagePath : after.imagePath = c.imagePath
  fault : after.fault = c.fault
  bound : after.store.isSome = c.store.isSome
  written : after.store = c.store ∧ after.dirty = c.dirty ∨ after.dirty = true

namespace Carries

theorem refl (c : Controller) : Carries c c :=
  ⟨rfl, rfl, rfl, .inl ⟨rfl, rfl⟩⟩

theorem trans {c middle after : Controller} (first : Carries c middle)
    (second : Carries middle after) : Carries c after where
  imagePath := second.imagePath.trans first.imagePath
  fault := second.fault.trans first.fault
  bound := second.bound.trans first.bound
  written := by
    rcases second.written with ⟨sameStore, sameDirty⟩ | dirty
    · rw [sameStore, sameDirty]
      exact first.written
    · exact .inr dirty

/-- Registers besides the store, its mark, the fault and the path. -/
theorem of_same {c after : Controller} (imagePath : after.imagePath = c.imagePath)
    (fault : after.fault = c.fault) (store : after.store = c.store)
    (dirty : after.dirty = c.dirty) : Carries c after :=
  ⟨imagePath, fault, by rw [store], .inl ⟨store, dirty⟩⟩

theorem complete (ack : Bool) (wire : Irq.Wire) (c : Controller) :
    Carries c (c.complete ack wire).1 :=
  of_same rfl rfl rfl rfl

theorem writeStore (value : Byte) (c : Controller) : Carries c (c.writeStore value) := by
  unfold Controller.writeStore
  split
  · exact of_same rfl rfl rfl rfl
  · exact of_same rfl rfl rfl rfl
  · split
    next => exact refl c
    next store isStore => exact ⟨rfl, rfl, by rw [isStore]; rfl, .inr rfl⟩

theorem writeDemod (value : Byte) (c : Controller) : Carries c (c.writeDemod value) := by
  unfold Controller.writeDemod
  split
  · exact refl c
  · exact of_same rfl rfl rfl rfl

theorem startDemod (c : Controller) : Carries c c.startDemod := by
  unfold Controller.startDemod
  split
  · split
    · exact of_same rfl rfl rfl rfl
    · exact refl c
  · exact refl c

theorem address (value : Byte) (c : Controller) : Carries c (c.address value) := by
  unfold Controller.address
  dsimp only
  refine trans ?_ (startDemod _)
  split
  · exact of_same rfl rfl rfl rfl
  · exact of_same rfl rfl rfl rfl

theorem receive (c : Controller) : Carries c c.receive := by
  unfold Controller.receive
  split
  · split <;> exact of_same rfl rfl rfl rfl
  · exact of_same rfl rfl rfl rfl

theorem writeData (value : Byte) (wire : Irq.Wire) (c : Controller) :
    Carries c (c.writeData value wire).1 := by
  unfold Controller.writeData
  dsimp only
  have latched : Carries c { c with data := value.setWidth 32 } := of_same rfl rfl rfl rfl
  refine latched.trans ?_
  split
  · exact (address _ _).trans (complete _ _ _)
  · refine trans ?_ (complete _ _ _)
    split
    · exact writeStore _ _
    · split
      · exact writeDemod _ _
      · exact refl _

end Carries

/-- A write that is no stop condition ends no transaction. -/
theorem Controller.write_carries (persist : Persist) {a : Access} (noStop : ¬ a.Stops)
    (wire : Irq.Wire) (c : Controller) :
    Carries c (c.write persist a.off a.size a.value wire).1 := by
  unfold Controller.write
  split
  · exact .refl c
  next word =>
    split
    next offset =>
      have named : a.value &&& 0xff ≠ 0x99 := fun stop =>
        noStop ⟨by simpa using word, BitVec.eq_of_toNat_eq offset, stop⟩
      dsimp only
      have latched : Carries c { c with control := a.value &&& 0xff } := .of_same rfl rfl rfl rfl
      refine latched.trans ?_
      split
      next stop => exact absurd (BitVec.eq_of_toNat_eq stop) named
      next => exact .of_same rfl rfl rfl rfl
      next => exact (Carries.receive _).trans (.complete _ _ _)
      next => exact (Carries.receive _).trans (.complete _ _ _)
      next => exact .refl _
    next => exact .of_same rfl rfl rfl rfl
    next => exact .writeData _ _ _
    next => exact .refl c
    next => exact .of_same rfl rfl rfl rfl
    next => exact .refl c

namespace Controller

theorem persisted_eq_some {c : Controller} {store : Store} (isStore : c.store = some store)
    (path : c.imagePath ≠ []) (active : c.active = true) (addressed : c.isEEPROM = true)
    (dirty : c.dirty = true) : c.persisted = some store := by
  simp [persisted, active, addressed, dirty, path, isStore]

theorem persisted_eq_none {c : Controller} (clean : c.dirty = false) : c.persisted = none := by
  simp [persisted, clean]

/-- What a stop leaves as the fault. -/
def faultAfter (persist : Persist) (c : Controller) : List Byte :=
  match c.persisted with
  | some store => (persist c.imagePath store).getD c.fault
  | none => c.fault

theorem faultAfter_of_persisted (persist : Persist) {c : Controller} {store : Store}
    (persisted : c.persisted = some store) :
    c.faultAfter persist = (persist c.imagePath store).getD c.fault := by
  rw [faultAfter, persisted]

theorem faultAfter_of_not_persisted (persist : Persist) {c : Controller}
    (persisted : c.persisted = none) : c.faultAfter persist = c.fault := by
  rw [faultAfter, persisted]

theorem stop_eq (persist : Persist) (c : Controller) :
    c.stop persist = { c with
      fault := c.faultAfter persist
      active := false
      startArmed := false
      dirty := false } := by
  unfold stop faultAfter persisted
  by_cases persists : (c.active && c.isEEPROM && c.dirty && !c.imagePath.isEmpty) = true
  · rw [if_pos persists]
    cases isStore : c.store with
    | none => simp [isStore]
    | some store =>
      dsimp only
      rw [if_pos persists]
      cases told : persist c.imagePath store with
      | none => simp [isStore]
      | some error => simp
  · rw [if_neg persists]
    cases isStore : c.store with
    | none => simp [isStore]
    | some store =>
      dsimp only
      rw [if_neg persists, isStore]

theorem write_stop (persist : Persist) {a : Access} (stops : a.Stops) (wire : Irq.Wire)
    (c : Controller) :
    (c.write persist a.off a.size a.value wire).1 =
      { c with control := 0x99 }.stop persist := by
  obtain ⟨word, offset, value⟩ := stops
  simp only [write, word, offset, value]
  rfl

end Controller

namespace World

/-- The master is bound to a store and a path, and what is not durable yet is
marked. -/
structure Safe (w : World) : Prop where
  bound : w.master.store.isSome = true
  path : w.master.imagePath ≠ []
  durable : w.master.dirty = true ∨ w.Durable

theorem perform_disk_of_not_stops {a : Access} (noStop : ¬ a.Stops) (w : World) :
    (w.perform a).disk = w.disk := by
  unfold perform
  split <;> simp [noStop]

theorem Safe.perform_of_not_stops {w : World} {a : Access} (safe : w.Safe)
    (noStop : ¬ a.Stops) : (w.perform a).Safe := by
  have carries : Carries w.master (w.perform a).master :=
    w.master.write_carries a.outcome.persist noStop w.wire
  refine ⟨carries.bound.trans safe.bound, ?_, ?_⟩
  · rw [carries.imagePath]
    exact safe.path
  · rcases carries.written with ⟨sameStore, sameDirty⟩ | dirty
    · rw [sameDirty, Durable, image, perform_disk_of_not_stops noStop, sameStore, carries.fault]
      exact safe.durable
    · exact .inl dirty

/-- A stop with the store makes it durable, or tells. -/
theorem Safe.perform_of_stops {w : World} {a : Access} (safe : w.Safe) (stops : a.Stops)
    (atStore : w.EndsAtStore a) : (w.perform a).Durable ∧ (w.perform a).Safe := by
  obtain ⟨store, isStore⟩ := Option.isSome_iff_exists.mp safe.bound
  have after : (w.perform a).master = { w.master with control := 0x99 }.stop a.outcome.persist :=
    w.master.write_stop _ stops w.wire
  rw [Controller.stop_eq] at after
  have sameStore : (w.perform a).master.store = w.master.store := by rw [after]
  have durable : (w.perform a).Durable := by
    rw [Durable, image, sameStore]
    cases isDirty : w.master.dirty with
    | true =>
      obtain ⟨active, addressed⟩ := atStore stops isDirty
      have persisted := Controller.persisted_eq_some isStore safe.path active addressed isDirty
      have fault : (w.perform a).master.fault =
          (a.outcome.persist w.master.imagePath store).getD w.master.fault := by
        rw [after]
        exact Controller.faultAfter_of_persisted _
          (show { w.master with control := 0x99 }.persisted = some store from persisted)
      have disk : (w.perform a).disk = a.outcome.disk store := by
        simp only [World.perform, persisted, if_pos stops]
      rw [isStore, fault, disk]
      cases a.outcome with
      | written => exact .inl rfl
      | failed error told left => exact .inr told
    | false =>
      have persisted := Controller.persisted_eq_none isDirty
      have fault : (w.perform a).master.fault = w.master.fault := by
        rw [after]
        exact Controller.faultAfter_of_not_persisted _
          (show { w.master with control := 0x99 }.persisted = none from persisted)
      have disk : (w.perform a).disk = w.disk := by
        simp only [World.perform, persisted]
      rw [fault, disk]
      exact safe.durable.resolve_left (by simp [isDirty])
  refine ⟨durable, ?_, ?_, .inr durable⟩
  · rw [after]
    exact safe.bound
  · rw [after]
    exact safe.path

theorem Safe.perform {w : World} {a : Access} (safe : w.Safe) (atStore : w.EndsAtStore a) :
    (w.perform a).Safe := by
  by_cases stops : a.Stops
  · exact (safe.perform_of_stops stops atStore).2
  · exact safe.perform_of_not_stops stops

theorem bound_safe {path : List Byte} (named : path ≠ []) (disk : Option Store)
    (demod : Option Demod.Model) (wire : Irq.Wire) : (bound path disk demod wire).Safe :=
  ⟨rfl, named, .inr (.inl rfl)⟩

/-- Where every stop that finds a written store ends a transaction with the
store, every stop leaves it durable. -/
theorem durable_after_stops {path : List Byte} (named : path ≠ []) (disk : Option Store)
    (demod : Option Demod.Model) (wire : Irq.Wire) {accesses : List Access}
    (atStore : Runs.Along perform EndsAtStore (bound path disk demod wire) accesses) :
    Runs.Along perform DurableAfter (bound path disk demod wire) accesses :=
  atStore.shows (bound_safe named disk demod wire) (fun _ _ => Safe.perform)
    fun _ _ safe ends stops => (safe.perform_of_stops stops ends).1

/-- A byte written to the store, the master having been started by the guest;
the host writes what it is given. -/
def storeByte : List Access :=
  [(0x00, 0x9a), (0x40, 0xa0), (0x40, 0), (0x40, 0), (0x40, 0x12)].map fun (off, value) =>
    { off, size := .word, value, outcome := .written }

def stopCondition : Access where
  off := 0x00
  size := .word
  value := 0x99
  outcome := .written

/-- A start condition that addresses the front-end. -/
def addressFrontEnd : List Access :=
  [(0x00, 0x9a), (0x40, 0x18)].map fun (off, value) =>
    { off, size := .word, value, outcome := .written }

instance (w : World) (a : Access) : Decidable (w.EndsAtStore a) :=
  inferInstanceAs (Decidable (a.Stops → _))

theorem storeByte_durable :
    Runs.Along perform DurableAfter (bound (ascii "nvram.bin") none none {})
      (storeByte ++ [stopCondition]) :=
  durable_after_stops (by decide) none none _ (by decide)

/-- The byte stays in memory when the stop follows a repeated start to the
front-end. -/
theorem storeByte_lost :
    ¬ Runs.Along perform DurableAfter (bound (ascii "nvram.bin") none none {})
      (storeByte ++ addressFrontEnd ++ [stopCondition]) := by
  intro durable
  rcases durable.place (show stopCondition.Stops by decide) with sameStore | told
  · have cell := congrArg (fun store => store.map fun s => s.image 0) sameStore
    exact absurd cell (by decide)
  · exact told (by decide)

end World

end I2c

end GoRetroTv
