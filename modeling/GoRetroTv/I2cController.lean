import GoRetroTv.BoardInterrupts
import GoRetroTv.Demodulator
import GoRetroTv.EepromStore

/-!
# The serial bus master

`internal/device/i2c/controller.go`: the byte-at-a-time master with the
nonvolatile store and the front-end behind it.  Making a finished write
transaction durable is the host's work; a failure is recorded as the fault,
with whatever text the host gave.
-/

namespace GoRetroTv

namespace I2c

open Snapcodec Cpu

def irqMask : Word :=
  0x200000

structure Controller where
  control : Word := 0x99
  status : Word := 0
  clock : Word := 0
  data : Word := 0
  enable : Word := 0
  startArmed : Bool := false
  active : Bool := false
  dirty : Bool := false
  slave : Byte := 0
  pointer : Half := 0
  addressBytes : Byte := 0
  fault : List Byte := []
  store : Option Eeprom.Store
  demod : Option Demod.Model := none
  imagePath : List Byte := []

/-- Write the store to a path: the host's error text, if it failed. -/
abbrev Persist := List Byte → Eeprom.Store → Option (List Byte)

/-- The controller with its line to the board. -/
abbrev Attached := Controller × Irq.Wire

namespace Controller

def read (off : Word) (size : Size) (c : Controller) : Word :=
  if size ≠ .word then 0
  else
    match off.toNat with
    | 0x00 => c.control
    | 0x10 => c.status
    | 0x20 => c.clock
    | 0x40 => c.data
    | 0x60 => c.enable
    | _ => 0

def isEEPROM (c : Controller) : Bool :=
  c.slave &&& ~~~1 == 0xa0

def isDemod (c : Controller) : Bool :=
  c.slave &&& ~~~1 == 0x18

/-- `complete`: acknowledge a phase and signal it if the guest asked for that. -/
def complete (ack : Bool) (wire : Irq.Wire) (c : Controller) : Attached :=
  ({ c with status := if ack then 4 else 0 },
    if c.enable ≠ 0 then wire.setLine irqMask true else wire)

/-- A byte of a write transaction to the store. -/
def writeStore (value : Byte) (c : Controller) : Controller :=
  match c.addressBytes.toNat with
  | 0 => { c with
      pointer := value.setWidth 16 &&& 0x3f
      addressBytes := c.addressBytes + 1 }
  | 1 => { c with
      pointer := (c.pointer <<< 8 ||| value.setWidth 16) &&& 0x3fff
      addressBytes := c.addressBytes + 1 }
  | _ =>
      match c.store with
      | none => c
      | some store => { c with
          store := some (Eeprom.write (c.pointer.setWidth 32) (value.setWidth 32) store)
          pointer := c.pointer &&& ~~~63 ||| (c.pointer + 1) &&& 63
          dirty := true }

/-- A byte addressed to the front-end. -/
def writeDemod (value : Byte) (c : Controller) : Controller :=
  match c.demod with
  | none => c
  | some demod => { c with demod := some (demod.shiftWrite value) }

/-- An addressed front-end begins a transaction. -/
def startDemod (c : Controller) : Controller :=
  match c.demod with
  | some demod => if c.isDemod then { c with demod := some demod.start } else c
  | none => c

/-- The slave address that follows a start condition. -/
def address (value : Byte) (c : Controller) : Controller :=
  let slave := value &&& ~~~1
  let c := { c with
    startArmed := false
    slave := value
    active := slave == 0xa0 || slave == 0x18 || slave == 0xca || value == 0 }
  startDemod (if c.isEEPROM && value &&& 1 == 0 then { c with addressBytes := 0 } else c)

/-- `writeData`. -/
def writeData (value : Byte) (wire : Irq.Wire) (c : Controller) : Attached :=
  let c := { c with data := value.setWidth 32 }
  if c.startArmed then
    let c := c.address value
    c.complete c.active wire
  else
    let c :=
      if c.active && c.isEEPROM then c.writeStore value
      else if c.active && c.isDemod then c.writeDemod value
      else c
    c.complete c.active wire

/-- The stop condition: a dirty store is made durable. -/
def stop (persist : Persist) (c : Controller) : Controller :=
  let c :=
    match c.store with
    | some store =>
        if c.active && c.isEEPROM && c.dirty && !c.imagePath.isEmpty then
          match persist c.imagePath store with
          | some error => { c with fault := error }
          | none => c
        else c
    | none => c
  { c with active := false, startArmed := false, dirty := false }

/-- A receive phase: the next byte of the slave that is being read. -/
def receive (c : Controller) : Controller :=
  if c.active then
    match c.isEEPROM && c.slave &&& 1 != 0, c.store, c.isDemod && c.slave &&& 1 != 0, c.demod with
    | true, some store, _, _ => { c with
        data := Eeprom.read (c.pointer.setWidth 32) store
        pointer := (c.pointer + 1) &&& 0x3fff }
    | _, _, true, some demod => { c with
        data := demod.shiftRead.1.setWidth 32
        demod := some demod.shiftRead.2 }
    | _, _, _, _ => { c with data := 0 }
  else { c with data := 0xff }

def write (persist : Persist) (off : Word) (size : Size) (value : Word) (wire : Irq.Wire)
    (c : Controller) : Attached :=
  if size ≠ .word then (c, wire)
  else
    match off.toNat with
    | 0x00 =>
        let c := { c with control := value &&& 0xff }
        match c.control.toNat with
        | 0x99 => (c.stop persist, wire)
        | 0x9a => ({ c with startArmed := true }, wire)
        | 0xac | 0xa8 => c.receive.complete true wire
        | _ => (c, wire)
    | 0x20 => ({ c with clock := value &&& 0xff }, wire)
    | 0x40 => c.writeData (value.setWidth 8) wire
    | 0x50 => (c, wire.setLine irqMask false)
    | 0x60 => ({ c with enable := value &&& 1 }, wire)
    | _ => (c, wire)

/-- `Reset` leaves the slaves' contents. -/
def reset (wire : Irq.Wire) (c : Controller) : Attached :=
  ({ store := c.store, demod := c.demod, imagePath := c.imagePath }, wire.setLine irqMask false)

/-- `BindImage` with the outcome of loading the path. -/
def bindImage (path : List Byte) (loaded : Option Eeprom.Store) (c : Controller) : Controller :=
  match c.store, loaded with
  | some _, some store => { c with store := some store, imagePath := path }
  | _, _ => c

/-- A bound slave's snapshot behind its presence. -/
def writeSlave (state : Option (List Byte)) (w : Writer) : Writer :=
  match state with
  | none => w.bool false
  | some state => w |>.bool true |>.bytes state

/-- A slave's snapshot, if the slave is bound. -/
def slaveState {α : Type} (save : α → Except String (List Byte)) (label : String) :
    Option α → Except String (Option (List Byte))
  | none => .ok none
  | some slave =>
      match save slave with
      | .ok state => .ok (some state)
      | .error error => .error (label ++ error)

def registers (c : Controller) : List Word :=
  [c.control, c.status, c.clock, c.data, c.enable]

def snapshot (c : Controller) : Except String (List Byte) := do
  let w := newWriter (ascii "i2c-master") 2
    |>.words c.registers
    |>.bool c.startArmed
    |>.bool c.active
    |>.bool c.dirty
    |>.uint8 c.slave
    |>.uint16 c.pointer
    |>.uint8 c.addressBytes
    |>.string c.fault
  let store ← slaveState Eeprom.snapshot "i2c: snapshot EEPROM: " c.store
  let demod ← slaveState Demod.Model.snapshot "i2c: snapshot demod: " c.demod
  (writeSlave demod (writeSlave store w)).blob

/-- What `Restore` has read before it looks at the slaves. -/
structure Restored where
  regs : List Word
  armed : Bool
  active : Bool
  dirty : Bool
  slave : Byte
  pointer : Half
  addressBytes : Byte
  fault : List Byte
  storeState : Option (List Byte)
  demodState : Option (List Byte)

def readSlave : Reading (Option (List Byte)) := do
  if ← Reading.bool then
    return some (← Reading.bytes)
  else return none

/-- The fields of a blob, checked against the slaves bound here. -/
def readSnapshot (c : Controller) (version : Half) : Reading Restored := do
  let regs ← Reading.words
  let armed ← Reading.bool
  let active ← Reading.bool
  let dirty ← Reading.bool
  let slave ← Reading.uint8
  let pointer ← Reading.uint16
  let addressBytes ← Reading.uint8
  let fault ← Reading.string
  let storeState ← if 2 ≤ version then readSlave else pure none
  let demodState ← if 2 ≤ version then readSlave else pure none
  Reading.wrap "i2c: restore: " Reading.done
  Reading.require
    (decide (regs.length = 5 ∧ addressBytes.toNat ≤ 2 ∧ pointer.toNat < Eeprom.capacity ∧
      fault.length ≤ 256))
    "i2c: restore: invalid state"
  Reading.require (!(version == 1 && (c.store.isSome || c.demod.isSome)))
    "i2c: restore: v1 snapshot omits bound EEPROM and demod state"
  Reading.require
    (!(2 ≤ version && (storeState.isSome != c.store.isSome || demodState.isSome != c.demod.isSome)))
    "i2c: restore: slave bindings do not match snapshot"
  return {
    regs, armed, active, dirty, slave, pointer, addressBytes, fault, storeState, demodState }

/-- A bound slave's new state.  The source restores it twice, first into a
temporary device, from the same bytes. -/
def restoreSlave {α : Type} (load : List Byte → Except String α) (label : String)
    (state : Option (List Byte)) : Option α → Except String (Option α)
  | none => .ok none
  | some _ =>
      match load (state.getD []) with
      | .ok slave => .ok (some slave)
      | .error error => .error (label ++ error)

def restore (blob : List Byte) (wire : Irq.Wire) (c : Controller) : Except String Attached := do
  let decoded ← restoringVersion blob (ascii "i2c-master") 1 2 "i2c: restore: " c.readSnapshot
  let store ← restoreSlave Eeprom.restore "i2c: restore EEPROM: " decoded.storeState c.store
  let demod ← restoreSlave Demod.Model.restore "i2c: restore demod: " decoded.demodState c.demod
  let enable := decoded.regs.getD 4 0
  let status := decoded.regs.getD 1 0
  return ({
      control := decoded.regs.getD 0 0
      status
      clock := decoded.regs.getD 2 0
      data := decoded.regs.getD 3 0
      enable
      startArmed := decoded.armed
      active := decoded.active
      dirty := decoded.dirty
      slave := decoded.slave
      pointer := decoded.pointer
      addressBytes := decoded.addressBytes
      fault := decoded.fault
      store, demod
      imagePath := c.imagePath },
    wire.setLine irqMask (enable ≠ 0 ∧ status ≠ 0))

end Controller

end I2c

end GoRetroTv
