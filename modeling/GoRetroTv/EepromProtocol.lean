import GoRetroTv.EepromDurability
import Mathlib.Tactic.IntervalCases

/-!
# The nonvolatile store as a chip on the bus

What the master makes of its register writes, beside the chip that it stands
for: an array of bytes and one pointer.  The master agrees with that chip on
every sequence of writes in which no data byte is sent to the store while it is
addressed for reading; it does not look at the direction of a transaction when
it takes a byte.
-/

namespace GoRetroTv

namespace I2c

open Cpu Eeprom

instance : NeZero capacity :=
  ⟨by decide⟩

/-- The bytes of the chip, and the place it stands at. -/
structure Chip where
  contents : Fin capacity → Byte
  pointer : Fin capacity

namespace Chip

/-- The first address byte. -/
def high (value : Byte) (chip : Chip) : Chip :=
  { chip with pointer := Fin.ofNat capacity (value.toNat % 64) }

/-- The second address byte. -/
def low (value : Byte) (chip : Chip) : Chip :=
  { chip with pointer := Fin.ofNat capacity (chip.pointer.val * 256 + value.toNat) }

/-- A byte is programmed; the pointer advances inside its page. -/
def program (value : Byte) (chip : Chip) : Chip where
  contents := Function.update chip.contents chip.pointer value
  pointer := Fin.ofNat capacity
    (chip.pointer.val / pageSize * pageSize + (chip.pointer.val + 1) % pageSize)

/-- A byte has been read. -/
def advance (chip : Chip) : Chip :=
  { chip with pointer := Fin.ofNat capacity (chip.pointer.val + 1) }

end Chip

/-- What the bus is occupied with. -/
inductive Transaction where
  | elsewhere
  | awaitingHigh
  | awaitingLow
  | writing
  | reading
  deriving DecidableEq

/-- The transaction that a slave address begins. -/
def Transaction.addressedBy (slave : Byte) : Transaction :=
  if slave = 0xa0 then .awaitingHigh else if slave = 0xa1 then .reading else .elsewhere

/-- What a register write tells the bus. -/
inductive Command where
  | start
  | stop
  | send (value : Byte)
  | receive
  | idle
  deriving DecidableEq

def Access.command (a : Access) : Command :=
  if a.size = .word then
    match a.off.toNat with
    | 0x00 =>
        match (a.value &&& 0xff).toNat with
        | 0x99 => .stop
        | 0x9a => .start
        | 0xac | 0xa8 => .receive
        | _ => .idle
    | 0x40 => .send (a.value.setWidth 8)
    | _ => .idle
  else .idle

/-- The chip on its bus; a start condition is pending, or not. -/
structure Bus where
  chip : Chip
  transaction : Transaction
  armed : Bool

namespace Bus

/-- A byte that is no slave address. -/
def take (value : Byte) (bus : Bus) : Bus :=
  match bus.transaction with
  | .awaitingHigh => { bus with chip := bus.chip.high value, transaction := .awaitingLow }
  | .awaitingLow => { bus with chip := bus.chip.low value, transaction := .writing }
  | .writing => { bus with chip := bus.chip.program value }
  | .reading | .elsewhere => bus

def step (bus : Bus) : Command → Bus
  | .start => { bus with armed := true }
  | .stop => { bus with transaction := .elsewhere, armed := false }
  | .send value =>
      if bus.armed then { bus with transaction := .addressedBy value, armed := false }
      else bus.take value
  | .receive =>
      if bus.transaction = .reading then { bus with chip := bus.chip.advance } else bus
  | .idle => bus

end Bus

/-- The store with its pointer is the chip. -/
structure Stores (c : Controller) (chip : Chip) : Prop where
  contents : ∃ store, c.store = some store ∧
    ∀ place : Fin capacity, store.image (BitVec.ofNat 14 place.val) = chip.contents place
  pointer : c.pointer.toNat = chip.pointer.val

/-- The master's flags say what the bus is occupied with. -/
def Controller.Occupied (c : Controller) : Transaction → Prop
  | .elsewhere => (c.active && c.isEEPROM) = false
  | .awaitingHigh => c.active = true ∧ c.slave = 0xa0 ∧ c.addressBytes = 0
  | .awaitingLow => c.active = true ∧ c.slave = 0xa0 ∧ c.addressBytes = 1
  | .writing => c.active = true ∧ c.slave = 0xa0 ∧ c.addressBytes = 2
  | .reading => c.active = true ∧ c.slave = 0xa1

/-- The master stands for the chip on its bus. -/
structure Follows (c : Controller) (bus : Bus) : Prop where
  stores : Stores c bus.chip
  armed : c.startArmed = bus.armed
  occupied : c.Occupied bus.transaction

/-- A data byte, taken for an address byte, leaves the pointer where it is. -/
def Controller.Repeats (c : Controller) (value : Byte) : Prop :=
  match c.addressBytes.toNat with
  | 0 => value.setWidth 16 &&& 0x3f = c.pointer
  | 1 => (c.pointer <<< 8 ||| value.setWidth 16) &&& 0x3fff = c.pointer
  | _ => False

instance (c : Controller) (value : Byte) : Decidable (c.Repeats value) := by
  unfold Controller.Repeats
  split <;> infer_instance

theorem Controller.Repeats.place {c : Controller} {value : Byte} (repeats : c.Repeats value) :
    c.addressBytes.toNat = 0 ∧ value.setWidth 16 &&& 0x3f = c.pointer ∨
      c.addressBytes.toNat = 1 ∧
        (c.pointer <<< 8 ||| value.setWidth 16) &&& 0x3fff = c.pointer := by
  unfold Controller.Repeats at repeats
  split at repeats
  next first => exact .inl ⟨first, repeats⟩
  next second => exact .inr ⟨second, repeats⟩
  next => exact repeats.elim

/-- No data byte is sent to the store while it is addressed for reading, unless
it is one of those that change nothing. -/
def Controller.Directed (c : Controller) : Command → Prop
  | .send value =>
      c.startArmed = false → c.active = true → c.slave = 0xa1 → c.Repeats value
  | _ => True

instance (c : Controller) : (command : Command) → Decidable (c.Directed command)
  | .send _ => inferInstanceAs (Decidable (c.startArmed = false → _))
  | .start | .stop | .receive | .idle => inferInstanceAs (Decidable True)

namespace Beside

/-- The master and the chip take the same step. -/
def perform (both : World × Bus) (a : Access) : World × Bus :=
  (both.1.perform a, both.2.step a.command)

def Directed (both : World × Bus) (a : Access) : Prop :=
  both.1.master.Directed a.command

/-- After a step the master still stands for the chip, and what a receive phase
has read is the byte that the chip stood at. -/
def Agrees (both : World × Bus) (a : Access) : Prop :=
  Follows (perform both a).1.master (perform both a).2 ∧
    (a.command = .receive → both.2.transaction = .reading →
      (perform both a).1.master.data =
        (both.2.chip.contents both.2.chip.pointer).setWidth 32)

instance (both : World × Bus) (a : Access) : Decidable (Directed both a) :=
  inferInstanceAs (Decidable (both.1.master.Directed a.command))

/-- A reset master with a store, beside the chip with the same bytes. -/
def started (store : Store) (demod : Option Demod.Model) (path : List Byte) (wire : Irq.Wire)
    (disk : Option Store) : World × Bus :=
  let after := ({ store := some store, demod, imagePath := path } : Controller).reset wire
  ({ master := after.1, wire := after.2, disk },
    { chip :=
        { contents := fun place => store.image (BitVec.ofNat 14 place.val)
          pointer := Fin.ofNat capacity 0 }
      transaction := .elsewhere
      armed := false })

end Beside

theorem high_toNat (value : Byte) :
    (value.setWidth 16 &&& 0x3f).toNat = value.toNat % 64 := by
  have six := Nat.and_two_pow_sub_one_eq_mod value.toNat 6
  have wide : (value.setWidth 16).toNat = value.toNat := by
    rw [BitVec.toNat_setWidth]
    omega
  rw [BitVec.toNat_and, wide]
  exact six

theorem low_toNat (pointer : Half) (value : Byte) :
    ((pointer <<< 8 ||| value.setWidth 16) &&& 0x3fff).toNat =
      (pointer.toNat * 256 + value.toNat) % capacity := by
  have joined : pointer <<< 8 ||| value.setWidth 16 = pointer <<< 8 + value.setWidth 16 := by
    symm
    apply BitVec.add_eq_or_of_and_eq_zero
    apply BitVec.eq_of_getLsbD_eq
    intro place inside
    rw [BitVec.getLsbD_and, BitVec.getLsbD_shiftLeft, BitVec.getLsbD_setWidth]
    by_cases low : place < 8
    · simp [low]
    · simp [value.getLsbD_of_ge place (by omega)]
  have sum : (pointer <<< 8 + value.setWidth 16).toNat =
      (pointer.toNat * 256 + value.toNat) % 65536 := by
    rw [BitVec.toNat_add, BitVec.toNat_shiftLeft, BitVec.toNat_setWidth, Nat.shiftLeft_eq]
    omega
  have fourteen := Nat.and_two_pow_sub_one_eq_mod (pointer <<< 8 + value.setWidth 16).toNat 14
  rw [joined, BitVec.toNat_and]
  refine fourteen.trans ?_
  rw [sum]
  unfold capacity
  omega

theorem advance_toNat (pointer : Half) :
    ((pointer + 1) &&& 0x3fff).toNat = (pointer.toNat + 1) % capacity := by
  have fourteen := Nat.and_two_pow_sub_one_eq_mod (pointer + 1).toNat 14
  rw [BitVec.toNat_and]
  refine fourteen.trans ?_
  rw [BitVec.toNat_add]
  unfold capacity
  change (pointer.toNat + 1) % 65536 % 16384 = _
  omega

theorem page_toNat (pointer : Half) :
    (pointer &&& ~~~(63 : Half) ||| (pointer + 1) &&& 63).toNat =
      pointer.toNat / 64 * 64 + (pointer.toNat + 1) % 64 := by
  have page : pointer &&& ~~~(63 : Half) = (pointer >>> 6) <<< 6 := by
    apply BitVec.eq_of_getLsbD_eq
    intro place inside
    interval_cases place <;> simp
  have disjoint : pointer &&& ~~~(63 : Half) ||| (pointer + 1) &&& 63 =
      (pointer &&& ~~~(63 : Half)) + ((pointer + 1) &&& 63) := by
    symm
    apply BitVec.add_eq_or_of_and_eq_zero
    apply BitVec.eq_of_getLsbD_eq
    intro place inside
    interval_cases place <;> simp
  have pageNat : (pointer &&& ~~~(63 : Half)).toNat = pointer.toNat / 64 * 64 := by
    rw [page, BitVec.toNat_shiftLeft, BitVec.toNat_ushiftRight, Nat.shiftRight_eq_div_pow,
      Nat.shiftLeft_eq]
    omega
  have six := Nat.and_two_pow_sub_one_eq_mod (pointer + 1).toNat 6
  have place : ((pointer + 1) &&& 63).toNat = (pointer.toNat + 1) % 64 := by
    rw [BitVec.toNat_and]
    refine six.trans ?_
    rw [BitVec.toNat_add]
    change (pointer.toNat + 1) % 65536 % 64 = _
    omega
  rw [disjoint, BitVec.toNat_add, pageNat, place]
  omega

theorem Stores.of_same {c after : Controller} {chip : Chip} (stores : Stores c chip)
    (store : after.store = c.store) (pointer : after.pointer = c.pointer) :
    Stores after chip := by
  refine ⟨?_, ?_⟩
  · rw [store]
    exact stores.contents
  · rw [pointer]
    exact stores.pointer

/-- Registers besides those that the bus knows of. -/
theorem Follows.of_same {c after : Controller} {bus : Bus} (follows : Follows c bus)
    (store : after.store = c.store) (pointer : after.pointer = c.pointer)
    (armed : after.startArmed = c.startArmed) (active : after.active = c.active)
    (slave : after.slave = c.slave) (addressBytes : after.addressBytes = c.addressBytes) :
    Follows after bus where
  stores := follows.stores.of_same store pointer
  armed := armed.trans follows.armed
  occupied := by
    have occupied := follows.occupied
    unfold Controller.Occupied Controller.isEEPROM at occupied ⊢
    rw [active, slave, addressBytes]
    exact occupied

theorem Follows.complete {c : Controller} {bus : Bus} (follows : Follows c bus) (ack : Bool)
    (wire : Irq.Wire) : Follows (c.complete ack wire).1 bus :=
  follows.of_same rfl rfl rfl rfl rfl rfl

theorem Follows.writeDemod {c : Controller} {bus : Bus} (follows : Follows c bus)
    (value : Byte) : Follows (c.writeDemod value) bus := by
  unfold Controller.writeDemod
  split
  · exact follows
  · exact follows.of_same rfl rfl rfl rfl rfl rfl

theorem Follows.startDemod {c : Controller} {bus : Bus} (follows : Follows c bus) :
    Follows c.startDemod bus := by
  unfold Controller.startDemod
  split
  · split
    · exact follows.of_same rfl rfl rfl rfl rfl rfl
    · exact follows
  · exact follows

theorem Controller.Occupied.addressed {c : Controller} {transaction : Transaction}
    (occupied : c.Occupied transaction) (store : transaction ≠ .elsewhere) :
    c.active = true ∧ c.isEEPROM = true := by
  cases transaction with
  | elsewhere => exact absurd rfl store
  | awaitingHigh | awaitingLow | writing =>
    obtain ⟨active, slave, -⟩ := occupied
    exact ⟨active, by rw [Controller.isEEPROM, slave]; decide⟩
  | reading =>
    obtain ⟨active, slave⟩ := occupied
    exact ⟨active, by rw [Controller.isEEPROM, slave]; decide⟩

/-- A place of the chip and the address it has in the store. -/
theorem address_inj {first second : Fin capacity}
    (same : BitVec.ofNat 14 first.val = BitVec.ofNat 14 second.val) : first = second := by
  have numbers := congrArg BitVec.toNat same
  have firstInside : first.val < 2 ^ 14 := first.isLt
  have secondInside : second.val < 2 ^ 14 := second.isLt
  rw [BitVec.toNat_ofNat, BitVec.toNat_ofNat, Nat.mod_eq_of_lt firstInside,
    Nat.mod_eq_of_lt secondInside] at numbers
  exact Fin.ext numbers

theorem Stores.setWidth {c : Controller} {chip : Chip} (stores : Stores c chip) :
    (c.pointer.setWidth 32).setWidth 14 = BitVec.ofNat 14 chip.pointer.val := by
  have inside : chip.pointer.val < 2 ^ 14 := chip.pointer.isLt
  apply BitVec.eq_of_toNat_eq
  rw [BitVec.toNat_setWidth, BitVec.toNat_setWidth, BitVec.toNat_ofNat, stores.pointer]
  omega

/-- A byte is programmed where the chip stands. -/
theorem Stores.program {c : Controller} {chip : Chip} (stores : Stores c chip) {store : Store}
    (isStore : c.store = some store) (value : Byte) :
    Stores { c with
      store := some (Eeprom.write (c.pointer.setWidth 32) (value.setWidth 32) store)
      pointer := c.pointer &&& ~~~63 ||| (c.pointer + 1) &&& 63
      dirty := true } (chip.program value) := by
  obtain ⟨bound, isBound, contents⟩ := stores.contents
  obtain rfl : bound = store := Option.some.inj (isBound.symm.trans isStore)
  refine ⟨⟨_, rfl, fun place => ?_⟩, ?_⟩
  · have byte : (value.setWidth 32).setWidth 8 = value := by
      apply BitVec.eq_of_toNat_eq
      rw [BitVec.toNat_setWidth, BitVec.toNat_setWidth]
      omega
    rw [Eeprom.write, stores.setWidth, byte, Chip.program]
    dsimp only
    by_cases here : place = chip.pointer
    · rw [here, Function.update_self, Function.update_self]
    · rw [Function.update_of_ne here, Function.update_of_ne fun same => here (address_inj same)]
      exact contents place
  · have inside : chip.pointer.val < 16384 := chip.pointer.isLt
    change _ = (chip.pointer.val / 64 * 64 + (chip.pointer.val + 1) % 64) % 16384
    refine (page_toNat c.pointer).trans ?_
    rw [stores.pointer]
    omega

/-- A data byte for the store, taken for what the transaction awaits. -/
theorem Follows.writeStore {c : Controller} {bus : Bus} (follows : Follows c bus) (value : Byte)
    (store : bus.transaction ≠ .elsewhere)
    (directed : bus.transaction = .reading → c.Repeats value) :
    Follows (c.writeStore value) (bus.take value) := by
  obtain ⟨chip, transaction, armed⟩ := bus
  have occupied := follows.occupied
  cases transaction with
  | elsewhere => exact absurd rfl store
  | awaitingHigh =>
    obtain ⟨active, slave, addressBytes⟩ := occupied
    have stored : c.writeStore value = { c with
        pointer := value.setWidth 16 &&& 0x3f
        addressBytes := c.addressBytes + 1 } := by
      rw [Controller.writeStore, addressBytes]
      rfl
    rw [stored]
    refine ⟨⟨follows.stores.contents, ?_⟩, follows.armed, active, slave, ?_⟩
    · change _ = value.toNat % 64 % 16384
      refine (high_toNat value).trans ?_
      omega
    · change c.addressBytes + 1 = 1
      rw [addressBytes]
      rfl
  | awaitingLow =>
    obtain ⟨active, slave, addressBytes⟩ := occupied
    have stored : c.writeStore value = { c with
        pointer := (c.pointer <<< 8 ||| value.setWidth 16) &&& 0x3fff
        addressBytes := c.addressBytes + 1 } := by
      rw [Controller.writeStore, addressBytes]
      rfl
    rw [stored]
    refine ⟨⟨follows.stores.contents, ?_⟩, follows.armed, active, slave, ?_⟩
    · refine (low_toNat c.pointer value).trans ?_
      rw [follows.stores.pointer]
      rfl
    · change c.addressBytes + 1 = 2
      rw [addressBytes]
      rfl
  | writing =>
    obtain ⟨active, slave, addressBytes⟩ := occupied
    obtain ⟨held, isStore, -⟩ := follows.stores.contents
    have stored : c.writeStore value = { c with
        store := some (Eeprom.write (c.pointer.setWidth 32) (value.setWidth 32) held)
        pointer := c.pointer &&& ~~~63 ||| (c.pointer + 1) &&& 63
        dirty := true } := by
      rw [Controller.writeStore, addressBytes, isStore]
      rfl
    rw [stored]
    exact ⟨follows.stores.program isStore value, follows.armed, active, slave, addressBytes⟩
  | reading =>
    obtain ⟨active, slave⟩ := occupied
    unfold Controller.writeStore
    obtain ⟨first, same⟩ | ⟨second, same⟩ := (directed rfl).place
    · rw [first]
      exact ⟨follows.stores.of_same rfl same, follows.armed, active, slave⟩
    · rw [second]
      exact ⟨follows.stores.of_same rfl same, follows.armed, active, slave⟩

theorem isEEPROM_iff (value : Byte) :
    (value &&& ~~~1 == 0xa0) = true ↔ value = 0xa0 ∨ value = 0xa1 := by
  decide +revert

/-- The byte that follows a start condition. -/
theorem Follows.address {c : Controller} {bus : Bus} (follows : Follows c bus) (value : Byte) :
    Follows (c.address value)
      { bus with transaction := .addressedBy value, armed := false } := by
  unfold Controller.address
  dsimp only
  refine startDemod ?_
  have stores := follows.stores
  by_cases writing : value = 0xa0
  · subst writing
    split
    next => exact ⟨stores.of_same rfl rfl, rfl, rfl, rfl, rfl⟩
    next other => simp [Controller.isEEPROM] at other
  · by_cases reading : value = 0xa1
    · subst reading
      split
      next taken => simp [Controller.isEEPROM] at taken
      next => exact ⟨stores.of_same rfl rfl, rfl, rfl, rfl⟩
    · have other : ¬ (value &&& ~~~1 == 0xa0) = true := by
        rw [isEEPROM_iff]
        exact not_or.mpr ⟨writing, reading⟩
      rw [if_neg (by simp only [Controller.isEEPROM, other]; simp), Transaction.addressedBy,
        if_neg writing, if_neg reading]
      refine ⟨stores.of_same rfl rfl, rfl, ?_⟩
      simp only [Controller.Occupied, Controller.isEEPROM, other, Bool.and_false]

theorem Follows.writeData {c : Controller} {bus : Bus} (follows : Follows c bus) (value : Byte)
    (wire : Irq.Wire) (directed : c.Directed (.send value)) :
    Follows (c.writeData value wire).1 (bus.step (.send value)) := by
  unfold Controller.writeData
  dsimp only
  have latched : Follows { c with data := value.setWidth 32 } bus :=
    follows.of_same rfl rfl rfl rfl rfl rfl
  by_cases armed : c.startArmed = true
  · have stepped : bus.step (.send value) =
        { bus with transaction := .addressedBy value, armed := false } := by
      rw [Bus.step, if_pos (follows.armed.symm.trans armed)]
    rw [if_pos armed, stepped]
    exact (latched.address value).complete _ _
  · have stepped : bus.step (.send value) = bus.take value := by
      rw [Bus.step, ← follows.armed, if_neg armed]
    rw [if_neg armed, stepped]
    refine complete ?_ _ _
    by_cases store : bus.transaction = .elsewhere
    · have unaddressed : (c.active && c.isEEPROM) = false := by
        have occupied := follows.occupied
        rw [store] at occupied
        exact occupied
      have untouched : bus.take value = bus := by
        rw [Bus.take, store]
      rw [untouched]
      split
      next taken => exact absurd (unaddressed.symm.trans taken) Bool.false_ne_true
      next =>
        split
        · exact latched.writeDemod value
        · exact latched
    · obtain ⟨active, addressed⟩ := follows.occupied.addressed store
      have taken : (c.active && c.isEEPROM) = true := by
        rw [active, addressed]
        rfl
      split
      next =>
        refine latched.writeStore value store fun reading => ?_
        have occupied := follows.occupied
        rw [reading] at occupied
        exact directed (Bool.eq_false_iff.mpr armed) occupied.1 occupied.2
      next other => exact absurd taken other

/-- A receive phase of the store: the byte where the chip stands. -/
theorem Controller.receive_store {c : Controller} {store : Store} (active : c.active = true)
    (slave : c.slave = 0xa1) (isStore : c.store = some store) :
    c.receive = { c with
      data := Eeprom.read (c.pointer.setWidth 32) store
      pointer := (c.pointer + 1) &&& 0x3fff } := by
  have addressed : (c.isEEPROM && c.slave &&& 1 != 0) = true := by
    rw [isEEPROM, slave]
    rfl
  rw [receive, if_pos active, isStore, addressed]

theorem Follows.receive_reading {c : Controller} {bus : Bus} (follows : Follows c bus)
    (reading : bus.transaction = .reading) :
    Follows c.receive (bus.step .receive) ∧
      c.receive.data = (bus.chip.contents bus.chip.pointer).setWidth 32 := by
  obtain ⟨store, isStore, contents⟩ := follows.stores.contents
  have occupied := follows.occupied
  rw [reading] at occupied
  obtain ⟨active, slave⟩ := occupied
  rw [Controller.receive_store active slave isStore, Bus.step, if_pos reading]
  refine ⟨⟨⟨⟨store, isStore, contents⟩, ?_⟩, follows.armed, ?_⟩, ?_⟩
  · refine (advance_toNat c.pointer).trans ?_
    rw [follows.stores.pointer]
    rfl
  · rw [reading]
    exact ⟨active, slave⟩
  · change Eeprom.read _ _ = _
    rw [Eeprom.read, follows.stores.setWidth, contents]

/-- A receive phase of anything else. -/
theorem Follows.receive_other {c : Controller} {bus : Bus} (follows : Follows c bus)
    (other : bus.transaction ≠ .reading) : Follows c.receive (bus.step .receive) := by
  have unread : ¬ ((c.active && (c.isEEPROM && c.slave &&& 1 != 0)) = true) := by
    intro taken
    obtain ⟨active, store⟩ := (Bool.and_eq_true_iff ..).mp taken
    obtain ⟨store, odd⟩ := (Bool.and_eq_true_iff ..).mp store
    have occupied := follows.occupied
    cases at_ : bus.transaction with
    | elsewhere =>
      rw [at_] at occupied
      have addressed : (c.active && c.isEEPROM) = true := by
        rw [active, store]
        rfl
      exact Bool.false_ne_true (occupied.symm.trans addressed)
    | awaitingHigh | awaitingLow | writing =>
      rw [at_] at occupied
      rw [occupied.2.1] at odd
      exact absurd odd (by decide)
    | reading => exact other at_
  rw [Bus.step, if_neg other]
  unfold Controller.receive
  split
  next active =>
    split
    next store _ => exact absurd (by rw [active, store]; rfl) unread
    next => exact follows.of_same rfl rfl rfl rfl rfl rfl
    next => exact follows.of_same rfl rfl rfl rfl rfl rfl
  next => exact follows.of_same rfl rfl rfl rfl rfl rfl

theorem Follows.receive {c : Controller} {bus : Bus} (follows : Follows c bus) :
    Follows c.receive (bus.step .receive) := by
  by_cases reading : bus.transaction = .reading
  · exact (follows.receive_reading reading).1
  · exact follows.receive_other reading

theorem Follows.stop {c : Controller} {bus : Bus} (follows : Follows c bus) (persist : Persist) :
    Follows (c.stop persist) (bus.step .stop) := by
  rw [Controller.stop_eq]
  exact ⟨follows.stores.of_same rfl rfl, rfl, rfl⟩

theorem Access.command_other {a : Access} (control : a.off.toNat ≠ 0)
    (data : a.off.toNat ≠ 0x40) : a.command = .idle := by
  unfold command
  split
  · split
    next zero => exact absurd zero control
    next register => exact absurd register data
    next => rfl
  · rfl

/-- A register write. -/
theorem Follows.write {c : Controller} {bus : Bus} {a : Access} (follows : Follows c bus)
    (persist : Persist) (wire : Irq.Wire) (directed : c.Directed a.command) :
    Follows (c.write persist a.off a.size a.value wire).1 (bus.step a.command) := by
  by_cases word : a.size = .word
  · have latched : Follows { c with control := a.value &&& 0xff } bus :=
      follows.of_same rfl rfl rfl rfl rfl rfl
    unfold Controller.write
    rw [if_neg (not_not.mpr word)]
    split
    next control =>
      dsimp only
      split
      next stop =>
        rw [show a.command = .stop by simp only [Access.command, word, control, stop, if_true]]
        exact latched.stop persist
      next start =>
        rw [show a.command = .start by simp only [Access.command, word, control, start, if_true]]
        exact ⟨latched.stores.of_same rfl rfl, rfl, latched.occupied⟩
      next receive =>
        rw [show a.command = .receive by
          simp only [Access.command, word, control, receive, if_true]]
        exact latched.receive.complete _ _
      next receive =>
        rw [show a.command = .receive by
          simp only [Access.command, word, control, receive, if_true]]
        exact latched.receive.complete _ _
      next stop start receive again =>
        have idle : a.command = .idle := by
          unfold Access.command
          rw [if_pos word]
          split
          next =>
            split
            next named => exact absurd named stop
            next named => exact absurd named start
            next named => exact absurd named receive
            next named => exact absurd named again
            next => rfl
          next register => omega
          next zero _ => exact absurd control zero
        rw [idle]
        exact latched
    next clock =>
      rw [Access.command_other (by omega) (by omega)]
      exact follows.of_same rfl rfl rfl rfl rfl rfl
    next data =>
      have send : a.command = .send (a.value.setWidth 8) := by
        simp only [Access.command, word, data, if_true]
      rw [send] at directed ⊢
      exact follows.writeData _ _ directed
    next acknowledge =>
      rw [Access.command_other (by omega) (by omega)]
      exact follows
    next enable =>
      rw [Access.command_other (by omega) (by omega)]
      exact follows.of_same rfl rfl rfl rfl rfl rfl
    next control _ data _ _ =>
      rw [Access.command_other control data]
      exact follows
  · have idle : a.command = .idle := by
      rw [Access.command, if_neg word]
    rw [idle, Controller.write, if_pos word]
    exact follows

theorem Controller.write_send {a : Access} {value : Byte} (send : a.command = .send value)
    (persist : Persist) (wire : Irq.Wire) (c : Controller) :
    c.write persist a.off a.size a.value wire = c.writeData value wire := by
  unfold Access.command at send
  split at send
  next word =>
    split at send
    next => split at send <;> exact Command.noConfusion send
    next data =>
      obtain rfl := Command.send.inj send
      rw [write, if_neg (not_not.mpr word), data]
      rfl
    next => exact Command.noConfusion send
  next => exact Command.noConfusion send

theorem Access.command_receive {a : Access} (receives : a.command = .receive) :
    a.size = .word ∧ a.off.toNat = 0 ∧
      ((a.value &&& 0xff).toNat = 0xac ∨ (a.value &&& 0xff).toNat = 0xa8) := by
  unfold Access.command at receives
  split at receives
  next word =>
    split at receives
    next control =>
      split at receives
      next => exact Command.noConfusion receives
      next => exact Command.noConfusion receives
      next receive => exact ⟨word, control, .inl receive⟩
      next receive => exact ⟨word, control, .inr receive⟩
      next => exact Command.noConfusion receives
    next => exact Command.noConfusion receives
    next => exact Command.noConfusion receives
  next => exact Command.noConfusion receives

theorem Controller.write_receive {a : Access} (receives : a.command = .receive)
    (persist : Persist) (wire : Irq.Wire) (c : Controller) :
    c.write persist a.off a.size a.value wire =
      { c with control := a.value &&& 0xff }.receive.complete true wire := by
  obtain ⟨word, control, receive⟩ := Access.command_receive receives
  rw [write, if_neg (not_not.mpr word), control]
  dsimp only
  obtain receive | receive := receive
  · rw [receive]
    rfl
  · rw [receive]
    rfl

theorem Follows.reading {c : Controller} {bus : Bus} (follows : Follows c bus)
    (active : c.active = true) (slave : c.slave = 0xa1) : bus.transaction = .reading := by
  have occupied := follows.occupied
  cases at_ : bus.transaction with
  | reading => rfl
  | elsewhere =>
    rw [at_, Controller.Occupied, Controller.isEEPROM, active, slave] at occupied
    exact absurd occupied (by decide)
  | awaitingHigh | awaitingLow | writing =>
    rw [at_] at occupied
    exact absurd (occupied.2.1.symm.trans slave) (by decide)

/-- A byte that leaves the pointer alone is one that changes nothing. -/
theorem Controller.repeats_of_writeStore {c : Controller} {value : Byte}
    (bound : c.store.isSome = true) (kept : (c.writeStore value).pointer = c.pointer) :
    c.Repeats value := by
  obtain ⟨store, isStore⟩ := Option.isSome_iff_exists.mp bound
  unfold writeStore at kept
  unfold Repeats
  split
  next first =>
    simp only [first] at kept
    exact kept
  next second =>
    simp only [second] at kept
    exact kept
  next notFirst notSecond =>
    split at kept
    next first => exact notFirst first
    next second => exact notSecond second
    next =>
      rw [isStore] at kept
      -- the pointer has moved on inside its page
      have moved := (page_toNat c.pointer).symm.trans (congrArg BitVec.toNat kept)
      omega

/-- If the master still stands for the chip, the byte was none that the chip
ignores and the master does not. -/
theorem Follows.directed_of_writeData {c : Controller} {bus : Bus} (follows : Follows c bus)
    {value : Byte} {wire : Irq.Wire}
    (after : Follows (c.writeData value wire).1 (bus.step (.send value))) :
    c.Directed (.send value) := by
  intro armed active slave
  have reading := follows.reading active slave
  have stepped : bus.step (.send value) = bus := by
    rw [Bus.step, ← follows.armed, armed, if_neg Bool.false_ne_true, Bus.take, reading]
  have taken : (c.active && c.isEEPROM) = true := by
    rw [active, Controller.isEEPROM, slave]
    rfl
  have written : (c.writeData value wire).1.pointer =
      ({ c with data := value.setWidth 32 }.writeStore value).pointer := by
    unfold Controller.writeData
    dsimp only
    split
    next started => exact absurd (armed.symm.trans started) Bool.false_ne_true
    next =>
      split
      next => rfl
      next other => exact absurd taken other
  have kept : (c.writeData value wire).1.pointer = c.pointer := by
    apply BitVec.eq_of_toNat_eq
    rw [after.stores.pointer, stepped, follows.stores.pointer]
  obtain ⟨store, isStore, -⟩ := follows.stores.contents
  exact Controller.repeats_of_writeStore (c := { c with data := value.setWidth 32 })
    (by rw [isStore]; rfl) (written.symm.trans kept)

namespace Beside

/-- The master stands for the chip. -/
def Following (both : World × Bus) : Prop :=
  Follows both.1.master both.2

theorem Following.perform {both : World × Bus} {a : Access} (following : Following both)
    (directed : Directed both a) : Following (perform both a) :=
  Follows.write following a.outcome.persist both.1.wire directed

/-- What a receive phase leaves in the data register. -/
theorem Following.received {both : World × Bus} {a : Access} (following : Following both)
    (receive : a.command = .receive) (reading : both.2.transaction = .reading) :
    (Beside.perform both a).1.master.data =
      (both.2.chip.contents both.2.chip.pointer).setWidth 32 := by
  have latched : Follows { both.1.master with control := a.value &&& 0xff } both.2 :=
    Follows.of_same following rfl rfl rfl rfl rfl rfl
  refine Eq.trans ?_ (latched.receive_reading reading).2
  change (both.1.master.write _ _ _ _ _).1.data = _
  rw [Controller.write_receive receive]
  rfl

theorem directed_iff {both : World × Bus} {a : Access} (following : Following both) :
    Directed both a ↔ Agrees both a := by
  constructor
  · intro directed
    exact ⟨following.perform directed, following.received⟩
  · intro ⟨after, _⟩
    cases command : a.command with
    | send value =>
      have follows : Follows (both.1.master.write a.outcome.persist a.off a.size a.value
          both.1.wire).1 (both.2.step a.command) := after
      rw [Controller.write_send command, command] at follows
      rw [Directed, command]
      exact Follows.directed_of_writeData following follows
    | start | stop | receive | idle =>
      rw [Directed, command]
      trivial

theorem started_following (store : Store) (demod : Option Demod.Model) (path : List Byte)
    (wire : Irq.Wire) (disk : Option Store) : Following (started store demod path wire disk) :=
  ⟨⟨⟨store, rfl, fun _ => rfl⟩, rfl⟩, rfl, rfl⟩

/-- From reset, the master stands for the chip on every sequence of register
writes in which no data byte is sent to the store while it is addressed for
reading, unless it is one that changes nothing; and on no other. -/
theorem agrees_iff (store : Store) (demod : Option Demod.Model) (path : List Byte)
    (wire : Irq.Wire) (disk : Option Store) (accesses : List Access) :
    Runs.Along perform Agrees (started store demod path wire disk) accesses ↔
      Runs.Along perform Directed (started store demod path wire disk) accesses :=
  (Runs.along_congr (started_following store demod path wire disk)
    (fun _ _ following => directed_iff following)
    fun _ _ following directed => following.perform directed).symm

/-- The store is addressed for writing, given an address, and addressed again
for reading; then a data byte is sent. -/
def misdirected : List Access :=
  [(0x00, 0x9a), (0x40, 0xa0), (0x40, 0), (0x40, 0), (0x00, 0x9a), (0x40, 0xa1),
    (0x40, 0x12)].map fun (off, value) => { off, size := .word, value, outcome := .written }

/-- The byte is programmed over the first one of the store. -/
theorem misdirected_disagrees :
    ¬ Runs.Along perform Agrees (started {} none (ascii "nvram.bin") {} none) misdirected := by
  intro agrees
  let both := (misdirected.take 6).foldl perform (started {} none (ascii "nvram.bin") {} none)
  let byte : Access := { off := 0x40, size := .word, value := 0x12, outcome := .written }
  have follows : Follows (perform both byte).1.master (perform both byte).2 :=
    (@Runs.Along.place _ _ perform Agrees _ (misdirected.take 6) [] byte agrees).1
  obtain ⟨store, isStore, contents⟩ := follows.stores.contents
  have held := congrArg (fun held => held.map fun store => store.image 0) isStore
  have blank : store.image 0 = 0xff := contents (Fin.ofNat capacity 0)
  rw [Option.map_some, blank] at held
  exact absurd held (by decide)

end Beside

end I2c

end GoRetroTv
