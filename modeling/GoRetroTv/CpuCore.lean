import GoRetroTv.MachineWords
import Mathlib.Tactic.Common
import Mathlib.Logic.Function.Basic

/-!
# The processor's registers

`internal/cpu/core.go`: the architectural state of the core, the count and
compare timer, and the acceptance of an interrupt.  The board behind the core is
a parameter: an access answers with a value, leaves a board and may have raised
external lines on the way, since a device calls back into `Interrupt`.
-/

namespace GoRetroTv

namespace Hexfmt

def digits : List Char :=
  "0123456789ABCDEF".toList

/-- `encode`: upper-case digits, zero padded to a width. -/
def encode (value width : Nat) : String :=
  "0x" ++ String.ofList ((List.range width).reverse.map fun place =>
    digits.getD (value / 16 ^ place % 16) '0')

def addr (address : Word) : String :=
  encode address.toNat 8

def word (value : Word) : String :=
  encode value.toNat 8

def half (value : Half) : String :=
  encode value.toNat 4

def byte (value : Byte) : String :=
  encode value.toNat 2

end Hexfmt

namespace Cpu

/-- The width of a bus access. -/
inductive Size where
  | byte
  | half
  | word
  deriving DecidableEq

/-- What a bus access leaves behind; `raised` holds the external lines the
devices raised while they served it. -/
structure Answer (β : Type) where
  value : Word
  bus : β
  raised : Byte := 0

/-- The bus as the core uses it.  `Fetch` is `Read` but for its observer. -/
structure BusOps (β : Type) where
  read : Word → Size → β → Answer β
  write : Word → Size → Word → β → β × Byte

structure Branch where
  target : Word := 0
  «from» : Word := 0
  isa : Bool := false
  armed : Bool := false
  immediate : Bool := false
  deriving DecidableEq

/-- A register number. -/
abbrev Register := BitVec 5

structure Core (β : Type) where
  gpr : Register → Word := fun _ => 0
  pc : Word
  hi : Word := 0
  lo : Word := 0
  isa : Bool := false
  cop0 : Register → Word := fun _ => 0
  delayed : Branch := {}
  reserved : Word := 0
  hasReservation : Bool := false
  timerPending : Bool := false
  pendingLines : Byte := 0
  bus : β

/-- `New`: start at an address on a bus. -/
def new {β : Type} (bus : β) (pc : Word) : Core β :=
  { pc, bus }

namespace Core

variable {β : Type}

def set (register : Register) (value : Word) (c : Core β) : Core β :=
  if register = 0 then c else { c with gpr := Function.update c.gpr register value }

def setCop0 (register : Register) (value : Word) (c : Core β) : Core β :=
  { c with cop0 := Function.update c.cop0 register value }

/-- Lines raised by a device join the pending ones. -/
def raise (lines : Byte) (c : Core β) : Core β :=
  { c with pendingLines := c.pendingLines ||| lines }

/-- `Interrupt`: raise one external line. -/
def interrupt (ip : Fin 8) (c : Core β) : Core β :=
  c.raise ((1 : Byte) <<< ip.val)

theorem set_zero (value : Word) (c : Core β) : c.set 0 value = c :=
  if_pos rfl

theorem set_set (register : Register) (first second : Word) (c : Core β) :
    (c.set register first).set register second = c.set register second := by
  unfold set
  split
  · rfl
  · simp

theorem set_gpr_self {register : Register} (notZero : register ≠ 0) (value : Word) (c : Core β) :
    (c.set register value).gpr register = value := by
  unfold set
  rw [if_neg notZero]
  exact Function.update_self _ _ _

theorem set_bus (register : Register) (value : Word) (c : Core β) :
    (c.set register value).bus = c.bus := by
  unfold set
  split <;> rfl

theorem raise_zero (c : Core β) : c.raise 0 = c := by
  have same : c.pendingLines ||| 0 = c.pendingLines := BitVec.or_zero
  unfold raise
  rw [same]

/-- A load: the value and the core whose bus has served it. -/
def load (ops : BusOps β) (address : Word) (size : Size) (c : Core β) : Word × Core β :=
  let answer := ops.read address size c.bus
  (answer.value, { c with bus := answer.bus }.raise answer.raised)

def store (ops : BusOps β) (address : Word) (size : Size) (value : Word) (c : Core β) :
    Core β :=
  let (bus, raised) := ops.write address size value c.bus
  { c with bus }.raise raised

def hasPendingBranch (c : Core β) : Bool :=
  c.delayed.armed

/-- `SetDebugPC`: a debugger's new address abandons a pending delay slot. -/
def setDebugPC (pc : Word) (isa : Bool) (c : Core β) : Except String (Core β) :=
  if isa && pc &&& 1 != 0 || !isa && pc &&& 3 != 0 then
    .error s!"cpu: unaligned debugger PC {Hexfmt.addr pc}"
  else
    .ok { c with pc, isa, delayed := {} }

def tickCount (c : Core β) : Core β :=
  let ticked := c.setCop0 9 (c.cop0 9 + 1)
  if ticked.cop0 11 ≠ 0 ∧ ticked.cop0 9 = ticked.cop0 11 then
    { ticked with timerPending := true }
  else ticked

/-- The interrupt requests as they stand in Cause: the external lines and the
timer's. -/
def requests (c : Core β) : Word :=
  let ip := c.pendingLines.setWidth 32 <<< 8
  if c.timerPending then ip ||| (1 : Word) <<< 15 else ip

/-- The guards of `serviceInterrupt`. -/
def interruptReady (c : Core β) : Bool :=
  let ip := c.requests
  let status := c.cop0 12
  !(ip == 0 || (status &&& 1 == 0 || status &&& 6 != 0 || status &&& ip &&& 0xff00 == 0))

/-- `serviceInterrupt`: take an interrupt that is ready. -/
def serviceInterrupt (c : Core β) : Bool × Core β :=
  if c.interruptReady then
    let status := c.cop0 12
    let epc := if c.isa then c.pc ||| 1 else c.pc
    let vectored := ((c.setCop0 13 (c.cop0 13 &&& ~~~0xff7c ||| c.requests)).setCop0 14 epc).setCop0
      12 (status ||| 2)
    (true, { vectored with
      pc := if status &&& (1 : Word) <<< 22 != 0 then 0xBFC00380 else 0x80000180
      isa := false
      pendingLines := 0
      hasReservation := false })
  else (false, c)

end Core

/-- The target that marks a skipped delay slot. -/
def skipSlot : Word :=
  ~~~0

end Cpu

end GoRetroTv
