import GoRetroTv.CpuStep
import GoRetroTv.CpuUnaligned

/-!
# The accesses of an instruction

`ObservedAccess` of `internal/bus/bus.go`: the bus tells an observer every access and marks
those that `Fetch` makes.  The accesses an instruction makes on the bus are compared with
the loads and stores it is there for.
-/

namespace GoRetroTv

namespace Cpu

/-- `MemoryAccess`: a guest's access to data. -/
structure MemoryAccess where
  address : Word
  size : Nat
  write : Bool
  deriving DecidableEq

/-- A bus with the accesses it has told its observer. -/
structure Observed (β : Type) where
  bus : β
  accesses : List MemoryAccess := []

namespace Observed

variable {β : Type}

def tell (access : MemoryAccess) (b : Observed β) : Observed β :=
  { b with accesses := b.accesses ++ [access] }

/-- `Read` and `Write` of an observed bus. -/
def data (ops : BusOps β) : BusOps (Observed β) where
  read address size b :=
    let answer := ops.read address size b.bus
    { value := answer.value
      bus := { b with bus := answer.bus }.tell ⟨address, size.bytes, false⟩
      raised := answer.raised }
  write address size value b :=
    let (bus, raised) := ops.write address size value b.bus
    ({ b with bus }.tell ⟨address, size.bytes, true⟩, raised)

/-- `Fetch` of an observed bus, to an observer that leaves fetches out. -/
def fetch (ops : BusOps β) : BusOps (Observed β) where
  read address size b :=
    let answer := ops.read address size b.bus
    { value := answer.value, bus := { b with bus := answer.bus }, raised := answer.raised }
  write := (data ops).write

end Observed

namespace Core

variable {β : Type}

/-- `execute`, with the two ways to read the bus apart. -/
def executeOn (fetch data : BusOps β) (c : Core β) : Executed16 β :=
  if c.isa then
    if c.pc &&& 1 != 0 then
      (c, .error s!"cpu: unaligned MIPS16 PC {Hexfmt.addr c.pc}")
    else
      let (f, c) := c.fetch16 fetch
      match c.dispatch16 data f with
      | (c, .error error) => (c, .error s!"cpu: MIPS16 at {Hexfmt.addr c.pc}: {error}")
      | (c, .ok effect) => (c, .ok effect)
  else
    if c.pc &&& 3 != 0 then
      (c, .error s!"cpu: unaligned MIPS32 PC {Hexfmt.addr c.pc}")
    else
      let (word, c) := c.load fetch c.pc .word
      match c.execute32 data word with
      | (c, .error error) =>
          (c, .error s!"cpu: {Hexfmt.word word} at {Hexfmt.addr c.pc}: {error}")
      | (c, .ok effect) => (c, .ok (effect, 4))

/-- `StepWithInterruptBoundary`, with the two ways to read the bus apart. -/
def stepOn (fetch data : BusOps β) (beforeVector : Option (Pump β)) (c : Core β) :
    Core β × Except String Unit :=
  match c.beginStep.acceptInterrupt beforeVector with
  | (c, .error error) => (c, .error error)
  | (c, .ok ()) =>
      match c.executeOn fetch data with
      | (c, .error error) => (c, .error error)
      | (c, .ok (effect, length)) => c.follow effect length

theorem executeOn_self (ops : BusOps β) (c : Core β) : c.executeOn ops ops = c.execute ops :=
  rfl

/-- On a bus without an observer the two ways to read are one. -/
theorem stepOn_self (ops : BusOps β) (beforeVector : Option (Pump β)) (c : Core β) :
    c.stepOn ops ops beforeVector = c.stepWithInterruptBoundary ops beforeVector :=
  rfl

open Mips32

/-- The bytes of a word from an address on. -/
def fromByte (ea : Word) (write : Bool) : MemoryAccess :=
  ⟨ea, 4 - ea.toNat % 4, write⟩

/-- The bytes of a word up to an address. -/
def upToByte (ea : Word) (write : Bool) : MemoryAccess :=
  ⟨ea &&& ~~~3, ea.toNat % 4 + 1, write⟩

/-- The loads and stores of a 32-bit instruction. -/
def made32 (w : Word) (c : Core β) : List MemoryAccess :=
  let ea := c.gpr (rs w) + simm w
  match op w with
  | 32 | 36 => [⟨ea, 1, false⟩]
  | 33 | 37 => [⟨ea, 2, false⟩]
  | 35 | 48 => [⟨ea, 4, false⟩]
  | 40 => [⟨ea, 1, true⟩]
  | 41 => [⟨ea, 2, true⟩]
  | 43 => [⟨ea, 4, true⟩]
  | 56 => if c.hasReservation && c.reserved == ea then [⟨ea, 4, true⟩] else []
  | 34 => [fromByte ea false]
  | 38 => [upToByte ea false]
  | 42 => [fromByte ea true]
  | 46 => [upToByte ea true]
  | _ => []

/-- What a 32-bit instruction does on the bus in place of its loads and stores. -/
def instead32 (w : Word) (c : Core β) : Option (List MemoryAccess) :=
  let ea := (c.gpr (rs w) + simm w) &&& ~~~3
  match op w with
  | 34 | 38 => some [⟨ea, 4, false⟩]
  | 42 | 46 => some [⟨ea, 4, false⟩, ⟨ea, 4, true⟩]
  | _ => none

/-- The loads and stores of a 16-bit instruction. -/
def made16 (f : Fetched16) (c : Core β) : List MemoryAccess :=
  let base := c.gpr f.x
  match f.op with
  | 0x10 | 0x14 => [⟨base + f.memoff 0, 1, false⟩]
  | 0x11 | 0x15 => [⟨base + f.memoff 1, 2, false⟩]
  | 0x13 => [⟨base + f.memoff 2, 4, false⟩]
  | 0x18 => [⟨base + f.memoff 0, 1, true⟩]
  | 0x19 => [⟨base + f.memoff 1, 2, true⟩]
  | 0x1b => [⟨base + f.memoff 2, 4, true⟩]
  | 12 =>
      if f.rx = 2 ∧ f.constfield = true then
        [⟨c.gpr 29 + f.immediate (f.imm8 <<< 2), 4, true⟩]
      else []
  | 0x12 =>
      if f.constfield then [⟨c.gpr 29 + f.immediate (f.imm8 <<< 2), 4, false⟩] else []
  | 0x16 =>
      if f.constfield then
        [⟨(f.pcBase &&& ~~~(3 : Word)) + f.immediate (f.imm8 <<< 2), 4, false⟩]
      else []
  | 0x1a =>
      if f.constfield then [⟨c.gpr 29 + f.immediate (f.imm8 <<< 2), 4, true⟩] else []
  | _ => []

/-- What a 16-bit instruction does on the bus in place of its loads and stores: JAL
reads its second halfword as data. -/
def instead16 (f : Fetched16) : Option (List MemoryAccess) :=
  if f.op = 3 ∧ f.extended = false then some [⟨f.pc + 2, 2, false⟩] else none

/-- The instruction at the current address makes these loads and stores. -/
def made (ops : BusOps β) (c : Core β) : List MemoryAccess :=
  if c.isa then
    if c.pc &&& 1 != 0 then [] else (c.fetch16 ops).2.made16 (c.fetch16 ops).1
  else if c.pc &&& 3 != 0 then []
  else (c.load ops c.pc .word).2.made32 (c.load ops c.pc .word).1

/-- The accesses that stand on the bus for those of the instruction at the current address. -/
def instead (ops : BusOps β) (c : Core β) : Option (List MemoryAccess) :=
  if c.isa then
    if c.pc &&& 1 != 0 then none else instead16 (c.fetch16 ops).1
  else if c.pc &&& 3 != 0 then none
  else (c.load ops c.pc .word).2.instead32 (c.load ops c.pc .word).1

/-- What the bus tells of the instruction at the current address. -/
def told (ops : BusOps β) (c : Core β) : List MemoryAccess :=
  (c.instead ops).getD (c.made ops)

/-- An access of the same kind covers the bytes of another. -/
structure Within (a b : MemoryAccess) : Prop where
  write : a.write = b.write
  start : b.address.toNat ≤ a.address.toNat
  stop : a.address.toNat + a.size ≤ b.address.toNat + b.size

theorem fromByte_within (ea : Word) (write : Bool) :
    Within (fromByte ea write) ⟨ea &&& ~~~3, 4, write⟩ := by
  have start := and_not_three ea
  refine ⟨rfl, ?_, ?_⟩
  · change (ea &&& ~~~3).toNat ≤ ea.toNat
    omega
  · change ea.toNat + (4 - ea.toNat % 4) ≤ (ea &&& ~~~3).toNat + 4
    omega

theorem upToByte_within (ea : Word) (write : Bool) :
    Within (upToByte ea write) ⟨ea &&& ~~~3, 4, write⟩ := by
  refine ⟨rfl, Nat.le_refl _, ?_⟩
  change (ea &&& ~~~3).toNat + (ea.toNat % 4 + 1) ≤ (ea &&& ~~~3).toNat + 4
  omega

theorem made32_within {w : Word} {c : Core β} {others : List MemoryAccess}
    (unaligned_ : c.instead32 w = some others) :
    ∀ a ∈ c.made32 w, ∃ b ∈ others, Within a b := by
  unfold instead32 at unaligned_
  dsimp only at unaligned_
  unfold made32
  split at unaligned_
  case h_5 => cases unaligned_
  all_goals
    next opcode =>
      rw [opcode]
      obtain rfl := Option.some_injective _ unaligned_
      intro a member
      obtain rfl := List.mem_singleton.mp member
      first
        | exact ⟨_, List.mem_cons_self, fromByte_within _ _⟩
        | exact ⟨_, List.mem_cons_self, upToByte_within _ _⟩
        | exact ⟨_, List.mem_cons_of_mem _ List.mem_cons_self, fromByte_within _ _⟩
        | exact ⟨_, List.mem_cons_of_mem _ List.mem_cons_self, upToByte_within _ _⟩

/-- What stands on the bus for an instruction's loads and stores covers them. -/
theorem made_within {ops : BusOps β} {c : Core β} {others : List MemoryAccess}
    (told_ : c.instead ops = some others) : ∀ a ∈ c.made ops, ∃ b ∈ others, Within a b := by
  unfold instead at told_
  unfold made
  split at told_
  · next compact =>
    rw [if_pos compact]
    split at told_
    · cases told_
    · next aligned =>
      rw [if_neg aligned]
      unfold instead16 at told_
      split at told_
      · next jump =>
        intro a member
        unfold made16 at member
        rw [jump.1] at member
        cases member
      · cases told_
  · next plain =>
    rw [if_neg plain]
    split at told_
    · cases told_
    · next aligned =>
      rw [if_neg aligned]
      exact made32_within told_

section Fields

variable (c : Core (Observed β))

def accesses (c : Core (Observed β)) : List MemoryAccess :=
  c.bus.accesses

@[simp]
theorem set_accesses (register : Register) (value : Word) :
    (c.set register value).accesses = c.accesses := by
  rw [accesses, set_bus, accesses]

@[simp]
theorem setCop0_accesses (register : Register) (value : Word) :
    (c.setCop0 register value).accesses = c.accesses :=
  rfl

@[simp]
theorem setHiLo_accesses (hi lo : Word) : (c.setHiLo hi lo).accesses = c.accesses :=
  rfl

@[simp]
theorem dropReservation_accesses : c.dropReservation.accesses = c.accesses :=
  rfl

@[simp]
theorem load_accesses (ops : BusOps β) (address : Word) (size : Size) :
    (c.load (Observed.data ops) address size).2.accesses =
      c.accesses ++ [⟨address, size.bytes, false⟩] :=
  rfl

@[simp]
theorem store_accesses (ops : BusOps β) (address : Word) (size : Size) (value : Word) :
    (c.store (Observed.data ops) address size value).accesses =
      c.accesses ++ [⟨address, size.bytes, true⟩] :=
  rfl

@[simp]
theorem fetch_accesses (ops : BusOps β) (address : Word) (size : Size) :
    (c.load (Observed.fetch ops) address size).2.accesses = c.accesses :=
  rfl

@[simp]
theorem retire_accesses : c.retire.1.accesses = c.accesses :=
  rfl

@[simp]
theorem transfer_accesses (effect : Branch) : (c.transfer effect).1.accesses = c.accesses :=
  rfl

@[simp]
theorem refuse_accesses (error : String) : (c.refuse error).1.accesses = c.accesses :=
  rfl

@[simp]
theorem branchTo_accesses (w : Word) (ok : Bool) :
    (c.branchTo w ok).1.accesses = c.accesses := by
  unfold branchTo
  split <;> rfl

@[simp]
theorem branchLikelyTo_accesses (w : Word) (ok : Bool) :
    (c.branchLikelyTo w ok).1.accesses = c.accesses := by
  unfold branchLikelyTo
  split <;> simp

variable (f : Fetched16)

@[simp]
theorem retire16_accesses : (c.retire16 f).1.accesses = c.accesses :=
  rfl

@[simp]
theorem transfer16_accesses (effect : Branch) :
    (c.transfer16 f effect).1.accesses = c.accesses :=
  rfl

@[simp]
theorem refuse16_accesses (reason : String) : (c.refuse16 f reason).1.accesses = c.accesses :=
  rfl

@[simp]
theorem instantIf_accesses (ok : Bool) (offset : Word) :
    (c.instantIf f ok offset).1.accesses = c.accesses := by
  unfold instantIf
  split <;> rfl

end Fields

section Executing

variable {c : Core (Observed β)} {w : Word} {f : Fetched16} {ops : BusOps β}

@[simp]
theorem special_accesses : (c.special w).1.accesses = c.accesses := by
  unfold special
  dsimp only
  split
  all_goals first
    | simp; done
    | (split <;> simp)

@[simp]
theorem regimm_accesses : (c.regimm w).1.accesses = c.accesses := by
  unfold regimm
  dsimp only
  split <;> simp

@[simp]
theorem coprocessor0_accesses : (c.coprocessor0 w).1.accesses = c.accesses := by
  unfold coprocessor0
  dsimp only
  split
  · simp
  · split <;> rfl
  · split
    · rfl
    · split <;> rfl
  · rfl

/-- The opcodes of the aligned and of the unaligned loads and stores. -/
def isAligned32 (w : Word) : Prop :=
  op w ∈ [32, 33, 35, 36, 37, 40, 41, 43, 48, 56]

def isUnaligned32 (w : Word) : Prop :=
  op w ∈ [34, 38, 42, 46]

theorem memory_accesses (aligned : isAligned32 w) :
    (c.memory (Observed.data ops) w).1.accesses =
      c.accesses ++ (c.instead32 w).getD (c.made32 w) := by
  unfold memory made32 instead32
  dsimp only
  split
  case h_9 opcode =>
    rw [opcode]
    exact set_accesses _ _ _
  case h_10 opcode =>
    rw [opcode]
    split <;> simp [Size.bytes]
  case h_11 =>
    simp_all [isAligned32]
  all_goals
    next opcode =>
      rw [opcode]
      simp [Size.bytes]

theorem unaligned_accesses (register : Register) (isUnaligned : isUnaligned32 w) :
    (c.unaligned (Observed.data ops) (op w) register (c.gpr (rs w) + simm w)).accesses =
      c.accesses ++ (c.instead32 w).getD (c.made32 w) := by
  unfold unaligned
  dsimp only
  split
  case h_1 opcode => simp [instead32, opcode, Size.bytes]
  case h_2 opcode => simp [instead32, opcode, Size.bytes]
  case h_3 opcode => simp [instead32, opcode, Size.bytes]
  case h_4 opcode => simp [instead32, opcode, Size.bytes]
  case h_5 =>
    simp_all [isUnaligned32]

theorem other_accesses (aligned : ¬isAligned32 w) (unaligned_ : ¬isUnaligned32 w) :
    (c.execute32 (Observed.data ops) w).1.accesses = c.accesses := by
  unfold isAligned32 at aligned
  unfold isUnaligned32 at unaligned_
  unfold execute32
  dsimp only
  split
  all_goals first
    | simp; done
    | next opcode => exact absurd (by rw [opcode]; decide) aligned
    | next opcode => exact absurd (by rw [opcode]; decide) unaligned_

theorem made32_of_other (aligned : ¬isAligned32 w) (unaligned_ : ¬isUnaligned32 w) :
    (c.instead32 w).getD (c.made32 w) = [] := by
  unfold isAligned32 at aligned
  unfold isUnaligned32 at unaligned_
  unfold made32 instead32
  dsimp only
  split
  all_goals first
    | next opcode => exact absurd (by rw [opcode]; decide) unaligned_
    | skip
  split
  all_goals first
    | rfl
    | next opcode => exact absurd (by rw [opcode]; decide) aligned
    | next opcode => exact absurd (by rw [opcode]; decide) unaligned_

/-- The accesses the bus tells of a 32-bit instruction. -/
theorem execute32_accesses :
    (c.execute32 (Observed.data ops) w).1.accesses =
      c.accesses ++ (c.instead32 w).getD (c.made32 w) := by
  by_cases aligned : isAligned32 w
  · have executed : c.execute32 (Observed.data ops) w = c.memory (Observed.data ops) w := by
      unfold execute32
      have opcode := aligned
      simp only [isAligned32, List.mem_cons, List.not_mem_nil, or_false] at opcode
      rcases opcode with opcode | opcode | opcode | opcode | opcode | opcode | opcode |
        opcode | opcode | opcode
      all_goals
        rw [opcode]
        rfl
    rw [executed, memory_accesses aligned]
  · by_cases isUnaligned : isUnaligned32 w
    · have executed : c.execute32 (Observed.data ops) w =
          (c.unaligned (Observed.data ops) (op w) (rt w) (c.gpr (rs w) + simm w)).retire := by
        unfold execute32
        have opcode := isUnaligned
        simp only [isUnaligned32, List.mem_cons, List.not_mem_nil, or_false] at opcode
        rcases opcode with opcode | opcode | opcode | opcode
        all_goals
          rw [opcode]
          rfl
      rw [executed, retire_accesses, unaligned_accesses _ isUnaligned]
    · rw [other_accesses aligned isUnaligned, made32_of_other aligned isUnaligned, List.append_nil]

@[simp]
theorem shift16_accesses : (c.shift16 f).1.accesses = c.accesses := by
  unfold shift16
  dsimp only
  split
  · rfl
  · split
    · rfl
    · split <;> simp

@[simp]
theorem jr16_accesses : (c.jr16 f).1.accesses = c.accesses := by
  unfold jr16
  dsimp only
  -- The link register is written before the jump.
  have linked : (if f.ry = 2 then c.set 31 (f.pc + 4 ||| 1)
      else if f.ry = 6 then c.set 31 (f.pc + 2 ||| 1) else c).accesses = c.accesses := by
    split
    · simp
    · split <;> simp
  split
  · rfl
  · split
    · exact linked
    · split <;> exact linked

@[simp]
theorem convert16_accesses : (c.convert16 f).1.accesses = c.accesses := by
  unfold convert16
  dsimp only
  split <;> simp

@[simp]
theorem rr_accesses : (c.rr f).1.accesses = c.accesses := by
  unfold rr
  dsimp only
  split
  · rfl
  · split
    all_goals first
      | simp; done
      | (split <;> simp)

theorem i8_accesses (isI8 : f.op = 12) :
    (c.i8 (Observed.data ops) f).1.accesses = c.accesses ++ c.made16 f := by
  have stores : c.made16 f =
      if f.rx = 2 ∧ f.constfield = true then
        [⟨c.gpr 29 + f.immediate (f.imm8 <<< 2), 4, true⟩]
      else [] := by
    unfold made16
    rw [isI8]
    rfl
  rw [stores]
  by_cases push : f.rx = 2
  · unfold i8
    rw [push]
    by_cases fields : f.constfield = true <;> simp [fields, Size.bytes]
  · rw [if_neg fun both => push both.1, List.append_nil]
    unfold i8
    dsimp only
    split
    all_goals first
      | next function => exact absurd function push
      | rfl
      | (split <;> simp)

theorem memory16_accesses
    (isMemory : f.op ∈ [0x10, 0x11, 0x13, 0x14, 0x15, 0x18, 0x19, 0x1b]) :
    (c.dispatch16 (Observed.data ops) f).1.accesses = c.accesses ++ c.made16 f := by
  have executed : c.dispatch16 (Observed.data ops) f = c.memory16 (Observed.data ops) f := by
    unfold dispatch16
    simp only [List.mem_cons, List.not_mem_nil, or_false] at isMemory
    rcases isMemory with op | op | op | op | op | op | op | op
    all_goals
      rw [op]
      rfl
  rw [executed]
  unfold memory16 made16
  simp only [List.mem_cons, List.not_mem_nil, or_false] at isMemory
  rcases isMemory with op | op | op | op | op | op | op | op <;> rw [op] <;> simp [Size.bytes]

theorem wordAccess16_accesses (isWord : f.op ∈ [0x12, 0x16, 0x1a]) :
    (c.dispatch16 (Observed.data ops) f).1.accesses = c.accesses ++ c.made16 f := by
  simp only [List.mem_cons, List.not_mem_nil, or_false] at isWord
  have executed : c.dispatch16 (Observed.data ops) f = c.wordAccess16 (Observed.data ops) f := by
    unfold dispatch16
    rcases isWord with op | op | op
    all_goals
      rw [op]
      rfl
  rw [executed]
  unfold wordAccess16 made16
  rcases isWord with op | op | op <;> rw [op] <;> dsimp only <;> split <;> simp [Size.bytes]

theorem jal16_accesses :
    (c.jal16 (Observed.data ops) f).1.accesses =
      c.accesses ++ if f.extended then [] else [⟨f.pc + 2, 2, false⟩] := by
  unfold jal16
  split <;> simp [Size.bytes]

theorem others16_accesses (jump : f.op ≠ 3)
    (isMemory : f.op ∉ [0x10, 0x11, 0x13, 0x14, 0x15, 0x18, 0x19, 0x1b])
    (isWord : f.op ∉ [0x12, 0x16, 0x1a]) :
    (c.dispatch16 (Observed.data ops) f).1.accesses = c.accesses ++ c.made16 f := by
  by_cases isI8 : f.op = 12
  · have executed : c.dispatch16 (Observed.data ops) f = c.i8 (Observed.data ops) f := by
      unfold dispatch16
      rw [isI8]
      rfl
    rw [executed, i8_accesses isI8]
  · have nothing : c.made16 f = [] := by
      unfold made16
      dsimp only
      split
      all_goals first
        | rfl
        | next op => exact absurd op isI8
        | next op => exact absurd (by rw [op]; decide) isMemory
        | next op => exact absurd (by rw [op]; decide) isWord
    rw [nothing, List.append_nil]
    unfold dispatch16
    dsimp only
    split
    all_goals first
      | next op => exact absurd op jump
      | next op => exact absurd op isI8
      | next op => exact absurd (by rw [op]; decide) isMemory
      | next op => exact absurd (by rw [op]; decide) isWord
      | simp; done
      | (split <;> simp; done)
      | (split
         · rfl
         · split <;> simp)

/-- The accesses the bus tells of a 16-bit instruction. -/
theorem dispatch16_accesses :
    (c.dispatch16 (Observed.data ops) f).1.accesses =
      c.accesses ++ (instead16 f).getD (c.made16 f) := by
  by_cases jump : f.op = 3
  · have executed : c.dispatch16 (Observed.data ops) f = c.jal16 (Observed.data ops) f := by
      unfold dispatch16
      rw [jump]
      rfl
    have nothing : c.made16 f = [] := by
      unfold made16
      rw [jump]
      rfl
    rw [executed, jal16_accesses, instead16, nothing]
    cases f.extended <;> simp [jump]
  · have plain : instead16 f = none := if_neg fun both => jump both.1
    rw [plain, Option.getD_none]
    by_cases isMemory : f.op ∈ [0x10, 0x11, 0x13, 0x14, 0x15, 0x18, 0x19, 0x1b]
    · exact memory16_accesses isMemory
    · by_cases isWord : f.op ∈ [0x12, 0x16, 0x1a]
      · exact wordAccess16_accesses isWord
      · exact others16_accesses jump isMemory isWord

@[simp]
theorem fetch16_accesses : (c.fetch16 (Observed.fetch ops)).2.accesses = c.accesses := by
  unfold fetch16
  dsimp only
  split <;> rfl

/-- The accesses the bus tells of the instruction at the current address. -/
theorem executeOn_accesses :
    (c.executeOn (Observed.fetch ops) (Observed.data ops)).1.accesses =
      c.accesses ++ (c.instead (Observed.fetch ops)).getD (c.made (Observed.fetch ops)) := by
  unfold executeOn instead made
  split
  · split
    · exact (List.append_nil _).symm
    · have executed := @dispatch16_accesses β (c.fetch16 (Observed.fetch ops)).2
        (c.fetch16 (Observed.fetch ops)).1 ops
      rw [fetch16_accesses] at executed
      rw [← executed]
      dsimp only
      split <;> next result => rw [result]
  · split
    · exact (List.append_nil _).symm
    · have executed := @execute32_accesses β (c.load (Observed.fetch ops) c.pc .word).2
        (c.load (Observed.fetch ops) c.pc .word).1 ops
      rw [fetch_accesses] at executed
      rw [← executed]
      dsimp only
      split <;> next result => rw [result]

end Executing

/-- A core on another bus. -/
def onBus {γ : Type} (bus : γ) (c : Core β) : Core γ :=
  { c with bus }

def unobserved (c : Core (Observed β)) : Core β :=
  c.onBus c.bus.bus

section Unobserved

variable (ops : BusOps β) (c : Core (Observed β))

theorem fetch16_unobserved :
    c.unobserved.fetch16 ops =
      ((c.fetch16 (Observed.fetch ops)).1, (c.fetch16 (Observed.fetch ops)).2.unobserved) := by
  have first : c.unobserved.load ops c.pc .half =
      ((c.load (Observed.fetch ops) c.pc .half).1,
        (c.load (Observed.fetch ops) c.pc .half).2.unobserved) := rfl
  unfold fetch16
  dsimp only
  rw [show c.unobserved.pc = c.pc from rfl, first]
  split <;> rfl

theorem made_unobserved : c.made (Observed.fetch ops) = c.unobserved.made ops := by
  unfold made
  rw [fetch16_unobserved]
  rfl

theorem instead_unobserved : c.instead (Observed.fetch ops) = c.unobserved.instead ops := by
  unfold instead
  rw [fetch16_unobserved]
  rfl

theorem tickCount_unobserved : c.tickCount.unobserved = c.unobserved.tickCount := by
  unfold tickCount
  dsimp only
  split
  · next due => exact (if_pos due).symm
  · next early => exact (if_neg early).symm

theorem tickCount_accesses : c.tickCount.accesses = c.accesses := by
  unfold tickCount
  dsimp only
  split <;> rfl

theorem beginStep_unobserved : c.beginStep.unobserved = c.unobserved.beginStep := by
  unfold beginStep
  split
  · next ticks => exact c.tickCount_unobserved.trans (if_pos ticks).symm
  · next still => exact (if_neg still).symm

theorem beginStep_accesses : c.beginStep.accesses = c.accesses := by
  unfold beginStep
  split
  · exact c.tickCount_accesses
  · rfl

end Unobserved

end Core

/-- A pump between an interrupt and its vector goes on behind the observer. -/
def Observed.boundary {β : Type} (pump : Pump β) : Pump (Observed β) := fun c =>
  let pumped := pump c.unobserved
  { bus := { c.bus with bus := pumped.bus }
    raised := pumped.raised
    entry := pumped.entry
    result := pumped.result }

namespace Core

section Boundary

variable {β : Type} (pump : Pump β) (c : Core (Observed β))

theorem afterPump_unobserved :
    (c.afterPump (Observed.boundary pump c)).unobserved =
      c.unobserved.afterPump (pump c.unobserved) := by
  unfold afterPump
  rw [show (Observed.boundary pump c).entry = (pump c.unobserved).entry from rfl]
  cases (pump c.unobserved).entry with
  | none => rfl
  | some entry =>
    dsimp only
    unfold enter
    split
    · next pending => exact (if_pos pending).symm
    · next still => exact (if_neg still).symm

theorem afterPump_accesses :
    (c.afterPump (Observed.boundary pump c)).accesses = c.accesses := by
  unfold afterPump
  split
  · rfl
  · unfold enter
    dsimp only
    split <;> rfl

/-- The iteration of an interrupt, once it is taken. -/
theorem vectored_unobserved :
    (c.tickCount.afterPump (Observed.boundary pump c.tickCount)).unobserved =
        c.unobserved.tickCount.afterPump (pump c.unobserved.tickCount) ∧
      (Observed.boundary pump c.tickCount).result = (pump c.unobserved.tickCount).result ∧
      (c.tickCount.afterPump (Observed.boundary pump c.tickCount)).accesses = c.accesses := by
  rw [afterPump_unobserved, afterPump_accesses, tickCount_accesses, ← tickCount_unobserved]
  exact ⟨rfl, rfl, rfl⟩

theorem acceptInterrupt_unobserved :
    (c.acceptInterrupt (some (Observed.boundary pump))).1.unobserved =
        (c.unobserved.acceptInterrupt (some pump)).1 ∧
      (c.acceptInterrupt (some (Observed.boundary pump))).2 =
        (c.unobserved.acceptInterrupt (some pump)).2 ∧
      (c.acceptInterrupt (some (Observed.boundary pump))).1.accesses = c.accesses := by
  unfold acceptInterrupt
  rw [show c.unobserved.delayed = c.delayed from rfl]
  by_cases armed : c.delayed.armed = true
  · rw [if_pos armed, if_pos armed]
    exact ⟨rfl, rfl, rfl⟩
  · rw [if_neg armed, if_neg armed]
    unfold serviceInterrupt
    rw [show c.unobserved.interruptReady = c.interruptReady from rfl]
    by_cases ready : c.interruptReady = true
    · rw [if_pos ready, if_pos ready]
      exact vectored_unobserved pump _
    · rw [if_neg ready, if_neg ready]
      exact ⟨rfl, rfl, rfl⟩

end Boundary

/-- The core that a step executes an instruction in, behind the interrupt it may take. -/
def begun (beforeVector : Pump β) (c : Core β) : Option (Core β) :=
  match c.beginStep.acceptInterrupt (some beforeVector) with
  | (c, .ok ()) => some c
  | (_, .error _) => none

theorem follow_accesses (effect : Branch) (length : Word) (c : Core (Observed β)) :
    (c.follow effect length).1.accesses = c.accesses := by
  unfold follow
  split
  · split <;> rfl
  · split
    · rfl
    · split <;> rfl

/-- The accesses the bus tells of a step. -/
theorem stepOn_accesses (ops : BusOps β) (pump : Pump β) (c : Core (Observed β)) :
    (c.stepOn (Observed.fetch ops) (Observed.data ops) (some (Observed.boundary pump))).1.accesses =
      match c.unobserved.begun pump with
      | some begun => c.accesses ++ begun.told ops
      | none => c.accesses := by
  obtain ⟨core, result, accesses⟩ := acceptInterrupt_unobserved pump c.beginStep
  rw [beginStep_unobserved] at core result
  rw [beginStep_accesses] at accesses
  unfold stepOn begun
  cases plain : c.unobserved.beginStep.acceptInterrupt (some pump) with
  | mk begun outcome =>
    cases accepted : c.beginStep.acceptInterrupt (some (Observed.boundary pump)) with
    | mk observed told =>
      rw [accepted, plain] at core result
      rw [accepted] at accesses
      dsimp only at core result accesses
      subst core result
      cases told with
      | error error => exact accesses
      | ok _ =>
        have executed := @executeOn_accesses β observed ops
        rw [made_unobserved, instead_unobserved, accesses] at executed
        change _ = c.accesses ++ observed.unobserved.told ops
        unfold told
        rw [← executed]
        dsimp only
        split
        · next result => rw [result]
        · next result =>
          rw [result]
          exact follow_accesses _ _ _

/-- A step that executes no instruction fails. -/
theorem stepOn_of_begun_none (ops : BusOps β) (pump : Pump β) (c : Core (Observed β))
    (none_ : c.unobserved.begun pump = none) :
    ∃ error, (c.stepOn (Observed.fetch ops) (Observed.data ops)
      (some (Observed.boundary pump))).2 = .error error := by
  obtain ⟨-, result, -⟩ := acceptInterrupt_unobserved pump c.beginStep
  rw [beginStep_unobserved] at result
  unfold begun at none_
  unfold stepOn
  cases plain : c.unobserved.beginStep.acceptInterrupt (some pump) with
  | mk begun outcome =>
    cases accepted : c.beginStep.acceptInterrupt (some (Observed.boundary pump)) with
    | mk observed told =>
      rw [plain] at none_
      rw [accepted, plain] at result
      dsimp only at result
      subst result
      cases told with
      | error error => exact ⟨error, rfl⟩
      | ok _ => exact absurd none_ nofun

end Core

end Cpu

end GoRetroTv
