import GoRetroTv.CpuMips32

/-!
# The 16-bit instruction set

`internal/cpu/mips16.go`: `execute16`, split by opcode.  An extended
instruction is two halfwords, the first of which carries the rest of the
immediate; an instruction reports its own length with its effect.
-/

namespace GoRetroTv

namespace Cpu

def m16Register (field : Word) : Register :=
  match (field &&& 7).toNat with
  | 0 => 16
  | 1 => 17
  | 2 => 2
  | 3 => 3
  | 4 => 4
  | 5 => 5
  | 6 => 6
  | _ => 7

/-- `sx16`: the low bits of a word, sign extended. -/
def sx16 (v : Word) (bits : Nat) : Word :=
  (v <<< (32 - bits)).sshiftRight (32 - bits)

/-- The halfwords of one instruction and the addresses it is relative to. -/
structure Fetched16 where
  pc : Word
  pcBase : Word
  h : Word
  ext : Word := 0
  extended : Bool := false

namespace Fetched16

variable (f : Fetched16)

def length : Word :=
  if f.extended then 4 else 2

def op : Nat :=
  (f.h >>> 11).toNat

def rx : Nat :=
  (f.h >>> 8 &&& 7).toNat

def ry : Nat :=
  (f.h >>> 5 &&& 7).toNat

def x : Register :=
  m16Register (f.h >>> 8)

def y : Register :=
  m16Register (f.h >>> 5)

def next : Word :=
  f.pc + f.length

def imm16 : Word :=
  (f.ext &&& 31) <<< 11 ||| (f.ext >>> 5 &&& 63) <<< 5 ||| f.h &&& 31

def imm15 : Word :=
  (f.ext &&& 15) <<< 11 ||| (f.ext >>> 4 &&& 127) <<< 4 ||| f.h &&& 15

def imm8 : Word :=
  if f.extended then f.imm16 else f.h &&& 255

/-- `constfield`: an extended instruction leaves these bits clear. -/
def constfield : Bool :=
  !f.extended || f.h &&& 0xe0 == 0

/-- The extended immediate, or the short form's own. -/
def immediate (short : Word) : Word :=
  if f.extended then sx16 f.imm16 16 else short

def memoff (scale : Nat) : Word :=
  f.immediate ((f.h &&& 31) <<< scale)

/-- A transfer without a delay slot. -/
def instant (target : Word) : Branch :=
  { target, isa := true, immediate := true }

/-- `%04X` of the halfword. -/
def bad (reason : String) : String :=
  s!"{reason} ({Hexfmt.encode f.h.toNat 4})"

end Fetched16

/-- An executed 16-bit instruction, with its length. -/
abbrev Executed16 (β : Type) :=
  Core β × Except String (Branch × Word)

namespace Core

variable {β : Type}

def retire16 (f : Fetched16) (c : Core β) : Executed16 β :=
  (c, .ok ({}, f.length))

def transfer16 (f : Fetched16) (effect : Branch) (c : Core β) : Executed16 β :=
  (c, .ok (effect, f.length))

def refuse16 (f : Fetched16) (reason : String) (c : Core β) : Executed16 β :=
  (c, .error (f.bad reason))

/-- A branch without a delay slot. -/
def instantIf (f : Fetched16) (ok : Bool) (offset : Word) (c : Core β) : Executed16 β :=
  if ok then c.transfer16 f (Fetched16.instant (f.next + offset)) else c.retire16 f

/-- Opcode 3, JAL and JALX; the rest of the target is the second halfword. -/
def jal16 (ops : BusOps β) (f : Fetched16) (c : Core β) : Executed16 β :=
  if f.extended then c.refuse16 f "extended JAL"
  else
    let (second, c) := c.load ops (f.pc + 2) .half
    let idx := (f.h &&& 31) <<< 21 ||| (f.h >>> 5 &&& 31) <<< 16 ||| second &&& 0xffff
    (c.set 31 (f.pc + 6 ||| 1), .ok (taken (jumpTarget (f.pc + 4) idx) (f.h &&& (1 : Word) <<< 10 == 0), 4))

/-- Opcode 6, immediate shifts. -/
def shift16 (f : Fetched16) (c : Core β) : Executed16 β :=
  let fn := (f.h &&& 3).toNat
  if fn = 1 then c.refuse16 f "64-bit shift"
  else if f.extended && (f.h &&& 0x1c != 0 || f.ext &&& 63 != 0) then
    c.refuse16 f "invalid extended shift"
  else
    let short := f.h >>> 2 &&& 7
    let sa :=
      (if f.extended then f.ext >>> 6 &&& 31 else if short = 0 then 8 else short).toNat
    let v := c.gpr f.y
    match fn with
    | 0 => (c.set f.x (v <<< sa)).retire16 f
    | 2 => (c.set f.x (v >>> sa)).retire16 f
    | _ => (c.set f.x (v.sshiftRight sa)).retire16 f

/-- Opcode 12, I8. -/
def i8 (ops : BusOps β) (f : Fetched16) (c : Core β) : Executed16 β :=
  let off := f.immediate (sx16 (f.h &&& 255) 8)
  match f.rx with
  | 0 =>
      if f.constfield then c.instantIf f (c.gpr 24 == 0) (off <<< 1)
      else c.refuse16 f "invalid extended T branch"
  | 1 =>
      if f.constfield then c.instantIf f (c.gpr 24 != 0) (off <<< 1)
      else c.refuse16 f "invalid extended T branch"
  | 2 =>
      if f.constfield then
        (c.store ops (c.gpr 29 + f.immediate (f.imm8 <<< 2)) .word (c.gpr 31)).retire16 f
      else c.refuse16 f "invalid extended I8"
  | 3 =>
      if f.constfield then
        (c.set 29 (c.gpr 29 + f.immediate (sx16 (f.h &&& 255) 8 <<< 3))).retire16 f
      else c.refuse16 f "invalid extended I8"
  | 4 => c.refuse16 f "SAVE/RESTORE is not in original MIPS16"
  | 5 =>
      if f.extended then c.refuse16 f "extended MOV32R"
      else
        let fld := f.h >>> 3 &&& 31
        let reg := (fld &&& 3) <<< 3 ||| fld >>> 2 &&& 7
        (c.set (reg.setWidth 5) (c.gpr (m16Register f.h))).retire16 f
  | 7 =>
      if f.extended then c.refuse16 f "extended MOVR32"
      else (c.set f.y (c.gpr (f.h.setWidth 5))).retire16 f
  | _ => c.refuse16 f "reserved I8 function"

/-- The loads and stores of a register's memory. -/
def memory16 (ops : BusOps β) (f : Fetched16) (c : Core β) : Executed16 β :=
  let base := c.gpr f.x
  match f.op with
  | 0x10 =>
      let (v, c) := c.load ops (base + f.memoff 0) .byte
      (c.set f.y (sx16 v 8)).retire16 f
  | 0x11 =>
      let (v, c) := c.load ops (base + f.memoff 1) .half
      (c.set f.y (sx16 v 16)).retire16 f
  | 0x13 =>
      let (v, c) := c.load ops (base + f.memoff 2) .word
      (c.set f.y v).retire16 f
  | 0x14 =>
      let (v, c) := c.load ops (base + f.memoff 0) .byte
      (c.set f.y v).retire16 f
  | 0x15 =>
      let (v, c) := c.load ops (base + f.memoff 1) .half
      (c.set f.y v).retire16 f
  | 0x18 => (c.store ops (base + f.memoff 0) .byte (c.gpr f.y)).retire16 f
  | 0x19 => (c.store ops (base + f.memoff 1) .half (c.gpr f.y)).retire16 f
  | _ => (c.store ops (base + f.memoff 2) .word (c.gpr f.y)).retire16 f

/-- LWSP, SWSP and LWPC. -/
def wordAccess16 (ops : BusOps β) (f : Fetched16) (c : Core β) : Executed16 β :=
  if f.constfield then
    let off := f.immediate (f.imm8 <<< 2)
    match f.op with
    | 0x1a => (c.store ops (c.gpr 29 + off) .word (c.gpr f.x)).retire16 f
    | 0x16 =>
        let (v, c) := c.load ops ((f.pcBase &&& ~~~(3 : Word)) + off) .word
        (c.set f.x v).retire16 f
    | _ =>
        let (v, c) := c.load ops (c.gpr 29 + off) .word
        (c.set f.x v).retire16 f
  else c.refuse16 f "invalid extended word access"

/-- The register whose value a jump in RR goes to. -/
def jumpSource (f : Fetched16) : Register :=
  if f.ry = 1 ∨ f.ry = 5 then 31 else f.x

/-- Function 0 of RR: JR, JALR and their compact forms. -/
def jr16 (f : Fetched16) (c : Core β) : Executed16 β :=
  if (f.ry = 1 ∨ f.ry = 5) ∧ f.rx ≠ 0 then c.refuse16 f "invalid JR RA"
  else
    let v := c.gpr (jumpSource f)
    let linked :=
      if f.ry = 2 then c.set 31 (f.pc + 4 ||| 1)
      else if f.ry = 6 then c.set 31 (f.pc + 2 ||| 1)
      else c
    if f.ry ≤ 2 then linked.transfer16 f (jumpTo v)
    else if 4 ≤ f.ry ∧ f.ry ≤ 6 then
      linked.transfer16 f { target := v &&& ~~~1, isa := v &&& 1 != 0, immediate := true }
    else linked.refuse16 f "reserved JR selector"

/-- CNVT: the widths a register is narrowed to. -/
def convert16 (f : Fetched16) (c : Core β) : Executed16 β :=
  let v := c.gpr f.x
  match f.ry with
  | 0 => (c.set f.x (v &&& 255)).retire16 f
  | 1 => (c.set f.x (v &&& 65535)).retire16 f
  | 4 => (c.set f.x (sx16 v 8)).retire16 f
  | 5 => (c.set f.x (sx16 v 16)).retire16 f
  | _ => c.refuse16 f "reserved CNVT"

/-- Opcode 0x1d, RR. -/
def rr (f : Fetched16) (c : Core β) : Executed16 β :=
  let a := c.gpr f.x
  let b := c.gpr f.y
  if f.extended then c.refuse16 f "extended RR"
  else
    match (f.h &&& 31).toNat with
    | 0 => c.jr16 f
    | 2 => (c.set 24 (boolWord (a.slt b))).retire16 f
    | 3 => (c.set 24 (boolWord (a.ult b))).retire16 f
    | 4 => (c.set f.y (b <<< (a &&& 31).toNat)).retire16 f
    | 6 => (c.set f.y (b >>> (a &&& 31).toNat)).retire16 f
    | 7 => (c.set f.y (b.sshiftRight (a &&& 31).toNat)).retire16 f
    | 10 => (c.set 24 (a ^^^ b)).retire16 f
    | 11 => (c.set f.x (-b)).retire16 f
    | 12 => (c.set f.x (a &&& b)).retire16 f
    | 13 => (c.set f.x (a ||| b)).retire16 f
    | 14 => (c.set f.x (a ^^^ b)).retire16 f
    | 15 => (c.set f.x (~~~b)).retire16 f
    | 16 =>
        if f.ry ≠ 0 then c.refuse16 f "invalid MFHI/MFLO" else (c.set f.x c.hi).retire16 f
    | 18 =>
        if f.ry ≠ 0 then c.refuse16 f "invalid MFHI/MFLO" else (c.set f.x c.lo).retire16 f
    | 17 => c.convert16 f
    | 24 =>
        let p : DoubleWord := a.signExtend 64 * b.signExtend 64
        (c.setHiLo (low32 (p >>> 32)) (low32 p)).retire16 f
    | 25 =>
        let p : DoubleWord := a.setWidth 64 * b.setWidth 64
        (c.setHiLo (low32 (p >>> 32)) (low32 p)).retire16 f
    | 26 =>
        if b != 0 then (c.setHiLo (a.srem b) (a.sdiv b)).retire16 f else c.retire16 f
    | 27 =>
        if b != 0 then (c.setHiLo (a % b) (a / b)).retire16 f else c.retire16 f
    | _ => c.refuse16 f "reserved RR function"

/-- The instruction halfwords at the current address. -/
def fetch16 (ops : BusOps β) (c : Core β) : Fetched16 × Core β :=
  let pc := c.pc
  let pcBase := if c.delayed.armed then c.delayed.from else pc
  let (first, c) := c.load ops pc .half
  let h := first &&& 0xffff
  if (h >>> 11).toNat = 0x1e then
    let (second, c) := c.load ops (pc + 2) .half
    ({ pc, pcBase, h := second &&& 0xffff, ext := h &&& 0x7ff, extended := true }, c)
  else
    ({ pc, pcBase, h }, c)

/-- `execute16` once the instruction is fetched. -/
def dispatch16 (ops : BusOps β) (f : Fetched16) (c : Core β) : Executed16 β :=
  let x := c.gpr f.x
  match f.op with
  | 0 =>
      if f.constfield then (c.set f.x (c.gpr 29 + f.immediate (f.imm8 <<< 2))).retire16 f
      else c.refuse16 f "invalid extended constant field"
  | 1 =>
      if f.constfield then
        (c.set f.x ((f.pcBase &&& ~~~(3 : Word)) + f.immediate (f.imm8 <<< 2))).retire16 f
      else c.refuse16 f "invalid extended constant field"
  | 2 =>
      if f.extended && f.h &&& 0x7e0 != 0 then c.refuse16 f "invalid extended B"
      else c.instantIf f true (f.immediate (sx16 (f.h &&& 0x7ff) 11) <<< 1)
  | 3 => c.jal16 ops f
  | 4 =>
      if f.constfield then c.instantIf f (x == 0) (f.immediate (sx16 (f.h &&& 255) 8) <<< 1)
      else c.refuse16 f "invalid extended branch"
  | 5 =>
      if f.constfield then c.instantIf f (x != 0) (f.immediate (sx16 (f.h &&& 255) 8) <<< 1)
      else c.refuse16 f "invalid extended branch"
  | 6 => c.shift16 f
  | 8 =>
      if f.h &&& 16 != 0 then c.refuse16 f "64-bit addiu"
      else
        let imm := if f.extended then sx16 f.imm15 15 else sx16 (f.h &&& 15) 4
        (c.set f.y (x + imm)).retire16 f
  | 9 =>
      if f.constfield then (c.set f.x (x + f.immediate (sx16 (f.h &&& 255) 8))).retire16 f
      else c.refuse16 f "invalid extended addiu"
  | 10 =>
      if f.constfield then
        (c.set 24 (boolWord (x.slt (f.immediate (f.h &&& 255))))).retire16 f
      else c.refuse16 f "invalid extended slti"
  | 11 =>
      if f.constfield then
        (c.set 24 (boolWord (x.ult (f.immediate (f.h &&& 255))))).retire16 f
      else c.refuse16 f "invalid extended slti"
  | 12 => c.i8 ops f
  | 13 =>
      if f.constfield then (c.set f.x f.imm8).retire16 f
      else c.refuse16 f "invalid extended immediate"
  | 14 =>
      if f.constfield then (c.set 24 (x ^^^ f.imm8)).retire16 f
      else c.refuse16 f "invalid extended immediate"
  | 0x10 | 0x11 | 0x13 | 0x14 | 0x15 | 0x18 | 0x19 | 0x1b => c.memory16 ops f
  | 0x12 | 0x1a | 0x16 => c.wordAccess16 ops f
  | 0x1c =>
      let z := m16Register (f.h >>> 2)
      if f.extended then c.refuse16 f "extended RRR"
      else
        match (f.h &&& 3).toNat with
        | 1 => (c.set z (x + c.gpr f.y)).retire16 f
        | 3 => (c.set z (x - c.gpr f.y)).retire16 f
        | _ => c.refuse16 f "64-bit RRR"
  | 0x1d => c.rr f
  | _ => c.refuse16 f "reserved MIPS16 opcode"

/-- `execute16`. -/
def execute16 (ops : BusOps β) (c : Core β) : Executed16 β :=
  let (f, c) := c.fetch16 ops
  c.dispatch16 ops f

end Core

end Cpu

end GoRetroTv
