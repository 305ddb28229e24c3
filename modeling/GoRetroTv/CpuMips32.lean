import GoRetroTv.CpuCore

/-!
# The 32-bit instruction set

`internal/cpu/mips32.go`: `execute32`, split by the tables of the instruction
set.  An instruction yields the core after it and either its effect on the flow
of control or the reason it is refused.
-/

namespace GoRetroTv

namespace Cpu

namespace Mips32

def op (w : Word) : Nat :=
  (w.extractLsb' 26 6).toNat

def rs (w : Word) : Register :=
  w.extractLsb' 21 5

def rt (w : Word) : Register :=
  w.extractLsb' 16 5

def rd (w : Word) : Register :=
  w.extractLsb' 11 5

def sa (w : Word) : Nat :=
  (w.extractLsb' 6 5).toNat

def fn (w : Word) : Nat :=
  (w.extractLsb' 0 6).toNat

def imm (w : Word) : Word :=
  w &&& 0xffff

end Mips32

def boolWord (v : Bool) : Word :=
  if v then 1 else 0

def signExtend16 (v : Word) : Word :=
  (v.setWidth 16).signExtend 32

def signExtend8 (v : Word) : Word :=
  (v.setWidth 8).signExtend 32

def low32 (v : DoubleWord) : Word :=
  v.setWidth 32

def Mips32.simm (w : Word) : Word :=
  signExtend16 (imm w)

/-- A transfer of control after a delay slot. -/
def taken (target : Word) (isa : Bool) : Branch :=
  { target, isa, armed := true }

/-- The transfer to the address in a register, whose low bit selects the
instruction set. -/
def jumpTo (value : Word) : Branch :=
  taken (value &&& ~~~1) (value &&& 1 != 0)

/-- A word index within the segment of an address. -/
def jumpTarget (pc index : Word) : Word :=
  let segment := pc &&& 0xf0000000
  segment ||| index <<< 2

/-- An executed instruction. -/
abbrev Executed (β : Type) :=
  Core β × Except String Branch

namespace Core

variable {β : Type}

/-- The instruction leaves the flow of control alone. -/
def retire (c : Core β) : Executed β :=
  (c, .ok {})

def transfer (effect : Branch) (c : Core β) : Executed β :=
  (c, .ok effect)

def refuse (error : String) (c : Core β) : Executed β :=
  (c, .error error)

def setHiLo (hi lo : Word) (c : Core β) : Core β :=
  { c with hi, lo }

def dropReservation (c : Core β) : Core β :=
  { c with hasReservation := false }

/-- `branchTo`: a conditional branch relative to the delay slot. -/
def branchTo (w : Word) (ok : Bool) (c : Core β) : Executed β :=
  if ok then c.transfer (taken (c.pc + 4 + Mips32.simm w <<< 2) false) else c.retire

/-- A likely branch that fails skips its delay slot. -/
def branchLikelyTo (w : Word) (ok : Bool) (c : Core β) : Executed β :=
  if ok then c.branchTo w true else c.transfer { target := skipSlot }

open Mips32

/-- Opcode 0, SPECIAL. -/
def special (w : Word) (c : Core β) : Executed β :=
  let r := c.gpr
  match fn w with
  | 0 => (c.set (rd w) (r (rt w) <<< sa w)).retire
  | 2 => (c.set (rd w) (r (rt w) >>> sa w)).retire
  | 3 => (c.set (rd w) ((r (rt w)).sshiftRight (sa w))).retire
  | 4 => (c.set (rd w) (r (rt w) <<< (r (rs w) &&& 31).toNat)).retire
  | 6 => (c.set (rd w) (r (rt w) >>> (r (rs w) &&& 31).toNat)).retire
  | 7 => (c.set (rd w) ((r (rt w)).sshiftRight (r (rs w) &&& 31).toNat)).retire
  | 8 => c.transfer (jumpTo (r (rs w)))
  | 9 =>
      -- The register is read after the link, which may have replaced it.
      let linked := c.set (rd w) (c.pc + 4 + 4)
      linked.transfer (jumpTo (linked.gpr (rs w)))
  | 15 => c.retire
  | 16 => (c.set (rd w) c.hi).retire
  | 17 => (c.setHiLo (r (rs w)) c.lo).retire
  | 18 => (c.set (rd w) c.lo).retire
  | 19 => (c.setHiLo c.hi (r (rs w))).retire
  | 24 =>
      let p : DoubleWord := (r (rs w)).signExtend 64 * (r (rt w)).signExtend 64
      (c.setHiLo (low32 (p >>> 32)) (low32 p)).retire
  | 25 =>
      let p : DoubleWord := (r (rs w)).setWidth 64 * (r (rt w)).setWidth 64
      (c.setHiLo (low32 (p >>> 32)) (low32 p)).retire
  | 26 =>
      if r (rt w) != 0 then
        let a : DoubleWord := (r (rs w)).signExtend 64
        let b : DoubleWord := (r (rt w)).signExtend 64
        (c.setHiLo (low32 (a.srem b)) (low32 (a.sdiv b))).retire
      else c.retire
  | 27 =>
      if r (rt w) != 0 then
        (c.setHiLo (r (rs w) % r (rt w)) (r (rs w) / r (rt w))).retire
      else c.retire
  | 32 | 33 => (c.set (rd w) (r (rs w) + r (rt w))).retire
  | 34 | 35 => (c.set (rd w) (r (rs w) - r (rt w))).retire
  | 36 => (c.set (rd w) (r (rs w) &&& r (rt w))).retire
  | 37 => (c.set (rd w) (r (rs w) ||| r (rt w))).retire
  | 38 => (c.set (rd w) (r (rs w) ^^^ r (rt w))).retire
  | 39 => (c.set (rd w) (~~~(r (rs w) ||| r (rt w)))).retire
  | 42 => (c.set (rd w) (boolWord ((r (rs w)).slt (r (rt w))))).retire
  | 43 => (c.set (rd w) (boolWord ((r (rs w)).ult (r (rt w))))).retire
  | fn => c.refuse s!"unsupported SPECIAL function {fn}"

/-- Opcode 1, REGIMM: branches on a sign, with a link from variant 16 up. -/
def regimm (w : Word) (c : Core β) : Executed β :=
  let negative := (c.gpr (rs w)).slt 0
  let linked := c.set 31 (c.pc + 4 + 4)
  match (rt w).toNat with
  | 0 => c.branchTo w negative
  | 1 => c.branchTo w !negative
  | 2 => c.branchLikelyTo w negative
  | 3 => c.branchLikelyTo w !negative
  | 16 => linked.branchTo w negative
  | 17 => linked.branchTo w !negative
  | 18 => linked.branchLikelyTo w negative
  | 19 => linked.branchLikelyTo w !negative
  | variant => c.refuse s!"unsupported REGIMM variant {variant}"

/-- Opcode 16, COP0, with ERET as its one operation. -/
def coprocessor0 (w : Word) (c : Core β) : Executed β :=
  match (rs w).toNat with
  | 0 => (c.set (rt w) (c.cop0 (rd w))).retire
  | 4 =>
      let moved := c.setCop0 (rd w) (c.gpr (rt w))
      if rd w = 11 then { moved with timerPending := false }.retire else moved.retire
  | 16 =>
      if w != 0x42000018 then c.refuse s!"unsupported COP0 operation {(rs w).toNat}"
      else
        let status := c.cop0 12
        if status &&& 4 != 0 then
          let ret := c.cop0 30
          (c.setCop0 12 (status &&& ~~~4)).transfer
            { target := ret &&& ~~~1, isa := ret &&& 1 != 0, immediate := true }
        else
          let ret := c.cop0 14
          (c.setCop0 12 (status &&& ~~~2)).transfer
            { target := ret &&& ~~~1, isa := ret &&& 1 != 0, immediate := true }
  | operation => c.refuse s!"unsupported COP0 operation {operation}"

/-- The aligned loads and stores, with LL and SC. -/
def memory (ops : BusOps β) (w : Word) (c : Core β) : Executed β :=
  let ea := c.gpr (rs w) + simm w
  let value := c.gpr (rt w)
  match op w with
  | 32 =>
      let (loaded, c) := c.load ops ea .byte
      (c.set (rt w) (signExtend8 loaded)).retire
  | 33 =>
      let (loaded, c) := c.load ops ea .half
      (c.set (rt w) (signExtend16 loaded)).retire
  | 35 =>
      let (loaded, c) := c.load ops ea .word
      (c.set (rt w) loaded).retire
  | 36 =>
      let (loaded, c) := c.load ops ea .byte
      (c.set (rt w) loaded).retire
  | 37 =>
      let (loaded, c) := c.load ops ea .half
      (c.set (rt w) loaded).retire
  | 40 => (c.store ops ea .byte value).dropReservation.retire
  | 41 => (c.store ops ea .half value).dropReservation.retire
  | 43 => (c.store ops ea .word value).dropReservation.retire
  | 48 =>
      let (loaded, c) := c.load ops ea .word
      { c.set (rt w) loaded with reserved := ea, hasReservation := true }.retire
  | 56 =>
      if c.hasReservation && c.reserved == ea then
        ((c.store ops ea .word value).set (rt w) 1).dropReservation.retire
      else
        (c.set (rt w) 0).dropReservation.retire
  | _ => c.retire

/-- `unaligned`: the big-endian halves of an unaligned word access. -/
def unaligned (ops : BusOps β) (op : Nat) (rt : Register) (ea : Word) (c : Core β) : Core β :=
  let n := (ea &&& 3).toNat
  let addr := ea &&& ~~~3
  let old := c.gpr rt
  let (word, c) := c.load ops addr .word
  match op with
  | 34 =>
      let keep := if n ≠ 0 then (1 : Word) <<< (8 * n) - 1 else 0
      c.set rt (word <<< (8 * n) ||| old &&& keep)
  | 38 =>
      let mask := if n ≠ 3 then (1 : Word) <<< (8 * (n + 1)) - 1 else 0xffffffff
      c.set rt (old &&& ~~~mask ||| word >>> (8 * (3 - n)) &&& mask)
  | 42 =>
      let keep := if n ≠ 0 then (0xffffffff : Word) <<< (8 * (4 - n)) else 0
      (c.store ops addr .word (word &&& keep ||| old >>> (8 * n))).dropReservation
  | 46 =>
      let keep := if n ≠ 3 then (1 : Word) <<< (8 * (3 - n)) - 1 else 0
      (c.store ops addr .word (word &&& keep ||| old <<< (8 * (3 - n)))).dropReservation
  | _ => c

/-- `execute32`. -/
def execute32 (ops : BusOps β) (w : Word) (c : Core β) : Executed β :=
  let r := c.gpr
  let jump := jumpTarget (c.pc + 4) (w &&& 0x03ffffff)
  let linked := c.set 31 (c.pc + 4 + 4)
  match op w with
  | 0 => c.special w
  | 1 => c.regimm w
  | 2 => c.transfer (taken jump false)
  | 3 => linked.transfer (taken jump false)
  | 29 => linked.transfer (taken jump true)
  | 4 => c.branchTo w (r (rs w) == r (rt w))
  | 5 => c.branchTo w (r (rs w) != r (rt w))
  | 6 => c.branchTo w ((r (rs w)).sle 0)
  | 7 => c.branchTo w (!(r (rs w)).sle 0)
  | 8 | 9 => (c.set (rt w) (r (rs w) + simm w)).retire
  | 10 => (c.set (rt w) (boolWord ((r (rs w)).slt (simm w)))).retire
  | 11 => (c.set (rt w) (boolWord ((r (rs w)).ult (simm w)))).retire
  | 12 => (c.set (rt w) (r (rs w) &&& imm w)).retire
  | 13 => (c.set (rt w) (r (rs w) ||| imm w)).retire
  | 14 => (c.set (rt w) (r (rs w) ^^^ imm w)).retire
  | 15 => (c.set (rt w) (imm w <<< 16)).retire
  | 20 => c.branchLikelyTo w (r (rs w) == r (rt w))
  | 21 => c.branchLikelyTo w (r (rs w) != r (rt w))
  | 22 => c.branchLikelyTo w ((r (rs w)).sle 0)
  | 23 => c.branchLikelyTo w (!(r (rs w)).sle 0)
  | 16 => c.coprocessor0 w
  | 32 | 33 | 35 | 36 | 37 | 40 | 41 | 43 | 48 | 56 => c.memory ops w
  | 34 | 38 | 42 | 46 => (c.unaligned ops (op w) (rt w) (r (rs w) + simm w)).retire
  | 47 => c.retire
  | opcode => c.refuse s!"unsupported opcode {opcode}"

end Core

end Cpu

end GoRetroTv
