import GoRetroTv.CpuMips32

/-!
# Assembling the 32-bit instruction set

The two formats of the 32-bit set, the instructions that a shorter encoding can
stand for, and the execution of a sequence of them.
-/

namespace GoRetroTv

namespace Cpu

namespace Mips32

/-- An instruction of a register and an immediate. -/
def iType (op : BitVec 6) (rs rt : Register) (imm : Half) : Word :=
  op ++ rs ++ rt ++ imm

/-- A register instruction, of opcode SPECIAL. -/
def rType (rs rt rd sa : Register) (fn : BitVec 6) : Word :=
  (0 : BitVec 6) ++ rs ++ rt ++ rd ++ sa ++ fn

section Instructions

variable (t s d a : Register) (i : Half)

def addiu : Word := iType 9 s t i
def slti : Word := iType 10 s t i
def sltiu : Word := iType 11 s t i
def andi : Word := iType 12 s t i
def ori : Word := iType 13 s t i
def xori : Word := iType 14 s t i
def lui : Word := iType 15 0 t i
def lb : Word := iType 32 s t i
def lh : Word := iType 33 s t i
def lw : Word := iType 35 s t i
def lbu : Word := iType 36 s t i
def lhu : Word := iType 37 s t i
def sb : Word := iType 40 s t i
def sh : Word := iType 41 s t i
def sw : Word := iType 43 s t i

end Instructions

section Instructions

variable (d s t a : Register)

def sll : Word := rType 0 t d a 0
def srl : Word := rType 0 t d a 2
def sra : Word := rType 0 t d a 3
def sllv : Word := rType s t d 0 4
def srlv : Word := rType s t d 0 6
def srav : Word := rType s t d 0 7
def mfhi : Word := rType 0 0 d 0 16
def mflo : Word := rType 0 0 d 0 18
def mult : Word := rType s t 0 0 24
def multu : Word := rType s t 0 0 25
def div : Word := rType s t 0 0 26
def divu : Word := rType s t 0 0 27
def addu : Word := rType s t d 0 33
def subu : Word := rType s t d 0 35
def and : Word := rType s t d 0 36
def or : Word := rType s t d 0 37
def xor : Word := rType s t d 0 38
def nor : Word := rType s t d 0 39
def slt : Word := rType s t d 0 42
def sltu : Word := rType s t d 0 43

end Instructions

section Fields

variable (opcode function : BitVec 6) (s t d a : Register) (i : Half)

theorem extract_iType (start len : Nat) :
    (iType opcode s t i).extractLsb' start len =
      BitVec.extractLsb' start len (opcode ++ s ++ t ++ i) :=
  rfl

theorem extract_rType (start len : Nat) :
    (rType s t d a function).extractLsb' start len =
      BitVec.extractLsb' start len ((0 : BitVec 6) ++ s ++ t ++ d ++ a ++ function) :=
  rfl

@[simp]
theorem op_iType : op (iType opcode s t i) = opcode.toNat := by
  rw [op, extract_iType, BitVec.extractLsb'_append_eq_of_le (by decide),
    BitVec.extractLsb'_append_eq_of_le (by decide),
    BitVec.extractLsb'_append_eq_of_le (by decide)]
  exact congrArg BitVec.toNat (BitVec.extractLsb'_eq_self)

@[simp]
theorem rs_iType : rs (iType opcode s t i) = s := by
  rw [rs, extract_iType, BitVec.extractLsb'_append_eq_of_le (by decide),
    BitVec.extractLsb'_append_eq_of_le (by decide),
    BitVec.extractLsb'_append_eq_of_add_le (by decide)]
  exact BitVec.extractLsb'_eq_self

@[simp]
theorem rt_iType : rt (iType opcode s t i) = t := by
  rw [rt, extract_iType, BitVec.extractLsb'_append_eq_of_le (by decide),
    BitVec.extractLsb'_append_eq_of_add_le (by decide)]
  exact BitVec.extractLsb'_eq_self

theorem and_ffff (w : Word) : w &&& 0xffff = (w.setWidth 16).setWidth 32 := by
  apply BitVec.eq_of_toNat_eq
  rw [BitVec.toNat_and, BitVec.toNat_setWidth, BitVec.toNat_setWidth]
  have masked : w.toNat &&& 2 ^ 16 - 1 = w.toNat % 2 ^ 16 := Nat.and_two_pow_sub_one_eq_mod _ _
  have small : w.toNat % 2 ^ 16 < 2 ^ 32 := by omega
  rw [Nat.mod_eq_of_lt small, ← masked]
  rfl

theorem setWidth_iType : (iType opcode s t i).setWidth 16 = i :=
  BitVec.setWidth_append_eq_right

@[simp]
theorem imm_iType : imm (iType opcode s t i) = i.setWidth 32 := by
  rw [imm, and_ffff, setWidth_iType]

@[simp]
theorem simm_iType : simm (iType opcode s t i) = i.signExtend 32 := by
  rw [simm, imm_iType, signExtend16]
  congr 1
  simp

@[simp]
theorem op_rType : op (rType s t d a function) = 0 := by
  rw [op, extract_rType, BitVec.extractLsb'_append_eq_of_le (by decide),
    BitVec.extractLsb'_append_eq_of_le (by decide),
    BitVec.extractLsb'_append_eq_of_le (by decide),
    BitVec.extractLsb'_append_eq_of_le (by decide),
    BitVec.extractLsb'_append_eq_of_le (by decide)]
  exact congrArg BitVec.toNat (BitVec.extractLsb'_eq_self)

@[simp]
theorem rs_rType : rs (rType s t d a function) = s := by
  rw [rs, extract_rType, BitVec.extractLsb'_append_eq_of_le (by decide),
    BitVec.extractLsb'_append_eq_of_le (by decide),
    BitVec.extractLsb'_append_eq_of_le (by decide),
    BitVec.extractLsb'_append_eq_of_le (by decide),
    BitVec.extractLsb'_append_eq_of_add_le (by decide)]
  exact BitVec.extractLsb'_eq_self

@[simp]
theorem rt_rType : rt (rType s t d a function) = t := by
  rw [rt, extract_rType, BitVec.extractLsb'_append_eq_of_le (by decide),
    BitVec.extractLsb'_append_eq_of_le (by decide),
    BitVec.extractLsb'_append_eq_of_le (by decide),
    BitVec.extractLsb'_append_eq_of_add_le (by decide)]
  exact BitVec.extractLsb'_eq_self

@[simp]
theorem rd_rType : rd (rType s t d a function) = d := by
  rw [rd, extract_rType, BitVec.extractLsb'_append_eq_of_le (by decide),
    BitVec.extractLsb'_append_eq_of_le (by decide),
    BitVec.extractLsb'_append_eq_of_add_le (by decide)]
  exact BitVec.extractLsb'_eq_self

@[simp]
theorem sa_rType : sa (rType s t d a function) = a.toNat := by
  rw [sa, extract_rType, BitVec.extractLsb'_append_eq_of_le (by decide),
    BitVec.extractLsb'_append_eq_of_add_le (by decide)]
  exact congrArg BitVec.toNat (BitVec.extractLsb'_eq_self)

@[simp]
theorem fn_rType : fn (rType s t d a function) = function.toNat := by
  rw [fn, extract_rType, BitVec.extractLsb'_append_eq_of_add_le (by decide)]
  exact congrArg BitVec.toNat (BitVec.extractLsb'_eq_self)

end Fields

end Mips32

namespace Core

variable {β : Type}

open Mips32

/-- Execute instructions that leave the flow of control alone. -/
def executeAll (ops : BusOps β) : List Word → Core β → Except String (Core β)
  | [], c => .ok c
  | w :: ws, c =>
      match c.execute32 ops w with
      | (_, .error error) => .error error
      | (c, .ok effect) =>
          if effect = {} then executeAll ops ws c else .error "transfer of control"

theorem executeAll_cons {ops : BusOps β} {w : Word} {c retired : Core β}
    (executed : c.execute32 ops w = retired.retire) (ws : List Word) :
    executeAll ops (w :: ws) c = executeAll ops ws retired := by
  simp [executeAll, executed, retire]

theorem executeAll_one {ops : BusOps β} {w : Word} {c retired : Core β}
    (executed : c.execute32 ops w = retired.retire) :
    executeAll ops [w] c = .ok retired :=
  executeAll_cons executed []

end Core

end Cpu

end GoRetroTv
