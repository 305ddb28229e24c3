import GoRetroTv.CpuMips16
import GoRetroTv.Mips32Encoding

/-!
# What the 16-bit instruction set stands for

The 16-bit set is defined by the 32-bit one: each of its instructions that
computes, loads or stores is an encoding of a short sequence of 32-bit
instructions.  `lower` is that definition, read off the halfwords.
-/

namespace GoRetroTv

namespace Cpu

namespace Mips16

open Mips32

/-- The register a field of three bits names. -/
def register (field : BitVec 3) : Register :=
  if field.toNat < 2 then (2 : BitVec 2) ++ field else (0 : BitVec 2) ++ field

section Fields

variable (f : Fetched16)

def opcode : BitVec 5 :=
  f.h.extractLsb' 11 5

def x : Register :=
  register (f.h.extractLsb' 8 3)

def y : Register :=
  register (f.h.extractLsb' 5 3)

def z : Register :=
  register (f.h.extractLsb' 2 3)

def imm4 : BitVec 4 :=
  f.h.extractLsb' 0 4

def imm5 : BitVec 5 :=
  f.h.extractLsb' 0 5

def imm8 : BitVec 8 :=
  f.h.extractLsb' 0 8

/-- The immediate of an extended instruction, scattered over both halfwords. -/
def extended16 : Half :=
  f.ext.extractLsb' 0 5 ++ f.ext.extractLsb' 5 6 ++ f.h.extractLsb' 0 5

def extended15 : BitVec 15 :=
  f.ext.extractLsb' 0 4 ++ f.ext.extractLsb' 4 7 ++ f.h.extractLsb' 0 4

/-- The extended immediate, or a short one. -/
def offset (short : Half) : Half :=
  if f.extended then extended16 f else short

/-- A shift by zero stands for a shift by eight; extended, the amount is taken
as it is. -/
def shiftAmount : BitVec 5 :=
  if f.extended then f.ext.extractLsb' 6 5
  else if f.h.extractLsb' 2 3 = 0 then 8
  else (f.h.extractLsb' 2 3).setWidth 5

/-- The word-aligned address of the instruction, or of the jump before it. -/
def base : Word :=
  f.pcBase.extractLsb' 2 30 ++ (0 : BitVec 2)

/-- Load an address. -/
def loadAddress (register : Register) (address : Word) : List Word :=
  [lui register (address.extractLsb' 16 16),
    ori register register (address.extractLsb' 0 16)]

/-- SHIFT. -/
def lowerShift : Option (List Word) :=
  match (f.h.extractLsb' 0 2).toNat with
  | 0 => some [sll (x f) (y f) (shiftAmount f)]
  | 2 => some [srl (x f) (y f) (shiftAmount f)]
  | 3 => some [sra (x f) (y f) (shiftAmount f)]
  | _ => none

/-- I8: SWRASP, ADJSP, MOV32R, MOVR32. -/
def lowerI8 : Option (List Word) :=
  match (f.h.extractLsb' 8 3).toNat with
  | 2 => some [sw 31 29 (offset f ((imm8 f).setWidth 16 <<< 2))]
  | 3 => some [addiu 29 29 (offset f ((imm8 f).signExtend 16 <<< 3))]
  | 5 =>
      some [or (f.h.extractLsb' 3 2 ++ f.h.extractLsb' 5 3) (register (f.h.extractLsb' 0 3)) 0]
  | 7 => some [or (y f) (f.h.extractLsb' 0 5) 0]
  | _ => none

/-- CNVT. -/
def lowerConvert : Option (List Word) :=
  match (f.h.extractLsb' 5 3).toNat with
  | 0 => some [andi (x f) (x f) 0xff]
  | 1 => some [andi (x f) (x f) 0xffff]
  | 4 => some [sll (x f) (x f) 24, sra (x f) (x f) 24]
  | 5 => some [sll (x f) (x f) 16, sra (x f) (x f) 16]
  | _ => none

/-- RR. -/
def lowerRR : Option (List Word) :=
  match (f.h.extractLsb' 0 5).toNat with
  | 2 => some [slt 24 (x f) (y f)]
  | 3 => some [sltu 24 (x f) (y f)]
  | 4 => some [sllv (y f) (x f) (y f)]
  | 6 => some [srlv (y f) (x f) (y f)]
  | 7 => some [srav (y f) (x f) (y f)]
  | 10 => some [xor 24 (x f) (y f)]
  | 11 => some [subu (x f) 0 (y f)]
  | 12 => some [and (x f) (x f) (y f)]
  | 13 => some [or (x f) (x f) (y f)]
  | 14 => some [xor (x f) (x f) (y f)]
  | 15 => some [nor (x f) (y f) 0]
  | 16 => some [mfhi (x f)]
  | 17 => lowerConvert f
  | 18 => some [mflo (x f)]
  | 24 => some [mult (x f) (y f)]
  | 25 => some [multu (x f) (y f)]
  | 26 => some [div (x f) (y f)]
  | 27 => some [divu (x f) (y f)]
  | _ => none

/-- The 32-bit instructions that a 16-bit one stands for, if it is not a
transfer of control. -/
def lower : Option (List Word) :=
  let short5 := (imm5 f).setWidth 16
  let short8 := (imm8 f).setWidth 16
  let signed8 := (imm8 f).signExtend 16
  match (opcode f).toNat with
  | 0x00 => some [addiu (x f) 29 (offset f (short8 <<< 2))]
  | 0x01 =>
      some (loadAddress (x f) (base f) ++ [addiu (x f) (x f) (offset f (short8 <<< 2))])
  | 0x06 => lowerShift f
  | 0x08 =>
      let imm := if f.extended then (extended15 f).signExtend 16 else (imm4 f).signExtend 16
      some [addiu (y f) (x f) imm]
  | 0x09 => some [addiu (x f) (x f) (offset f signed8)]
  | 0x0a => some [slti 24 (x f) (offset f short8)]
  | 0x0b => some [sltiu 24 (x f) (offset f short8)]
  | 0x0c => lowerI8 f
  | 0x0d => some [ori (x f) 0 (offset f short8)]
  | 0x0e => some [xori 24 (x f) (offset f short8)]
  | 0x10 => some [lb (y f) (x f) (offset f short5)]
  | 0x11 => some [lh (y f) (x f) (offset f (short5 <<< 1))]
  | 0x12 => some [lw (x f) 29 (offset f (short8 <<< 2))]
  | 0x13 => some [lw (y f) (x f) (offset f (short5 <<< 2))]
  | 0x14 => some [lbu (y f) (x f) (offset f short5)]
  | 0x15 => some [lhu (y f) (x f) (offset f (short5 <<< 1))]
  | 0x16 => some (loadAddress (x f) (base f) ++ [lw (x f) (x f) (offset f (short8 <<< 2))])
  | 0x18 => some [sb (y f) (x f) (offset f short5)]
  | 0x19 => some [sh (y f) (x f) (offset f (short5 <<< 1))]
  | 0x1a => some [sw (x f) 29 (offset f (short8 <<< 2))]
  | 0x1b => some [sw (y f) (x f) (offset f (short5 <<< 2))]
  | 0x1c =>
      match (f.h.extractLsb' 0 2).toNat with
      | 1 => some [addu (z f) (x f) (y f)]
      | 3 => some [subu (z f) (x f) (y f)]
      | _ => none
  | 0x1d => lowerRR f
  | _ => none

end Fields

example : lower { pc := 0x100, pcBase := 0xfe, h := 0xb201 } =
    some [lui 2 0, ori 2 2 0xfc, lw 2 2 4] := by
  decide

end Mips16

/-- A 16-bit transfer of control: B, JAL and JALX, the branches on a register or
on T, and the jumps of RR. -/
def Fetched16.IsTransfer (f : Fetched16) : Prop :=
  f.op = 2 ∨ f.op = 3 ∨ f.op = 4 ∨ f.op = 5 ∨ f.op = 12 ∧ f.rx ≤ 1 ∨
    f.op = 0x1d ∧ f.h &&& 31 = 0

instance (f : Fetched16) : Decidable f.IsTransfer :=
  inferInstanceAs (Decidable (_ ∨ _))

end Cpu

end GoRetroTv
