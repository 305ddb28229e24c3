import GoRetroTv.BitFields
import GoRetroTv.Mips16Lowering

/-!
# The 16-bit set refines the 32-bit set

`execute16` against `execute32`: whatever 16-bit instruction is accepted, other
than a transfer of control, leaves the registers, HI, LO and the board as the
32-bit instructions it stands for would.
-/

namespace GoRetroTv

namespace Cpu

namespace Mips16

open BitFields

theorem sx16_eq (v : Word) {bits : Nat} (positive : 0 < bits) (fits : bits ≤ 32) :
    sx16 v bits = (v.setWidth bits).signExtend 32 := by
  have isSet : (v.setWidth bits).msb = v.getLsbD (bits - 1) := by
    have inside : bits - 1 < bits := by omega
    simp [BitVec.msb_eq_getLsbD_last, inside]
  have top : (v <<< (32 - bits)).msb = v.getLsbD (bits - 1) := by
    have place : 31 - (32 - bits) = bits - 1 := by omega
    have within : ¬ 31 < 32 - bits := by omega
    have last : bits - 1 < 32 := by omega
    simp [BitVec.msb_eq_getLsbD_last, place, within, BitVec.getLsbD_eq_getElem last]
  ext bit bound
  unfold sx16
  rw [BitVec.getElem_sshiftRight, BitVec.getElem_signExtend, isSet, top]
  by_cases low : bit < bits
  · have inside : 32 - bits + bit < 32 := by omega
    rw [dif_pos inside, dif_pos low]
    simp [BitVec.getLsbD_eq_getElem bound]
  · have outside : ¬ 32 - bits + bit < 32 := by omega
    rw [dif_neg outside, dif_neg low]

theorem sx16_byte (v : Word) : sx16 v 8 = signExtend8 v :=
  sx16_eq v (by decide) (by decide)

theorem sx16_half (v : Word) : sx16 v 16 = signExtend16 v :=
  sx16_eq v (by decide) (by decide)

section Fields

variable {f : Fetched16}

theorem op_eq (fits : f.h.toNat < 65536) : f.op = (opcode f).toNat := by
  rw [Fetched16.op, opcode, BitVec.toNat_ushiftRight, BitVec.extractLsb'_toNat]
  refine (Nat.mod_eq_of_lt ?_).symm
  rw [Nat.shiftRight_eq_div_pow]
  omega

theorem rx_eq : f.rx = (f.h.extractLsb' 8 3).toNat := by
  rw [Fetched16.rx, shift_and_mask f.h 8 3 7 rfl, BitVec.toNat_setWidth_of_le (by decide)]

theorem ry_eq : f.ry = (f.h.extractLsb' 5 3).toNat := by
  rw [Fetched16.ry, shift_and_mask f.h 5 3 7 rfl, BitVec.toNat_setWidth_of_le (by decide)]

theorem m16Register_eq (field : Word) : m16Register field = register (field.extractLsb' 0 3) := by
  have table : ∀ field : BitVec 3, m16Register (field.setWidth 32) = register field := by
    decide
  have masked : m16Register field = m16Register (field &&& 7) := by
    rw [m16Register, m16Register, BitVec.and_assoc, BitVec.and_self]
  rw [masked, and_mask field 3 7 rfl, table]

theorem extractLsb'_ushiftRight (v : Word) (start len : Nat) :
    (v >>> start).extractLsb' 0 len = v.extractLsb' start len := by
  ext bit bound
  simp

theorem x_eq : f.x = x f := by
  rw [Fetched16.x, m16Register_eq, extractLsb'_ushiftRight]
  rfl

theorem y_eq : f.y = y f := by
  rw [Fetched16.y, m16Register_eq, extractLsb'_ushiftRight]
  rfl

theorem register_ne_zero : ∀ field : BitVec 3, register field ≠ 0 := by
  decide

theorem imm16_eq : f.imm16 = (extended16 f).setWidth 32 := by
  rw [Fetched16.imm16, extended16, append_setWidth, append_setWidth, and_mask f.ext 5 31 rfl,
    shift_and_mask f.ext 5 6 63 rfl, and_mask f.h 5 31 rfl, BitVec.shiftLeft_or_distrib,
    ← BitVec.shiftLeft_add]

theorem imm15_eq : f.imm15 = (extended15 f).setWidth 32 := by
  rw [Fetched16.imm15, extended15, append_setWidth, append_setWidth, and_mask f.ext 4 15 rfl,
    shift_and_mask f.ext 4 7 127 rfl, and_mask f.h 4 15 rfl, BitVec.shiftLeft_or_distrib,
    ← BitVec.shiftLeft_add]

theorem immediate_eq {short : Word} {shortHalf : Half} (same : short = shortHalf.signExtend 32) :
    f.immediate short = (offset f shortHalf).signExtend 32 := by
  unfold Fetched16.immediate offset
  split
  · rw [sx16_eq _ (by decide) (by decide), imm16_eq]
    congr 1
    simp
  · exact same

theorem imm8_eq : f.imm8 = (offset f ((imm8 f).setWidth 16)).setWidth 32 := by
  unfold Fetched16.imm8 offset
  split
  · exact imm16_eq
  · rw [and_mask f.h 8 255 rfl]
    simp [imm8]

/-- An unsigned short immediate of eight bits, scaled to words. -/
theorem words8_eq :
    f.immediate (f.imm8 <<< 2) = (offset f ((imm8 f).setWidth 16 <<< 2)).signExtend 32 := by
  by_cases extended : f.extended
  · simp [Fetched16.immediate, offset, extended, sx16_eq, imm16_eq]
  · apply immediate_eq
    rw [signExtend_unsigned _ _ (by decide), Fetched16.imm8, if_neg extended, and_mask f.h 8 255 rfl]
    rfl

theorem unsigned8_eq :
    f.immediate (f.h &&& 255) = (offset f ((imm8 f).setWidth 16)).signExtend 32 := by
  apply immediate_eq
  rw [and_mask f.h 8 255 rfl]
  simpa [imm8] using (signExtend_unsigned (imm8 f) 0 (by decide)).symm

theorem sx16_low8 : sx16 (f.h &&& 255) 8 = (imm8 f).signExtend 32 := by
  rw [sx16_eq _ (by decide) (by decide), and_mask f.h 8 255 rfl]
  congr 1
  simp [imm8]

theorem signed8_eq :
    f.immediate (sx16 (f.h &&& 255) 8) = (offset f ((imm8 f).signExtend 16)).signExtend 32 := by
  have widened : ∀ v : BitVec 8, v.signExtend 32 = (v.signExtend 16).signExtend 32 := by
    decide
  apply immediate_eq
  rw [sx16_low8, widened]

theorem imm15_signed_eq :
    (if f.extended then sx16 f.imm15 15 else sx16 (f.h &&& 15) 4 : Word) =
      (if f.extended then (extended15 f).signExtend 16 else (imm4 f).signExtend 16).signExtend
        32 := by
  have widened {n : Nat} (v : BitVec n) (fits : n ≤ 16) :
      (v.signExtend 16).signExtend 32 = v.signExtend 32 := by
    apply BitVec.eq_of_toInt_eq
    rw [BitVec.toInt_signExtend_of_le (by decide), BitVec.toInt_signExtend_of_le fits,
      BitVec.toInt_signExtend_of_le (by omega)]
  split
  · rw [sx16_eq _ (by decide) (by decide), imm15_eq, widened _ (by decide)]
    congr 1
    simp
  · rw [sx16_eq _ (by decide) (by decide), and_mask f.h 4 15 rfl, widened _ (by decide)]
    congr 1
    simp [imm4]

theorem doubles8_eq :
    f.immediate (sx16 (f.h &&& 255) 8 <<< 3) =
      (offset f ((imm8 f).signExtend 16 <<< 3)).signExtend 32 := by
  have widened : ∀ v : BitVec 8,
      v.signExtend 32 <<< 3 = (v.signExtend 16 <<< 3).signExtend 32 := by
    decide
  apply immediate_eq
  rw [sx16_low8, widened]

theorem memoff_eq {scale : Nat} (small : scale < 11) :
    f.memoff scale = (offset f ((imm5 f).setWidth 16 <<< scale)).signExtend 32 := by
  apply immediate_eq
  rw [signExtend_unsigned _ _ (by omega), and_mask f.h 5 31 rfl]
  rfl

theorem shiftAmount_eq :
    (if f.extended then f.ext >>> 6 &&& 31
      else if f.h >>> 2 &&& 7 = 0 then 8 else f.h >>> 2 &&& 7 : Word).toNat =
      (shiftAmount f).toNat := by
  unfold shiftAmount
  split
  · rw [shift_and_mask f.ext 6 5 31 rfl, BitVec.toNat_setWidth_of_le (by decide)]
  · rw [shift_and_mask f.h 2 3 7 rfl]
    have isZero : ∀ field : BitVec 3, field.setWidth 32 = (0 : Word) ↔ field = 0 := by
      decide
    simp only [isZero]
    split
    · rfl
    · rw [BitVec.toNat_setWidth_of_le (by decide), BitVec.toNat_setWidth_of_le (by decide)]

theorem moveTarget_eq :
    (((f.h >>> 3 &&& 31) &&& 3) <<< 3 ||| (f.h >>> 3 &&& 31) >>> 2 &&& 7).setWidth 5 =
      f.h.extractLsb' 3 2 ++ f.h.extractLsb' 5 3 := by
  have low : (f.h >>> 3 &&& 31) &&& 3 = (f.h.extractLsb' 3 2).setWidth 32 := by
    rw [BitVec.and_assoc]
    exact shift_and_mask f.h 3 2 3 rfl
  have high : (f.h >>> 3 &&& 31) >>> 2 &&& 7 = (f.h.extractLsb' 5 3).setWidth 32 := by
    rw [BitVec.ushiftRight_and_distrib, ← BitVec.shiftRight_add, BitVec.and_assoc]
    exact shift_and_mask f.h 5 3 7 rfl
  rw [low, high, ← append_setWidth]
  simp

theorem base_eq : f.pcBase &&& ~~~(3 : Word) = base f := by
  have cleared : ∀ bit : Fin 32, (~~~(3 : Word)).getLsbD bit = decide (2 ≤ bit.val) := by
    decide
  ext bit bound
  have place := cleared ⟨bit, bound⟩
  rw [BitVec.getLsbD_eq_getElem bound] at place
  rw [BitVec.getElem_and, place]
  have inside : bit < 30 + 2 := bound
  have appended : (base f)[bit] = (f.pcBase.extractLsb' 2 30 ++ (0 : BitVec 2))[bit] := rfl
  rw [appended, BitVec.getElem_append]
  by_cases low : bit < 2
  · simp [low]
  · have raised : 2 + (bit - 2) = bit := by omega
    simp [low, raised, BitVec.getLsbD_eq_getElem bound]
    omega

end Fields

theorem toInt_low32 (v : DoubleWord) : (low32 v).toInt = v.toInt.bmod (2 ^ 32) := by
  rw [low32, BitVec.toInt_setWidth, BitVec.toInt_eq_toNat_bmod, Int.bmod_bmod_of_dvd]
  exact ⟨2 ^ 32, rfl⟩

theorem sdiv_wide (a b : Word) :
    low32 ((a.signExtend 64).sdiv (b.signExtend 64)) = a.sdiv b := by
  apply BitVec.eq_of_toInt_eq
  rw [toInt_low32, BitVec.toInt_sdiv, BitVec.toInt_sdiv, BitVec.toInt_signExtend_of_le (by decide),
    BitVec.toInt_signExtend_of_le (by decide)]
  exact Int.bmod_bmod_of_dvd ⟨2 ^ 32, rfl⟩

theorem srem_wide (a b : Word) :
    low32 ((a.signExtend 64).srem (b.signExtend 64)) = a.srem b := by
  apply BitVec.eq_of_toInt_eq
  rw [toInt_low32, BitVec.toInt_srem, BitVec.toInt_signExtend_of_le (by decide),
    BitVec.toInt_signExtend_of_le (by decide), ← BitVec.toInt_srem, BitVec.toInt_bmod_cancel]
section Running

variable {β : Type} {ops : BusOps β} {c executed final : Core β} {f : Fetched16}

open Cpu.Core Mips32

/-- Two cores agree on the registers, HI, LO and the board. -/
structure SameEffect (c c' : Core β) : Prop where
  gpr : c.gpr = c'.gpr
  hi : c.hi = c'.hi
  lo : c.lo = c'.lo
  bus : c.bus = c'.bus

theorem SameEffect.refl (c : Core β) : SameEffect c c :=
  ⟨rfl, rfl, rfl, rfl⟩

/-- The 32-bit instructions of a 16-bit one have its effect. -/
def Lowers (ops : BusOps β) (f : Fetched16) (c executed : Core β) : Prop :=
  ∃ words final, lower f = some words ∧ c.executeAll ops words = .ok final ∧
    SameEffect executed final

/-- A retired instruction does what its 32-bit instructions do. -/
theorem lowers_of_words {c' : Core β} {effect : Branch × Word}
    (accepted : c'.retire16 f = (executed, .ok effect)) {words : List Word}
    (lowered : lower f = some words) (execution : c.executeAll ops words = .ok final)
    (same : SameEffect c' final) : Lowers ops f c executed ∧ effect = ({}, f.length) := by
  obtain ⟨rfl, isRetired⟩ := Prod.mk.inj accepted
  exact ⟨⟨words, final, lowered, execution, same⟩, (Except.ok.inj isRetired).symm⟩

theorem lowers_of_retired {c' : Core β} {effect : Branch × Word}
    (accepted : c'.retire16 f = (executed, .ok effect)) {w : Word} (lowered : lower f = some [w])
    (execution : c.execute32 ops w = c'.retire) :
    Lowers ops f c executed ∧ effect = ({}, f.length) :=
  lowers_of_words accepted lowered (executeAll_one execution) (.refl c')

/-- A 32-bit store drops the reservation as well. -/
theorem lowers_of_stored {stored : Core β} {effect : Branch × Word}
    (accepted : stored.retire16 f = (executed, .ok effect)) {w : Word}
    (lowered : lower f = some [w])
    (execution : c.execute32 ops w = stored.dropReservation.retire) :
    Lowers ops f c executed ∧ effect = ({}, f.length) :=
  lowers_of_words accepted lowered (executeAll_one execution) ⟨rfl, rfl, rfl, rfl⟩

theorem refuse16_ne {reason : String} {effect : Branch × Word} :
    c.refuse16 f reason ≠ (executed, .ok effect) := by
  simp [refuse16]

theorem shift16_lowers {effect : Branch × Word} (isShift : (opcode f).toNat = 6)
    (accepted : c.shift16 f = (executed, .ok effect)) :
    Lowers ops f c executed ∧ effect = ({}, f.length) := by
  have selector : (f.h &&& 3).toNat = (f.h.extractLsb' 0 2).toNat := by
    rw [and_mask f.h 2 3 rfl, BitVec.toNat_setWidth_of_le (by decide)]
  unfold shift16 at accepted
  dsimp only at accepted
  rw [shiftAmount_eq, selector, x_eq, y_eq] at accepted
  have lowered : lower f = lowerShift f := by
    simp [lower, isShift]
  unfold lowerShift at lowered
  split at accepted
  · exact absurd accepted refuse16_ne
  next notWide =>
    split at accepted
    · exact absurd accepted refuse16_ne
    · have small : (f.h.extractLsb' 0 2).toNat < 4 := BitVec.isLt _
      split at accepted
      next left =>
        rw [left] at lowered
        exact lowers_of_retired accepted lowered (by simp [execute32, special, sll])
      next right =>
        rw [right] at lowered
        exact lowers_of_retired accepted lowered (by simp [execute32, special, srl])
      next notLeft notRight =>
        have arithmetic : (f.h.extractLsb' 0 2).toNat = 3 := by
          have left : ¬ (f.h.extractLsb' 0 2).toNat = 0 := notLeft
          have right : ¬ (f.h.extractLsb' 0 2).toNat = 2 := notRight
          omega
        rw [arithmetic] at lowered
        exact lowers_of_retired accepted lowered (by simp [execute32, special, sra])

theorem i8_lowers {effect : Branch × Word} (isI8 : (opcode f).toNat = 12)
    (straight : ¬ f.rx ≤ 1) (zero : c.gpr 0 = 0) (accepted : c.i8 ops f = (executed, .ok effect)) :
    Lowers ops f c executed ∧ effect = ({}, f.length) := by
  have lowered : lower f = lowerI8 f := by
    simp [lower, isI8]
  have isZero : c.gpr 0#5 = 0#32 := zero
  unfold lowerI8 at lowered
  rw [← rx_eq] at lowered
  unfold i8 at accepted
  dsimp only at accepted
  split at accepted
  next transfer => omega
  next transfer => omega
  next store =>
    rw [store] at lowered
    split at accepted
    · rw [words8_eq] at accepted
      exact lowers_of_stored accepted lowered (by simp [execute32, memory, sw])
    · exact absurd accepted refuse16_ne
  next adjust =>
    rw [adjust] at lowered
    split at accepted
    · rw [doubles8_eq] at accepted
      exact lowers_of_retired accepted lowered (by simp [execute32, addiu])
    · exact absurd accepted refuse16_ne
  · exact absurd accepted refuse16_ne
  next move =>
    rw [move] at lowered
    split at accepted
    · exact absurd accepted refuse16_ne
    · rw [moveTarget_eq, m16Register_eq] at accepted
      exact lowers_of_retired accepted lowered (by simp [execute32, special, Mips32.or, isZero])
  next move =>
    rw [move] at lowered
    split at accepted
    · exact absurd accepted refuse16_ne
    · rw [y_eq, BitVec.setWidth_eq_extractLsb' (by decide)] at accepted
      exact lowers_of_retired accepted lowered (by simp [execute32, special, Mips32.or, isZero])
  · exact absurd accepted refuse16_ne

theorem memory16_lowers {effect : Branch × Word} (fits : f.h.toNat < 65536)
    (isMemory : f.op = 0x10 ∨ f.op = 0x11 ∨ f.op = 0x13 ∨ f.op = 0x14 ∨ f.op = 0x15 ∨
      f.op = 0x18 ∨ f.op = 0x19 ∨ f.op = 0x1b)
    (accepted : c.memory16 ops f = (executed, .ok effect)) :
    Lowers ops f c executed ∧ effect = ({}, f.length) := by
  unfold memory16 at accepted
  rw [x_eq, y_eq, memoff_eq (show 0 < 11 by decide), memoff_eq (show 1 < 11 by decide),
    memoff_eq (show 2 < 11 by decide)] at accepted
  rw [op_eq fits] at accepted isMemory
  rcases isMemory with isOp | isOp | isOp | isOp | isOp | isOp | isOp | isOp
  all_goals simp only [isOp] at accepted
  · rw [sx16_byte] at accepted
    exact lowers_of_retired accepted (by simp [lower, isOp]; rfl) (by simp [execute32, memory, lb])
  · rw [sx16_half] at accepted
    exact lowers_of_retired accepted (by simp [lower, isOp]; rfl) (by simp [execute32, memory, lh])
  · exact lowers_of_retired accepted (by simp [lower, isOp]; rfl) (by simp [execute32, memory, lw])
  · exact lowers_of_retired accepted (by simp [lower, isOp]; rfl) (by simp [execute32, memory, lbu])
  · exact lowers_of_retired accepted (by simp [lower, isOp]; rfl) (by simp [execute32, memory, lhu])
  · exact lowers_of_stored accepted (by simp [lower, isOp]; rfl) (by simp [execute32, memory, sb])
  · exact lowers_of_stored accepted (by simp [lower, isOp]; rfl) (by simp [execute32, memory, sh])
  · exact lowers_of_stored accepted (by simp [lower, isOp]; rfl) (by simp [execute32, memory, sw])

section Setting

variable {register : Register}

theorem load_of_set (value address : Word) (size : Size) :
    (c.set register value).load ops address size =
      ((c.load ops address size).1, (c.load ops address size).2.set register value) := by
  unfold Core.set
  split <;> rfl

theorem executeAll_loadAddress (notZero : register ≠ 0) (address : Word) (rest : List Word) :
    c.executeAll ops (loadAddress register address ++ rest) =
      (c.set register address).executeAll ops rest := by
  have halves : (address.extractLsb' 16 16).setWidth 32 <<< 16 |||
      (address.extractLsb' 0 16).setWidth 32 = address := by
    rw [← append_setWidth, BitVec.extractLsb'_append_extractLsb'_eq_extractLsb' (by decide)]
    simp
  have high : c.execute32 ops (lui register (address.extractLsb' 16 16)) =
      (c.set register ((address.extractLsb' 16 16).setWidth 32 <<< 16)).retire := by
    simp [execute32, lui]
  have low (loaded : Core β) (isHigh : loaded =
      c.set register ((address.extractLsb' 16 16).setWidth 32 <<< 16)) :
      loaded.execute32 ops (ori register register (address.extractLsb' 0 16)) =
        (c.set register address).retire := by
    have value : loaded.gpr register = (address.extractLsb' 16 16).setWidth 32 <<< 16 := by
      rw [isHigh, set_gpr_self notZero]
    have combined : loaded.execute32 ops (ori register register (address.extractLsb' 0 16)) =
        (loaded.set register (loaded.gpr register |||
          (address.extractLsb' 0 16).setWidth 32)).retire := by
      simp [execute32, ori]
    rw [combined, value, halves, isHigh, set_set]
  rw [loadAddress, List.cons_append, executeAll_cons high, List.cons_append,
    executeAll_cons (low _ rfl), List.nil_append]

end Setting

theorem wordAccess16_lowers {effect : Branch × Word} (fits : f.h.toNat < 65536)
    (isAccess : f.op = 0x12 ∨ f.op = 0x1a ∨ f.op = 0x16)
    (accepted : c.wordAccess16 ops f = (executed, .ok effect)) :
    Lowers ops f c executed ∧ effect = ({}, f.length) := by
  unfold wordAccess16 at accepted
  dsimp only at accepted
  rw [x_eq, words8_eq, base_eq] at accepted
  rw [op_eq fits] at accepted isAccess
  split at accepted
  · rcases isAccess with isOp | isOp | isOp
    all_goals simp only [isOp] at accepted
    · exact lowers_of_retired accepted (by simp [lower, isOp]; rfl)
        (by simp [execute32, memory, lw])
    · exact lowers_of_stored accepted (by simp [lower, isOp]; rfl)
        (by simp [execute32, memory, sw])
    · have notZero : x f ≠ 0 := register_ne_zero _
      have lowered : lower f = some (loadAddress (x f) (base f) ++
          [lw (x f) (x f) (offset f ((imm8 f).setWidth 16 <<< 2))]) := by
        simp [lower, isOp]
      refine lowers_of_words accepted lowered
        ((executeAll_loadAddress notZero _ _).trans (executeAll_one ?_)) (.refl _)
      simp [execute32, memory, lw, set_gpr_self notZero, load_of_set, set_set]
  · exact absurd accepted refuse16_ne

theorem convert16_lowers {effect : Branch × Word} (isConvert : lower f = lowerConvert f)
    (accepted : c.convert16 f = (executed, .ok effect)) :
    Lowers ops f c executed ∧ effect = ({}, f.length) := by
  have notZero : x f ≠ 0 := register_ne_zero _
  -- A sign extension is a shift to the top and back.
  have extended (amount : BitVec 5) (value : Word) (isValue : value =
      (c.gpr (x f) <<< amount.toNat).sshiftRight amount.toNat) :
      c.executeAll ops [sll (x f) (x f) amount, sra (x f) (x f) amount] =
        .ok (c.set (x f) value) := by
    have up : c.execute32 ops (sll (x f) (x f) amount) =
        (c.set (x f) (c.gpr (x f) <<< amount.toNat)).retire := by
      simp [execute32, special, sll]
    refine (executeAll_cons up _).trans (executeAll_one ?_)
    simp [execute32, special, sra, set_gpr_self notZero, set_set, isValue]
  unfold lowerConvert at isConvert
  rw [← ry_eq] at isConvert
  unfold convert16 at accepted
  rw [x_eq] at accepted
  dsimp only at accepted
  split at accepted
  next byte =>
    rw [byte] at isConvert
    exact lowers_of_retired accepted isConvert (by simp [execute32, andi])
  next half =>
    rw [half] at isConvert
    exact lowers_of_retired accepted isConvert (by simp [execute32, andi])
  next signedByte =>
    rw [signedByte] at isConvert
    exact lowers_of_words accepted isConvert (extended 24 _ rfl) (.refl _)
  next signedHalf =>
    rw [signedHalf] at isConvert
    exact lowers_of_words accepted isConvert (extended 16 _ rfl) (.refl _)
  · exact absurd accepted refuse16_ne

theorem rr_lowers {effect : Branch × Word} (isRR : (opcode f).toNat = 0x1d)
    (straight : f.h &&& 31 ≠ 0) (zero : c.gpr 0 = 0)
    (accepted : c.rr f = (executed, .ok effect)) :
    Lowers ops f c executed ∧ effect = ({}, f.length) := by
  have isZero : c.gpr 0#5 = 0#32 := zero
  have selector : (f.h &&& 31).toNat = (f.h.extractLsb' 0 5).toNat := by
    rw [and_mask f.h 5 31 rfl, BitVec.toNat_setWidth_of_le (by decide)]
  have lowered : lower f = lowerRR f := by
    simp [lower, isRR]
  unfold lowerRR at lowered
  rw [← selector] at lowered
  unfold rr at accepted
  rw [x_eq, y_eq] at accepted
  dsimp only at accepted
  split at accepted
  · exact absurd accepted refuse16_ne
  · split at accepted
    next jump => exact absurd (BitVec.eq_of_toNat_eq jump) straight
    next function =>
      rw [function] at lowered
      exact lowers_of_retired accepted lowered (by simp [execute32, special, slt])
    next function =>
      rw [function] at lowered
      exact lowers_of_retired accepted lowered (by simp [execute32, special, sltu])
    next function =>
      rw [function] at lowered
      exact lowers_of_retired accepted lowered (by simp [execute32, special, sllv])
    next function =>
      rw [function] at lowered
      exact lowers_of_retired accepted lowered (by simp [execute32, special, srlv])
    next function =>
      rw [function] at lowered
      exact lowers_of_retired accepted lowered (by simp [execute32, special, srav])
    next function =>
      rw [function] at lowered
      exact lowers_of_retired accepted lowered (by simp [execute32, special, Mips32.xor])
    next function =>
      rw [function] at lowered
      exact lowers_of_retired accepted lowered (by simp [execute32, special, subu, isZero])
    next function =>
      rw [function] at lowered
      exact lowers_of_retired accepted lowered (by simp [execute32, special, Mips32.and])
    next function =>
      rw [function] at lowered
      exact lowers_of_retired accepted lowered (by simp [execute32, special, Mips32.or])
    next function =>
      rw [function] at lowered
      exact lowers_of_retired accepted lowered (by simp [execute32, special, Mips32.xor])
    next function =>
      rw [function] at lowered
      exact lowers_of_retired accepted lowered (by simp [execute32, special, nor, isZero])
    next function =>
      rw [function] at lowered
      split at accepted
      · exact absurd accepted refuse16_ne
      · exact lowers_of_retired accepted lowered (by simp [execute32, special, mfhi])
    next function =>
      rw [function] at lowered
      split at accepted
      · exact absurd accepted refuse16_ne
      · exact lowers_of_retired accepted lowered (by simp [execute32, special, mflo])
    next function =>
      rw [function] at lowered
      exact convert16_lowers lowered accepted
    next function =>
      rw [function] at lowered
      exact lowers_of_retired accepted lowered (by simp [execute32, special, mult])
    next function =>
      rw [function] at lowered
      exact lowers_of_retired accepted lowered (by simp [execute32, special, multu])
    next function =>
      rw [function] at lowered
      split at accepted
      next divides =>
        exact lowers_of_retired accepted lowered
          (by simp_all [execute32, special, div, sdiv_wide, srem_wide])
      next divides =>
        exact lowers_of_retired accepted lowered (by simp_all [execute32, special, div])
    next function =>
      rw [function] at lowered
      split at accepted
      next divides =>
        exact lowers_of_retired accepted lowered
          (by simp_all [execute32, special, divu])
      next divides =>
        exact lowers_of_retired accepted lowered (by simp_all [execute32, special, divu])
    · exact absurd accepted refuse16_ne

theorem z_eq : m16Register (f.h >>> 2) = z f := by
  rw [m16Register_eq, extractLsb'_ushiftRight]
  rfl

/-- Every accepted instruction that is not a transfer is lowered. -/
theorem dispatch16_lowers {effect : Branch × Word} (fits : f.h.toNat < 65536)
    (straight : ¬ f.IsTransfer) (zero : c.gpr 0 = 0)
    (accepted : c.dispatch16 ops f = (executed, .ok effect)) :
    Lowers ops f c executed ∧ effect = ({}, f.length) := by
  have isZero : c.gpr 0#5 = 0#32 := zero
  unfold dispatch16 at accepted
  dsimp only at accepted
  rw [x_eq, words8_eq, base_eq, signed8_eq, unsigned8_eq] at accepted
  split at accepted
  next isOp =>
    rw [op_eq fits] at isOp
    split at accepted
    · exact lowers_of_retired accepted (by simp [lower, isOp]; rfl) (by simp [execute32, addiu])
    · exact absurd accepted refuse16_ne
  next isOp =>
    rw [op_eq fits] at isOp
    split at accepted
    · have notZero : x f ≠ 0 := register_ne_zero _
      have lowered : lower f = some (loadAddress (x f) (base f) ++
          [addiu (x f) (x f) (offset f ((imm8 f).setWidth 16 <<< 2))]) := by
        simp [lower, isOp]
      refine lowers_of_words accepted lowered
        ((executeAll_loadAddress notZero _ _).trans (executeAll_one ?_)) (.refl _)
      simp [execute32, addiu, set_gpr_self notZero, set_set]
    · exact absurd accepted refuse16_ne
  next isOp => exact absurd (.inl isOp) straight
  next isOp => exact absurd (.inr (.inl isOp)) straight
  next isOp => exact absurd (.inr (.inr (.inl isOp))) straight
  next isOp => exact absurd (.inr (.inr (.inr (.inl isOp)))) straight
  next isOp => exact shift16_lowers (op_eq fits ▸ isOp) accepted
  next isOp =>
    rw [op_eq fits] at isOp
    split at accepted
    · exact absurd accepted refuse16_ne
    · rw [y_eq, imm15_signed_eq] at accepted
      exact lowers_of_retired accepted (by simp [lower, isOp]; rfl) (by simp [execute32, addiu])
  next isOp =>
    rw [op_eq fits] at isOp
    split at accepted
    · exact lowers_of_retired accepted (by simp [lower, isOp]; rfl) (by simp [execute32, addiu])
    · exact absurd accepted refuse16_ne
  next isOp =>
    rw [op_eq fits] at isOp
    split at accepted
    · exact lowers_of_retired accepted (by simp [lower, isOp]; rfl) (by simp [execute32, slti])
    · exact absurd accepted refuse16_ne
  next isOp =>
    rw [op_eq fits] at isOp
    split at accepted
    · exact lowers_of_retired accepted (by simp [lower, isOp]; rfl) (by simp [execute32, sltiu])
    · exact absurd accepted refuse16_ne
  next isOp =>
    exact i8_lowers (op_eq fits ▸ isOp)
      (fun transfer => straight (.inr (.inr (.inr (.inr (.inl ⟨isOp, transfer⟩)))))) zero accepted
  next isOp =>
    rw [op_eq fits] at isOp
    split at accepted
    · rw [imm8_eq] at accepted
      exact lowers_of_retired accepted (by simp [lower, isOp]; rfl)
        (by simp [execute32, ori, isZero])
    · exact absurd accepted refuse16_ne
  next isOp =>
    rw [op_eq fits] at isOp
    split at accepted
    · rw [imm8_eq] at accepted
      exact lowers_of_retired accepted (by simp [lower, isOp]; rfl) (by simp [execute32, xori])
    · exact absurd accepted refuse16_ne
  iterate 8
    next isOp =>
      exact memory16_lowers fits (by omega) accepted
  iterate 3
    next isOp =>
      exact wordAccess16_lowers fits (by omega) accepted
  next isOp =>
    have selector : (f.h &&& 3).toNat = (f.h.extractLsb' 0 2).toNat := by
      rw [and_mask f.h 2 3 rfl, BitVec.toNat_setWidth_of_le (by decide)]
    rw [op_eq fits] at isOp
    rw [selector, y_eq, z_eq] at accepted
    split at accepted
    · exact absurd accepted refuse16_ne
    · split at accepted
      next function =>
        exact lowers_of_retired accepted (by simp [lower, isOp, function]; rfl)
          (by simp [execute32, special, addu])
      next function =>
        exact lowers_of_retired accepted (by simp [lower, isOp, function]; rfl)
          (by simp [execute32, special, subu])
      · exact absurd accepted refuse16_ne
  next isOp =>
    have notJump : f.h &&& 31 ≠ 0 := fun jump =>
      straight (.inr (.inr (.inr (.inr (.inr ⟨isOp, jump⟩)))))
    exact rr_lowers (op_eq fits ▸ isOp) notJump zero accepted
  · exact absurd accepted refuse16_ne

/-- The fetched halfword has sixteen bits. -/
theorem fetch16_fits (ops : BusOps β) (c : Core β) : (c.fetch16 ops).1.h.toNat < 65536 := by
  have masked (v : Word) : (v &&& 0xffff).toNat < 65536 := by
    rw [and_mask v 16 0xffff rfl, BitVec.toNat_setWidth_of_le (by decide)]
    exact BitVec.isLt _
  unfold fetch16
  dsimp only
  split
  · exact masked _
  · exact masked _

@[simp]
theorem fetch16_gpr (ops : BusOps β) (c : Core β) : (c.fetch16 ops).2.gpr = c.gpr := by
  unfold fetch16
  dsimp only
  split <;> rfl

/-- In a delay slot an instruction is relative to the jump before it. -/
theorem fetch16_pcBase (ops : BusOps β) (c : Core β) :
    (c.fetch16 ops).1.pcBase = if c.hasPendingBranch then c.delayed.from else c.pc := by
  unfold fetch16
  dsimp only
  split <;> rfl

/-- Whatever 16-bit instruction `execute16` accepts, other than a transfer of
control, has the effect of the 32-bit instructions it stands for, executed from
the core as the fetch left it, and passes control to the next instruction. -/
theorem execute16_refines (ops : BusOps β) (c : Core β) (zero : c.gpr 0 = 0) {executed : Core β}
    {effect : Branch × Word} (accepted : c.execute16 ops = (executed, .ok effect))
    (straight : ¬ (c.fetch16 ops).1.IsTransfer) :
    Lowers ops (c.fetch16 ops).1 (c.fetch16 ops).2 executed ∧
      effect = ({}, (c.fetch16 ops).1.length) ∧
        (c.fetch16 ops).1.pcBase = if c.hasPendingBranch then c.delayed.from else c.pc := by
  have fetchedZero : (c.fetch16 ops).2.gpr 0 = 0 := by
    rw [fetch16_gpr, zero]
  have dispatched : (c.fetch16 ops).2.dispatch16 ops (c.fetch16 ops).1 = (executed, .ok effect) :=
    accepted
  obtain ⟨lowers, retired⟩ :=
    dispatch16_lowers (fetch16_fits ops c) straight fetchedZero dispatched
  exact ⟨lowers, retired, fetch16_pcBase ops c⟩

/-- A core in the delay slot of a jump at `0xfe`. -/
def inSlot : Core Unit :=
  { Cpu.new () 0x100 with isa := true, delayed := { «from» := 0xfe, isa := true, armed := true } }

/-- Memory that is LWPC throughout. -/
def lwpcBoard : BusOps Unit where
  read _ _ _ := { bus := (), value := 0xb201 }
  write _ _ _ _ := ((), 0)

/-- LWPC in a delay slot. -/
theorem lwpc_refines :
    Lowers lwpcBoard { pc := 0x100, pcBase := 0xfe, h := 0xb201 } inSlot
      (inSlot.execute16 lwpcBoard).1 :=
  (@execute16_refines _ lwpcBoard inSlot rfl (inSlot.execute16 lwpcBoard).1 ({}, 2) rfl
    (by decide)).1

end Running

end Mips16

end Cpu

end GoRetroTv
