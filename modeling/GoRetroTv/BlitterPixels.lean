import GoRetroTv.Blitter
import GoRetroTv.DramAccess

/-!
# Pixels in DRAM

A pixel of at most eight bits lies in one byte, first pixel highest; drawing one changes its
bits there and nothing else.
-/

namespace GoRetroTv

namespace Graphics

open Cpu Memory

/-- The depths of the indexed formats. -/
def Indexed (bpp : Word) : Prop :=
  bpp = 1 ∨ bpp = 2 ∨ bpp = 4 ∨ bpp = 8

/-- The bits of a pixel. -/
def pixelOf (depth shift : Nat) (byte : Byte) : Word :=
  byte.setWidth 32 >>> shift &&& ((1 : Word) <<< depth - 1)

/-- A byte with a pixel drawn over it. -/
def drawn (depth shift : Nat) (value : Word) (byte : Byte) : Byte :=
  (byte.setWidth 32 &&& ~~~(((1 : Word) <<< depth - 1) <<< shift) |||
    value <<< shift &&& ((1 : Word) <<< depth - 1) <<< shift).setWidth 8

variable {depth shift other i : Nat} {value : Word} {byte : Byte}

theorem getLsbD_pixelMask :
    ∀ depth ≤ 8, ∀ i < 32, ((1 : Word) <<< depth - 1).getLsbD i = decide (i < depth) := by
  decide

theorem getLsbD_pixelOf (small : depth ≤ 8) (inWord : i < 32) :
    (pixelOf depth shift byte).getLsbD i = (decide (i < depth) && byte.getLsbD (shift + i)) := by
  unfold pixelOf
  rw [BitVec.getLsbD_and, getLsbD_pixelMask depth small i inWord, BitVec.getLsbD_ushiftRight,
    BitVec.getLsbD_setWidth]
  by_cases inPixel : i < depth
  · by_cases inByte : shift + i < 32
    · simp [inPixel, inByte]
    · rw [BitVec.getLsbD_of_ge byte _ (by omega)]
      simp
  · simp [inPixel]

theorem getLsbD_drawn (small : depth ≤ 8) (inByte : i < 8) :
    (drawn depth shift value byte).getLsbD i =
      if shift ≤ i ∧ i < shift + depth then value.getLsbD (i - shift) else byte.getLsbD i := by
  unfold drawn
  rw [BitVec.getLsbD_setWidth, BitVec.getLsbD_or, BitVec.getLsbD_and, BitVec.getLsbD_and,
    BitVec.getLsbD_not, BitVec.getLsbD_shiftLeft, BitVec.getLsbD_shiftLeft,
    BitVec.getLsbD_setWidth, getLsbD_pixelMask depth small _ (by omega)]
  by_cases behind : i < shift
  · simp [behind, inByte, show i < 32 by omega, show ¬shift ≤ i by omega]
  · by_cases inPixel : i - shift < depth
    · simp [behind, inPixel, inByte, show i < 32 by omega, show shift ≤ i by omega,
        show i < shift + depth by omega]
    · simp [behind, inPixel, inByte, show i < 32 by omega, show ¬i < shift + depth by omega]

/-- The pixel drawn is there. -/
theorem pixelOf_drawn (fits : shift + depth ≤ 8) (below : value.toNat < 2 ^ depth) :
    pixelOf depth shift (drawn depth shift value byte) = value := by
  refine BitVec.eq_of_getLsbD_eq fun i inWord => ?_
  rw [getLsbD_pixelOf (by omega) inWord]
  by_cases inPixel : i < depth
  · rw [getLsbD_drawn (by omega) (by omega), if_pos ⟨by omega, by omega⟩, Nat.add_sub_cancel_left,
      decide_eq_true inPixel, Bool.true_and]
  · have above : value.getLsbD i = false := by
      apply Nat.testBit_lt_two_pow
      exact Nat.lt_of_lt_of_le below (Nat.pow_le_pow_right (by decide) (by omega))
    rw [decide_eq_false inPixel, Bool.false_and, above]

/-- The pixels beside it are as they were. -/
theorem pixelOf_drawn_apart (fits : other + depth ≤ 8)
    (apart : other + depth ≤ shift ∨ shift + depth ≤ other) :
    pixelOf depth other (drawn depth shift value byte) = pixelOf depth other byte := by
  refine BitVec.eq_of_getLsbD_eq fun i inWord => ?_
  rw [getLsbD_pixelOf (by omega) inWord, getLsbD_pixelOf (by omega) inWord]
  by_cases inPixel : i < depth
  · rw [getLsbD_drawn (by omega) (by omega), if_neg (by omega)]
  · rw [decide_eq_false inPixel, Bool.false_and, Bool.false_and]

theorem Indexed.cases {bpp : Word} (indexed : Indexed bpp) :
    bpp.toNat = 1 ∨ bpp.toNat = 2 ∨ bpp.toNat = 4 ∨ bpp.toNat = 8 := by
  rcases indexed with rfl | rfl | rfl | rfl <;> decide

/-- The shift of a pixel, counted in numbers. -/
theorem pixelShift_eq {col bpp : Word} (indexed : Indexed bpp) (small : col.toNat < 2 ^ 28) :
    pixelShift col bpp = 8 - bpp.toNat - col.toNat * bpp.toNat % 8 := by
  have wide : (col * bpp).toNat = col.toNat * bpp.toNat := by
    rw [BitVec.toNat_mul, Nat.mod_eq_of_lt]
    rcases indexed.cases with is | is | is | is <;> rw [is] <;> omega
  have low : (col * bpp &&& 7).toNat = col.toNat * bpp.toNat % 8 := by
    rw [BitVec.toNat_and, wide]
    exact Nat.and_two_pow_sub_one_eq_mod _ 3
  unfold pixelShift
  rw [BitVec.toNat_sub, BitVec.toNat_sub, low]
  change _ = 8 - _ - _
  have : (8 : Word).toNat = 8 := rfl
  rcases indexed.cases with is | is | is | is <;> rw [is] at * <;> omega

theorem insideDram_base {off : Word} {length : Nat} (inside : off.toNat + length ≤ dramSize)
    (some_ : 0 < length) : insideDram (dramBase + off) length = true := by
  have below : off.toNat < 2 ^ 25 := by
    rw [dramSize_eq] at inside
    omega
  have address : (dramBase + off).toNat = 2 ^ 31 + off.toNat := by
    rw [BitVec.toNat_add]
    change (2 ^ 31 + off.toNat) % 2 ^ 32 = _
    omega
  unfold insideDram
  rw [address, BitVec.add_comm, BitVec.add_sub_cancel, Bool.and_eq_true, decide_eq_true_eq,
    decide_eq_true_eq]
  exact ⟨by change 2 ^ 31 ≤ _; omega, inside⟩

theorem readDram_base {ram : Ram} {off : Word} (inside : off.toNat < dramSize) :
    readDram (dramBase + off) .byte ram = .ok ((ram.byteAt off).setWidth 32) ram := by
  unfold readDram
  rw [if_pos (insideDram_base inside (by decide))]
  dsimp only
  have spanned : Ram.Inside off .byte := inside
  rw [BitVec.add_comm, BitVec.add_sub_cancel, Ram.read_inside spanned, Ram.peek_byte]

theorem writeDram_base {ram : Ram} {off : Word} (inside : off.toNat < dramSize) (value : Word) :
    ∃ ram', writeDram (dramBase + off) .byte value ram = .ok () ram' ∧
      ∀ a, ram'.byteAt a = if a = off then value.setWidth 8 else ram.byteAt a := by
  refine ⟨ram.write off .byte value, ?_, fun a => ?_⟩
  · unfold writeDram
    rw [if_pos (insideDram_base inside (by decide)), BitVec.add_comm, BitVec.add_sub_cancel]
  · exact Ram.byteAt_writeByte inside

/-- A pixel drawn inside DRAM changes its own bits. -/
theorem put_indexed {ram : Ram} {row col bpp off : Word} (indexed : Indexed bpp)
    (small : col.toNat < 2 ^ 28) (place : row + col * bpp / 8 = dramBase + off)
    (inside : off.toNat < dramSize) (value : Word) :
    ∃ ram', put row col bpp value ram = .ok () ram' ∧
      ∀ a, ram'.byteAt a =
        if a = off then drawn bpp.toNat (pixelShift col bpp) value (ram.byteAt off)
        else ram.byteAt a := by
  have notHalf : bpp ≠ 16 := by
    rintro rfl
    exact absurd indexed (by unfold Indexed; decide)
  unfold put
  rw [if_neg notHalf]
  by_cases byte : bpp = 8
  · -- A whole byte is drawn without reading the old one.
    subst byte
    have whole : row + col = dramBase + off := by
      rw [← place]
      congr 1
      apply BitVec.eq_of_toNat_eq
      rw [BitVec.toNat_udiv, BitVec.toNat_mul]
      change _ = col.toNat * 8 % 2 ^ 32 / 8
      omega
    obtain ⟨ram', wrote, bytes⟩ := @writeDram_base ram _ inside (value &&& 0xff)
    rw [if_pos rfl, whole]
    refine ⟨ram', wrote, fun a => ?_⟩
    have full : (value &&& 0xff).setWidth 8 =
        drawn (8 : Word).toNat (pixelShift col 8) value (ram.byteAt off) := by
      have unshifted : pixelShift col 8 = 0 := by
        rw [pixelShift_eq indexed small]
        exact Nat.sub_eq_zero_of_le (Nat.zero_le _)
      refine BitVec.eq_of_getLsbD_eq fun i inByte => ?_
      have kept : ∀ i < 8, (0xff : Word).getLsbD i = true := by decide
      rw [unshifted, getLsbD_drawn (by decide) inByte, BitVec.getLsbD_setWidth, BitVec.getLsbD_and,
        kept i inByte, if_pos ⟨Nat.zero_le i, by change i < 0 + 8; omega⟩]
      simp [inByte]
    rw [bytes a, full]
  · rw [if_neg byte]
    dsimp only
    rw [place]
    obtain ⟨ram', wrote, bytes⟩ := @writeDram_base ram _ inside
      ((ram.byteAt off).setWidth 32 &&&
        ~~~(((1 : Word) <<< bpp.toNat - 1) <<< pixelShift col bpp) |||
        value <<< pixelShift col bpp &&& ((1 : Word) <<< bpp.toNat - 1) <<< pixelShift col bpp)
    refine ⟨ram', ?_, bytes⟩
    simp only [bind, EStateM.bind, readDram_base inside]
    exact wrote

end Graphics

end GoRetroTv
