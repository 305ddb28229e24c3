import Mathlib.Data.BitVec

/-!
# Fields of a 32-bit word

A field is cut out by a shift and a mask, and put together again by shifts and
disjunctions.  Both are extraction and concatenation of bit vectors.
-/

namespace GoRetroTv

namespace BitFields

theorem append_setWidth {m n : Nat} (high : BitVec m) (low : BitVec n) :
    (high ++ low).setWidth 32 = high.setWidth 32 <<< n ||| low.setWidth 32 := by
  ext bit bound
  simp only [BitVec.getElem_setWidth, BitVec.getLsbD_append, BitVec.getElem_or,
    BitVec.getElem_shiftLeft]
  split
  next below => simp [below]
  next above =>
    simp [above, BitVec.getLsbD_of_ge low bit (by omega)]

theorem shift_and_mask (v : BitVec 32) (start len : Nat) (mask : BitVec 32)
    (isMask : mask.toNat = 2 ^ len - 1) :
    v >>> start &&& mask = (v.extractLsb' start len).setWidth 32 := by
  apply BitVec.eq_of_toNat_eq
  rw [BitVec.toNat_and, isMask, Nat.and_two_pow_sub_one_eq_mod, BitVec.toNat_setWidth,
    BitVec.extractLsb'_toNat, BitVec.toNat_ushiftRight]
  refine (Nat.mod_eq_of_lt (Nat.lt_of_le_of_lt (Nat.mod_le _ _) ?_)).symm
  exact Nat.lt_of_le_of_lt (Nat.shiftRight_le _ _) v.isLt

theorem and_mask (v : BitVec 32) (len : Nat) (mask : BitVec 32)
    (isMask : mask.toNat = 2 ^ len - 1) :
    v &&& mask = (v.extractLsb' 0 len).setWidth 32 := by
  rw [← shift_and_mask v 0 len mask isMask, BitVec.ushiftRight_zero]

theorem signExtend_unsigned {n : Nat} (v : BitVec n) (k : Nat) (fits : n + k < 16) :
    ((v.setWidth 16) <<< k).signExtend 32 = v.setWidth 32 <<< k := by
  have pos : ((v.setWidth 16) <<< k).msb = false := by
    simp [BitVec.msb_eq_getLsbD_last, BitVec.getLsbD_of_ge v (15 - k) (by omega)]
  rw [BitVec.signExtend_eq_setWidth_of_msb_false pos]
  ext bit bound
  simp only [BitVec.getElem_setWidth, BitVec.getLsbD_shiftLeft, BitVec.getElem_shiftLeft,
    BitVec.getLsbD_setWidth]
  by_cases low : bit < 16
  · have inside : bit - k < 16 := by omega
    simp [low, inside]
  · rw [BitVec.getLsbD_of_ge v (bit - k) (by omega)]
    simp

end BitFields

end GoRetroTv
