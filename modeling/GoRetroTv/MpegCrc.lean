import GoRetroTv.BigEndianBytes

/-!
# The MPEG-2 CRC

`internal/dvb/crc.go`: a shift register over a polynomial, fed one byte at a
time.  A register that is fed its own bytes, the highest first, runs empty, so
a section with its CRC appended has the CRC zero.
-/

namespace GoRetroTv

namespace Dvb

section ShiftRegister

variable {w : Nat} (polynomial : BitVec w)

/-- One bit of a non-reflected CRC. -/
def shiftBit (crc : BitVec w) : BitVec w :=
  if crc.msb then crc <<< 1 ^^^ polynomial else crc <<< 1

def shiftBits : Nat → BitVec w → BitVec w
  | 0, crc => crc
  | count + 1, crc => shiftBits count (shiftBit polynomial crc)

/-- While the high bits are clear the register only shifts. -/
theorem shiftBits_of_high_clear (count : Nat) {crc : BitVec w}
    (clear : ∀ i, w - count ≤ i → crc.getLsbD i = false) :
    shiftBits polynomial count crc = crc <<< count := by
  induction count generalizing crc with
  | zero => simp [shiftBits]
  | succ count ih =>
      have low : crc.msb = false := by
        rw [BitVec.msb_eq_getLsbD_last]
        exact clear _ (by omega)
      have shifted : shiftBit polynomial crc = crc <<< 1 := by simp [shiftBit, low]
      rw [shiftBits, shifted, ih, ← BitVec.shiftLeft_add, Nat.add_comm]
      intro i high
      rw [BitVec.getLsbD_shiftLeft]
      rcases Nat.eq_zero_or_pos i with rfl | positive
      · simp
      · rw [clear (i - 1) (by omega), Bool.and_false]

end ShiftRegister

def polynomial : Word :=
  0x04c11db7

/-- One byte of the loop. -/
def crcByte (crc : Word) (b : Byte) : Word :=
  shiftBits polynomial 8 (crc ^^^ (b.setWidth 32 <<< 24))

/-- `MPEGCRC32`. -/
def mpegCRC32 (data : List Byte) : Word :=
  data.foldl crcByte (~~~ 0)

/-- A register fed its own highest byte loses it. -/
theorem crcByte_own (crc : Word) : crcByte crc ((crc >>> 24).setWidth 8) = crc <<< 8 := by
  have clear : ∀ i, 32 - 8 ≤ i →
      (crc ^^^ (((crc >>> 24).setWidth 8).setWidth 32 <<< 24)).getLsbD i = false := by
    intro i high
    simp only [BitVec.getLsbD_xor, BitVec.getLsbD_shiftLeft, BitVec.getLsbD_setWidth,
      BitVec.getLsbD_ushiftRight]
    rcases Nat.lt_or_ge i 32 with inside | outside
    · simp [inside, show ¬ i < 24 by omega, show i - 24 < 8 by omega, show i - 24 < 32 by omega,
        show 24 + (i - 24) = i by omega]
    · simp [outside, BitVec.getLsbD_of_ge]
  rw [crcByte, shiftBits_of_high_clear polynomial 8 clear]
  apply BitVec.eq_of_getLsbD_eq
  intro i inside
  simp only [BitVec.getLsbD_xor, BitVec.getLsbD_shiftLeft]
  simp [show i - 8 < 24 by omega]

theorem bigEndian_four (crc : Word) :
    bigEndian 4 crc.toNat = [(crc >>> 24).setWidth 8, ((crc <<< 8) >>> 24).setWidth 8,
      ((crc <<< 16) >>> 24).setWidth 8, ((crc <<< 24) >>> 24).setWidth 8] := by
  have bound := crc.isLt
  simp only [bigEndian, List.nil_append, List.cons_append, List.cons.injEq, and_true]
  refine ⟨?_, ?_, ?_, ?_⟩ <;> apply BitVec.eq_of_toNat_eq <;>
    simp only [BitVec.toNat_ofNat, BitVec.toNat_setWidth, BitVec.toNat_ushiftRight,
      BitVec.toNat_shiftLeft, Nat.shiftRight_eq_div_pow, Nat.shiftLeft_eq] <;>
    omega

/-- A section with its own CRC behind it. -/
theorem mpegCRC32_append (data : List Byte) :
    mpegCRC32 (data ++ bigEndian 4 (mpegCRC32 data).toNat) = 0 := by
  have own (crc : Word) (shift : Nat) :
      crcByte (crc <<< shift) (((crc <<< shift) >>> 24).setWidth 8) = crc <<< (shift + 8) := by
    rw [crcByte_own, ← BitVec.shiftLeft_add]
  rw [mpegCRC32, List.foldl_append]
  change (bigEndian 4 (mpegCRC32 data).toNat).foldl crcByte (mpegCRC32 data) = 0
  generalize mpegCRC32 data = crc
  rw [bigEndian_four, List.foldl_cons, crcByte_own, List.foldl_cons, own, List.foldl_cons, own,
    List.foldl_cons, own, List.foldl_nil]
  exact BitVec.shiftLeft_eq_zero (by decide)

end Dvb

end GoRetroTv
