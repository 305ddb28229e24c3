import GoRetroTv.MachineWords
import Mathlib.Tactic.Common
import Mathlib.Tactic.Ring

/-!
# Big-endian bytes

Fixed-width big-endian encodings of natural numbers, the layout shared by every
snapshot and by the broadcast tables.  A width too small for the number keeps
its low bytes, as the source's conversions do.
-/

namespace GoRetroTv

/-- The low `count` bytes of a number, most significant first. -/
def bigEndian : Nat → Nat → List Byte
  | 0, _ => []
  | count + 1, number => bigEndian count (number / 256) ++ [BitVec.ofNat 8 number]

/-- The number a big-endian byte string stands for. -/
def ofBigEndian (bytes : List Byte) : Nat :=
  bytes.foldl (fun number byte => number * 256 + byte.toNat) 0

@[simp]
theorem bigEndian_length (count number : Nat) :
    (bigEndian count number).length = count := by
  induction count generalizing number with
  | zero => rfl
  | succ count ih => simp [bigEndian, ih]

@[simp]
theorem ofBigEndian_append_singleton (bytes : List Byte) (byte : Byte) :
    ofBigEndian (bytes ++ [byte]) = ofBigEndian bytes * 256 + byte.toNat := by
  simp [ofBigEndian]

theorem ofBigEndian_bigEndian_mod (count number : Nat) :
    ofBigEndian (bigEndian count number) = number % 256 ^ count := by
  induction count generalizing number with
  | zero => simp [bigEndian, ofBigEndian, Nat.mod_one]
  | succ count ih =>
      have split := Nat.mod_mul (x := number) (a := 256) (b := 256 ^ count)
      rw [bigEndian, ofBigEndian_append_singleton, ih, BitVec.toNat_ofNat,
        show 256 ^ (count + 1) = 256 * 256 ^ count by ring, split]
      omega

theorem ofBigEndian_bigEndian {count number : Nat} (fits : number < 256 ^ count) :
    ofBigEndian (bigEndian count number) = number := by
  rw [ofBigEndian_bigEndian_mod, Nat.mod_eq_of_lt fits]

theorem ofBigEndian_lt (bytes : List Byte) :
    ofBigEndian bytes < 256 ^ bytes.length := by
  induction bytes using List.reverseRecOn with
  | nil => simp [ofBigEndian]
  | append_singleton bytes byte ih =>
      have small := byte.isLt
      rw [ofBigEndian_append_singleton, List.length_append, List.length_singleton, Nat.pow_succ]
      omega

theorem bigEndian_ofBigEndian (bytes : List Byte) :
    bigEndian bytes.length (ofBigEndian bytes) = bytes := by
  induction bytes using List.reverseRecOn with
  | nil => rfl
  | append_singleton bytes byte ih =>
      have small := byte.isLt
      have rest : (ofBigEndian bytes * 256 + byte.toNat) / 256 = ofBigEndian bytes := by omega
      have last : BitVec.ofNat 8 (ofBigEndian bytes * 256 + byte.toNat) = byte := by
        apply BitVec.eq_of_toNat_eq
        rw [BitVec.toNat_ofNat]
        omega
      rw [List.length_append, List.length_singleton, ofBigEndian_append_singleton, bigEndian, rest,
        last, ih]

end GoRetroTv
