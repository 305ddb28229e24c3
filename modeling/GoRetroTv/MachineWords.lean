import Mathlib.Data.BitVec
import Mathlib.Data.Nat.Notation

/-!
# Fixed-width machine words

The emulator is written against Go's unsigned integers.  Registers, bytes and
addresses are bit vectors, whose arithmetic wraps as the source's does.
Instruction counts are carried as natural numbers below `2 ^ 64`, and every
place where the source adds two counts says whether the sum wraps or is
refused.
-/

namespace GoRetroTv

/-- A `uint8`. -/
abbrev Byte := BitVec 8

/-- A `uint16`. -/
abbrev Half := BitVec 16

/-- A `uint32`: a register, a bus address or a bus value. -/
abbrev Word := BitVec 32

/-- A `uint64` used as data rather than as an instruction count. -/
abbrev DoubleWord := BitVec 64

/-- One past the largest `uint64`. -/
def countLimit : Nat := 2 ^ 64

/-- One past the largest `uint32`. -/
def wordLimit : Nat := 2 ^ 32

theorem toNat_ofNat_of_lt_wordLimit {number : Nat} (fits : number < wordLimit) :
    (BitVec.ofNat 32 number).toNat = number := by
  rw [BitVec.toNat_ofNat]
  exact Nat.mod_eq_of_lt fits

theorem toNat_ofNat_of_lt_countLimit {number : Nat} (fits : number < countLimit) :
    (BitVec.ofNat 64 number).toNat = number := by
  rw [BitVec.toNat_ofNat]
  exact Nat.mod_eq_of_lt fits

/-- Addition of two `uint64` counts where the source does not look at the
carry. -/
def wrapAdd (first second : Nat) : Nat :=
  (first + second) % countLimit

theorem wrapAdd_of_lt {first second : Nat}
    (fits : first + second < countLimit) :
    wrapAdd first second = first + second :=
  Nat.mod_eq_of_lt fits

theorem lt_wrapAdd {now period : Nat} (positive : 0 < period)
    (fits : now + period < countLimit) :
    now < wrapAdd now period := by
  rw [wrapAdd_of_lt fits]
  omega

/-- The bytes of a Go string literal whose characters are all ASCII. -/
def ascii (text : String) : List Byte :=
  text.toList.map fun character => BitVec.ofNat 8 character.toNat

/-- A number in hexadecimal, with zeros in front up to a width. -/
def hexDigits (width n : Nat) : List Char :=
  let digits := Nat.toDigits 16 n
  List.replicate (width - digits.length) '0' ++ digits

/-- `%#x`, and `%#02x` and its like. -/
def hexText (width n : Nat) : String :=
  "0x" ++ String.ofList (hexDigits width n)

theorem hexText_length {width n : Nat} (positive : 0 < width) (fits : n < 16 ^ width) :
    (hexText width n).length = width + 2 := by
  have short : (Nat.toDigits 16 n).length ≤ width :=
    (Nat.length_toDigits_le_iff (by decide) positive).mpr fits
  have front : "0x".length = 2 := rfl
  unfold hexText hexDigits
  dsimp only
  rw [String.length_append, front, String.length_ofList, List.length_append, List.length_replicate]
  omega

/-- `%X`, and `%02X` and its like. -/
def upperHexText (width n : Nat) : String :=
  String.ofList ((hexDigits width n).map Char.toUpper)

/-- Bytes as the text of an error message. -/
def text (bytes : List Byte) : String :=
  String.ofList (bytes.map fun byte => Char.ofNat byte.toNat)

end GoRetroTv
