import GoRetroTv.CpuCore
import GoRetroTv.SnapshotCodec
import Mathlib.Tactic.Ring

/-!
# Numbers as text

Decimal and hexadecimal digits as Go's `strconv` and `internal/platform/hexfmt` write and
read them.
-/

namespace GoRetroTv

/-- A number as `%d` prints it. -/
def decimal (n : Nat) : List Byte :=
  ascii (toString n)

theorem decimal_digits (n : Nat) :
    decimal n = (Nat.toDigits 10 n).map fun digit => BitVec.ofNat 8 digit.toNat := by
  unfold decimal ascii
  rw [Nat.toString_eq_ofList_toDigits, String.toList_ofList]

theorem toNat_of_isDigit {digit : Char} (isDigit : digit.isDigit = true) :
    48 ≤ digit.toNat ∧ digit.toNat ≤ 57 := by
  simpa [Char.isDigit, UInt32.le_iff_toNat_le] using isDigit

theorem decimal_injective {first second : Nat} (same : decimal first = decimal second) :
    first = second := by
  have back : ∀ n, (decimal n).map (fun byte => Char.ofNat byte.toNat) = Nat.toDigits 10 n := by
    intro n
    rw [decimal_digits, List.map_map]
    conv => rhs; rw [← List.map_id (Nat.toDigits 10 n)]
    refine List.map_congr_left fun digit inDigits => ?_
    have bounds := toNat_of_isDigit
      (Nat.isDigit_of_mem_toDigits (by decide) (by decide) inDigits)
    dsimp only [Function.comp_apply, id_eq]
    rw [BitVec.toNat_ofNat, Nat.mod_eq_of_lt (by omega), Char.ofNat_toNat]
  have digits : Nat.toDigits 10 first = Nat.toDigits 10 second := by
    rw [← back, ← back, same]
  rw [← Nat.ofDigitChars_ten_toDigits (n := first), digits, Nat.ofDigitChars_ten_toDigits]

theorem decimal_bytes {n : Nat} {byte : Byte} (member : byte ∈ decimal n) :
    48 ≤ byte.toNat ∧ byte.toNat ≤ 57 := by
  rw [decimal_digits] at member
  obtain ⟨digit, inDigits, rfl⟩ := List.mem_map.mp member
  have bounds := toNat_of_isDigit
    (Nat.isDigit_of_mem_toDigits (by decide) (by decide) inDigits)
  rw [BitVec.toNat_ofNat, Nat.mod_eq_of_lt (by omega)]
  exact bounds

theorem decimal_ne_nil (n : Nat) : decimal n ≠ [] := by
  rw [decimal_digits, ne_eq, List.map_eq_nil_iff]
  exact Nat.toDigits_ne_nil

/-- The byte of a decimal digit. -/
theorem digitChar_byte {d : Nat} (small : d < 10) :
    BitVec.ofNat 8 d.digitChar.toNat = BitVec.ofNat 8 (48 + d) := by
  revert d
  decide

/-- The last digit is what is left of the division by ten. -/
theorem decimal_step {n : Nat} (large : 10 ≤ n) :
    decimal n = decimal (n / 10) ++ [BitVec.ofNat 8 (48 + n % 10)] := by
  rw [decimal_digits, Nat.toDigits_of_base_le (by decide) large, List.map_append, ← decimal_digits,
    List.map_singleton, digitChar_byte (Nat.mod_lt n (by decide))]

theorem decimal_small {n : Nat} (small : n < 10) : decimal n = [BitVec.ofNat 8 (48 + n)] := by
  rw [decimal_digits, Nat.toDigits_of_lt_base small, List.map_singleton, digitChar_byte small]

/-- A number that loses its last digits is smaller. -/
theorem prefix_decimal {n : Nat} {digits : List Byte} (part : digits <+: decimal n)
    (some_ : digits ≠ []) : digits = decimal n ∨ ∃ m < n, digits = decimal m := by
  induction n using Nat.strong_induction_on with
  | _ n ih =>
    by_cases small : n < 10
    · rw [decimal_small small] at part ⊢
      obtain ⟨rest, whole⟩ := part
      rcases List.append_eq_singleton_iff.mp whole with ⟨empty, -⟩ | ⟨all, -⟩
      · exact absurd empty some_
      · exact .inl all
    · rw [decimal_step (by omega)] at part ⊢
      rcases List.prefix_concat_iff.mp part with all | shorter
      · exact .inl all
      · rcases ih (n / 10) (by omega) shorter with all | ⟨m, less, all⟩
        · exact .inr ⟨n / 10, by omega, all⟩
        · exact .inr ⟨m, by omega, all⟩

namespace Strconv

/-- The digit of a byte, in the largest base. -/
def digitValue (c : Byte) : Option Nat :=
  if 0x30 ≤ c ∧ c ≤ 0x39 then some (c.toNat - 0x30)
  else if 0x61 ≤ c ||| 0x20 ∧ c ||| 0x20 ≤ 0x7a then some ((c ||| 0x20).toNat - 0x61 + 10)
  else none

/-- What is wrong with a number. -/
inductive NumberFault where
  | syntax_
  | range
  deriving DecidableEq

def NumberFault.text : NumberFault → String
  | .syntax_ => "invalid syntax"
  | .range => "value out of range"

/-- The digits after those of `value`. -/
def digits (base most value : Nat) : List Byte → Except NumberFault Nat
  | [] => .ok value
  | c :: cs =>
      match digitValue c with
      | none => .error .syntax_
      | some d =>
          if base ≤ d then .error .syntax_
          else if most < value * base + d then .error .range
          else digits base most (value * base + d) cs

/-- What `strconv` says of a number that it does not read. -/
def numError (function : String) (s : List Byte) (fault : NumberFault) : String :=
  s!"strconv.{function}: parsing {Snapcodec.quoted s}: {fault.text}"

/-- `ParseUint`, in a base that is given. -/
def parseUint (s : List Byte) (base bitSize : Nat) : Except String Nat :=
  match if s = [] then .error .syntax_ else digits base (2 ^ bitSize - 1) 0 s with
  | .ok value => .ok value
  | .error fault => .error (numError "ParseUint" s fault)

/-- `Atoi`, of a sixty-four-bit `int`. -/
def atoi (s : List Byte) : Except String Int :=
  let (negative, number) :=
    match s with
    | 0x2d :: number => (true, number)
    | 0x2b :: number => (false, number)
    | number => (false, number)
  let most := if negative then 2 ^ 63 else 2 ^ 63 - 1
  match if number = [] then .error .syntax_ else digits 10 (2 ^ 64 - 1) 0 number with
  | .ok value =>
      if most < value then .error (numError "Atoi" s .range)
      else .ok (if negative then -value else value)
  | .error fault => .error (numError "Atoi" s fault)

theorem digits_cons {base most value : Nat} {c : Byte} {cs : List Byte} :
    digits base most value (c :: cs) =
      match digitValue c with
      | none => .error .syntax_
      | some d =>
          if base ≤ d then .error .syntax_
          else if most < value * base + d then .error .range
          else digits base most (value * base + d) cs :=
  rfl

theorem digits_append {base most value : Nat} {front back : List Byte} :
    digits base most value (front ++ back) =
      (digits base most value front).bind fun value => digits base most value back := by
  induction front generalizing value with
  | nil => rfl
  | cons c front ih =>
    rw [List.cons_append, digits_cons, digits_cons]
    cases digitValue c with
    | none => rfl
    | some d =>
      dsimp only
      split
      · rfl
      · split
        · rfl
        · exact ih

theorem digitValue_decimal : ∀ d < 10, digitValue (BitVec.ofNat 8 (48 + d)) = some d := by
  decide

theorem digits_one {base most value d : Nat} {c : Byte} (isDigit : digitValue c = some d)
    (inBase : d < base) (fits : value * base + d ≤ most) :
    digits base most value [c] = .ok (value * base + d) := by
  unfold digits
  rw [isDigit]
  dsimp only
  rw [if_neg (by omega), if_neg (by omega)]
  rfl

theorem digits_decimal {n most : Nat} (fits : n ≤ most) :
    digits 10 most 0 (decimal n) = .ok n := by
  induction n using Nat.strong_induction_on with
  | _ n ih =>
    by_cases small : n < 10
    · rw [decimal_small small, digits_one (digitValue_decimal n small) small (by omega)]
      exact congrArg Except.ok (by omega)
    · have last := Nat.mod_lt n (show 10 > 0 by decide)
      rw [decimal_step (by omega), digits_append, ih (n / 10) (by omega) (by omega)]
      change digits 10 most (n / 10) _ = _
      rw [digits_one (digitValue_decimal _ last) last (by omega)]
      exact congrArg Except.ok (by omega)

/-- A decimal number is read as it was written. -/
theorem parseUint_decimal {n bitSize : Nat} (fits : n < 2 ^ bitSize) :
    parseUint (decimal n) 10 bitSize = .ok n := by
  unfold parseUint
  rw [if_neg (decimal_ne_nil n), digits_decimal (by omega)]

/-- A number read fits its size. -/
theorem digits_le {base most value result : Nat} {cs : List Byte} (small : value ≤ most)
    (read : digits base most value cs = .ok result) : result ≤ most := by
  induction cs generalizing value with
  | nil =>
    cases read
    exact small
  | cons c cs ih =>
    unfold digits at read
    split at read
    · cases read
    · split at read
      · cases read
      · split at read
        · cases read
        · exact ih (by omega) read

theorem parseUint_lt {s : List Byte} {base bitSize result : Nat}
    (read : parseUint s base bitSize = .ok result) : result < 2 ^ bitSize := by
  unfold parseUint at read
  have positive := Nat.two_pow_pos bitSize
  split at read
  next value parsed =>
    cases read
    split at parsed
    · cases parsed
    · have := digits_le (Nat.zero_le _) parsed
      omega
  · cases read

theorem digitValue_hex : ∀ d < 16,
    digitValue (BitVec.ofNat 8 (Hexfmt.digits.getD d '0').toNat) = some d := by
  decide

/-- The lowest digits of a value, after those of another. -/
theorem digits_places {base most value front : Nat} {digit : Nat → Byte}
    (positive : 0 < base) (reads : ∀ d < base, digitValue (digit d) = some d) (width : Nat)
    (fits : front * base ^ width + value % base ^ width ≤ most) :
    digits base most front ((List.range width).reverse.map fun place =>
      digit (value / base ^ place % base)) = .ok (front * base ^ width + value % base ^ width) := by
  induction width generalizing front with
  | zero => simp [digits, Nat.mod_one]
  | succ width ih =>
    have small : value / base ^ width % base < base := Nat.mod_lt _ positive
    have split : front * base ^ (width + 1) + value % base ^ (width + 1) =
        (front * base + value / base ^ width % base) * base ^ width + value % base ^ width := by
      rw [Nat.mod_pow_succ]
      ring
    rw [split] at fits ⊢
    have head : front * base + value / base ^ width % base ≤ most :=
      (Nat.le_mul_of_pos_right _ (Nat.pow_pos positive)).trans
        ((Nat.le_add_right _ _).trans fits)
    rw [List.range_succ, List.reverse_append, List.reverse_singleton, List.singleton_append,
      List.map_cons, ← List.singleton_append, digits_append,
      digits_one (reads _ small) small head]
    exact ih fits

end Strconv

end GoRetroTv
