import Mathlib.Algebra.Order.Floor.Ring
import Mathlib.Data.Int.Log
import Mathlib.Data.Rat.Floor
import Mathlib.Tactic.Linarith
import Mathlib.Tactic.NormNum

/-!
# Rounding to nearest

A rational number is rounded to the nearest integer, and to the nearest number of a given
count of binary digits; of two that are equally near the even one is taken.  An error is at
most half a unit of the last place, so what is near enough to an integer rounds to it.
-/

namespace GoRetroTv

/-- The nearest integer. -/
def roundEven (x : ℚ) : ℤ :=
  if x - ⌊x⌋ < 1 / 2 then ⌊x⌋
  else if 1 / 2 < x - ⌊x⌋ then ⌊x⌋ + 1
  else ⌊x⌋ + ⌊x⌋ % 2

/-- The nearest number of so many binary digits, whatever its exponent. -/
def nearestBinary (digits : ℕ) (x : ℚ) : ℚ :=
  roundEven (x / 2 ^ (Int.log 2 |x| + 1 - digits)) * 2 ^ (Int.log 2 |x| + 1 - digits)

theorem roundEven_error (x : ℚ) : |(roundEven x : ℚ) - x| ≤ 1 / 2 := by
  have low := Int.floor_le x
  have high := Int.lt_floor_add_one x
  have parity : ((⌊x⌋ % 2 : ℤ) : ℚ) = 0 ∨ ((⌊x⌋ % 2 : ℤ) : ℚ) = 1 := by
    rcases Int.emod_two_eq_zero_or_one ⌊x⌋ with even | odd
    · exact .inl (by rw [even, Int.cast_zero])
    · exact .inr (by rw [odd, Int.cast_one])
  unfold roundEven
  rw [abs_le]
  split_ifs with down up
  · constructor
    · linarith
    · linarith
  · rw [Int.cast_add, Int.cast_one]
    constructor
    · linarith
    · linarith
  · rw [Int.cast_add]
    rcases parity with even | odd
    · rw [even]
      constructor
      · linarith
      · linarith
    · rw [odd]
      constructor
      · linarith
      · linarith

/-- What is near to an integer rounds to it. -/
theorem roundEven_eq {x : ℚ} {n : ℤ} (near : |x - n| < 1 / 2) : roundEven x = n := by
  have error := roundEven_error x
  rw [abs_le] at error
  rw [abs_lt] at near
  have above : (roundEven x : ℚ) < n + 1 := by linarith
  have below : (n : ℚ) < roundEven x + 1 := by linarith
  have above' : roundEven x < n + 1 := by exact_mod_cast above
  have below' : n < roundEven x + 1 := by exact_mod_cast below
  omega

/-- The error is at most half a unit of the last place of a bound. -/
theorem nearestBinary_error {digits : ℕ} {x : ℚ} {exponent : ℤ} (bound : |x| < 2 ^ exponent) :
    |nearestBinary digits x - x| ≤ 2 ^ (exponent - digits - 1) := by
  by_cases zero : x = 0
  · subst zero
    have rounds : nearestBinary digits 0 = 0 := by
      have none_ : roundEven 0 = 0 := roundEven_eq (by norm_num)
      rw [nearestBinary, zero_div, none_, Int.cast_zero, zero_mul]
    rw [rounds, sub_zero, abs_zero]
    exact (zpow_pos zero_lt_two _).le
  have size : 0 < |x| := abs_pos.mpr zero
  have two : (1 : ℚ) < 2 := one_lt_two
  have exponent_ : Int.log 2 |x| < exponent := by
    have inside := (Int.zpow_log_le_self (b := 2) one_lt_two size).trans_lt bound
    exact (zpow_lt_zpow_iff_right₀ two).mp (by exact_mod_cast inside)
  set place : ℤ := Int.log 2 |x| + 1 - digits with isPlace
  have unit : (0 : ℚ) < 2 ^ place := zpow_pos zero_lt_two place
  have error := roundEven_error (x / 2 ^ place)
  have scaled : nearestBinary digits x - x =
      ((roundEven (x / 2 ^ place) : ℚ) - x / 2 ^ place) * 2 ^ place := by
    rw [sub_mul, div_mul_cancel₀ x unit.ne']
    rfl
  calc |nearestBinary digits x - x|
      = |(roundEven (x / 2 ^ place) : ℚ) - x / 2 ^ place| * 2 ^ place := by
        rw [scaled, abs_mul, abs_of_pos unit]
    _ ≤ 1 / 2 * 2 ^ place := mul_le_mul_of_nonneg_right error unit.le
    _ = 2 ^ (place - 1) := by
        rw [zpow_sub_one₀ two_ne_zero, one_div, mul_comm]
    _ ≤ 2 ^ (exponent - digits - 1) := zpow_le_zpow_right₀ two.le (by omega)

end GoRetroTv
