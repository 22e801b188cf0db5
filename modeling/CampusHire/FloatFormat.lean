import Mathlib.Data.Int.Log
import Mathlib.Data.Rat.Floor

/-!
# Floating-point formats

The numbers of a binary format are integers of so many digits times powers of two.  A
rational number is rounded to the nearest one, and of two that are equally near to the
even one; a number that comes out too large for the format overflows.  A number of the
format is left as it is (`round_of_holds`).
-/

/-- The format of the numbers `m * 2 ^ e` below `2 ^ bound` where `m` has at most `precision`
    binary digits and `e` is at least `least`. -/
structure FloatFormat where
  precision : ℕ
  least : ℤ
  bound : ℤ

namespace FloatFormat

/-- The format of a `double`. -/
def binary64 : FloatFormat where
  precision := 53
  least := -1074
  bound := 1024

/-- The nearest integer, and the even one of two. -/
def nearestInt (q : ℚ) : ℤ :=
  if q - ⌊q⌋ < 1 / 2 ∨ (q - ⌊q⌋ = 1 / 2 ∧ ⌊q⌋ % 2 = 0) then ⌊q⌋ else ⌊q⌋ + 1

variable (f : FloatFormat)

/-- The exponent of the last digit that the format has for a number of the size of `q`. -/
def lastPlace (q : ℚ) : ℤ := max (Int.log 2 |q| + 1 - f.precision) f.least

def nearest (q : ℚ) : ℚ := nearestInt (q / 2 ^ f.lastPlace q) * 2 ^ f.lastPlace q

/-- `none` is an overflow. -/
def round (q : ℚ) : Option ℚ :=
  if |f.nearest q| < 2 ^ f.bound then some (f.nearest q) else none

-- 2 ^ 53 + 1 lies between two floats, and of these 2 ^ 53 is the even one
example : binary64.round (2 ^ 53 + 1) = some (2 ^ 53) := by decide +kernel
example : binary64.round (10 ^ 400) = none := by decide +kernel

/-! ## Numbers of the format -/

def Holds (q : ℚ) : Prop :=
  ∃ m e : ℤ, q = m * 2 ^ e ∧ |m| < 2 ^ f.precision ∧ f.least ≤ e ∧ |q| < 2 ^ f.bound

theorem nearestInt_intCast (n : ℤ) : nearestInt n = n := by
  rw [nearestInt, Int.floor_intCast, sub_self, if_pos (Or.inl one_half_pos)]

variable {f}

/-- The last place is no further than the exponent of a number with that many digits. -/
theorem lastPlace_le {m e : ℤ} (hm : m ≠ 0) (hdigits : |m| < 2 ^ f.precision)
    (hleast : f.least ≤ e) : f.lastPlace (m * 2 ^ e) ≤ e := by
  apply max_le _ hleast
  have hpower : (0 : ℚ) < 2 ^ e := zpow_pos two_pos e
  have hpos : 0 < |(m : ℚ) * 2 ^ e| :=
    abs_pos.mpr (mul_ne_zero (Int.cast_ne_zero.mpr hm) hpower.ne')
  have hbelow : |(m : ℚ) * 2 ^ e| < ((2 : ℕ) : ℚ) ^ (f.precision + e) := by
    have hcast : |(m : ℚ)| < 2 ^ (f.precision : ℤ) := by exact_mod_cast hdigits
    rw [abs_mul, abs_of_pos hpower, Nat.cast_two, zpow_add₀ two_ne_zero]
    exact mul_lt_mul_of_pos_right hcast hpower
  have hlog : Int.log 2 |(m : ℚ) * 2 ^ e| < f.precision + e :=
    (Int.lt_zpow_iff_log_lt one_lt_two hpos).mp hbelow
  omega

theorem nearest_of_place_le {m e : ℤ} (h : f.lastPlace (m * 2 ^ e) ≤ e) :
    f.nearest (m * 2 ^ e) = m * 2 ^ e := by
  obtain ⟨k, hk⟩ := Int.eq_ofNat_of_zero_le (sub_nonneg.mpr h)
  have hpower : (2 : ℚ) ^ f.lastPlace (m * 2 ^ e) ≠ 0 := (zpow_pos two_pos _).ne'
  -- the number counts the last place a whole number of times
  have hwhole : (m : ℚ) * 2 ^ e / 2 ^ f.lastPlace (m * 2 ^ e) = ((m * 2 ^ k : ℤ) : ℚ) := by
    rw [mul_div_assoc, ← zpow_sub₀ two_ne_zero, hk]
    push_cast
    rfl
  rw [nearest, hwhole, nearestInt_intCast, ← hwhole, div_mul_cancel₀ _ hpower]

/-- **A number of the format is not rounded.** -/
theorem round_of_holds {q : ℚ} (h : f.Holds q) : f.round q = some q := by
  obtain ⟨m, e, rfl, hdigits, hleast, hbound⟩ := h
  have hnearest : f.nearest (m * 2 ^ e) = m * 2 ^ e := by
    by_cases hm : m = 0
    · subst hm
      rw [nearest, Int.cast_zero, zero_mul, zero_div, show (0 : ℚ) = ((0 : ℤ) : ℚ) from rfl,
        nearestInt_intCast, Int.cast_zero, zero_mul]
    · exact nearest_of_place_le (lastPlace_le hm hdigits hleast)
  rw [round, hnearest, if_pos hbound]

end FloatFormat
