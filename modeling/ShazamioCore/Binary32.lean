import Mathlib
import ShazamioCore.F32

/-!
# Rounding a fraction

The rounding to 24 significant bits of a fraction whose quotient has 24 bits before the
point, by division with remainder, and the same at every power of two.
-/
namespace Binary32

open F32

/-- The integer nearest to `a / b`, ties to the even one. -/
def nearest (a b : Nat) : Nat :=
  if b < 2 * (a % b) ∨ b = 2 * (a % b) ∧ a / b % 2 = 1 then a / b + 1 else a / b

theorem roundHalfEven_div (a b : Nat) (hb : 0 < b) :
    roundHalfEven ((a : Rat) / b) = nearest a b := by
  have hb' : (0 : Rat) < b := by exact_mod_cast hb
  have hfloor : ⌊(a : Rat) / b⌋ = ((a / b : Nat) : Int) := by
    rw [Int.natCast_div]
    exact Rat.floor_natCast_div_natCast a b
  have hrest : (a : Rat) / b - ((a / b : Nat) : Int) = (a % b : Nat) / b := by
    have hdivision : (b * (a / b : Nat) + (a % b : Nat) : Rat) = a := by
      exact_mod_cast Nat.div_add_mod a b
    rw [Int.cast_natCast, eq_div_iff hb'.ne', sub_mul, div_mul_cancel₀ _ hb'.ne']
    linarith
  have hbelow : (a % b : Nat) / (b : Rat) < 1 / 2 ↔ 2 * (a % b) < b := by
    rw [div_lt_div_iff₀ hb' two_pos, one_mul, mul_comm]
    exact_mod_cast Iff.rfl
  have habove : 1 / 2 < (a % b : Nat) / (b : Rat) ↔ b < 2 * (a % b) := by
    rw [div_lt_div_iff₀ two_pos hb', one_mul, mul_comm]
    exact_mod_cast Iff.rfl
  rw [roundHalfEven, hfloor, hrest, nearest]
  simp only [hbelow, habove]
  split
  · rw [if_neg (by omega)]
  · split
    · rw [if_pos (by omega)]
      rfl
    · split
      · rw [if_neg (by omega)]
      · rw [if_pos (by omega)]
        rfl

theorem nearest_one (a : Nat) : nearest a 1 = a := by
  simp [nearest, Nat.mod_one]

theorem le_nearest (a b n : Nat) (hb : 0 < b) (h : n * b ≤ a) : n ≤ nearest a b := by
  have hquotient : n ≤ a / b := (Nat.le_div_iff_mul_le hb).mpr h
  rw [nearest]
  split
  · omega
  · exact hquotient

theorem nearest_le (a b n : Nat) (hb : 0 < b) (h : a < n * b) : nearest a b ≤ n := by
  have hquotient : a / b < n := (Nat.div_lt_iff_lt_mul hb).mpr h
  rw [nearest]
  split
  · exact hquotient
  · exact hquotient.le

theorem log_eq (x : Rat) (k : Int) (hlo : 2 ^ k ≤ x) (hhi : x < 2 ^ (k + 1)) :
    Int.log 2 |x| = k := by
  have hpos : 0 < x := lt_of_lt_of_le (zpow_pos two_pos k) hlo
  rw [abs_of_pos hpos]
  have hle := (Int.zpow_le_iff_le_log Nat.one_lt_two hpos).mp (by exact_mod_cast hlo)
  have hlt := (Int.lt_zpow_iff_log_lt Nat.one_lt_two hpos).mp (by exact_mod_cast hhi)
  omega

/-- A number of 24 bits before the point, at any power of two, is rounded to an integer. -/
theorem binary32_div (a b : Nat) (k : Int) (hlo : 2 ^ 23 * b ≤ a) (hhi : a < 2 ^ 24 * b) :
    binary32 ((a : Rat) / b * 2 ^ k) = nearest a b * 2 ^ k := by
  have hb : 0 < b := by omega
  have hb' : (0 : Rat) < b := by exact_mod_cast hb
  have hunit : (0 : Rat) < 2 ^ k := zpow_pos two_pos k
  have hlo' : (2 : Rat) ^ 23 ≤ a / b := by
    rw [le_div_iff₀ hb']
    exact_mod_cast hlo
  have hhi' : (a : Rat) / b < 2 ^ 24 := by
    rw [div_lt_iff₀ hb']
    exact_mod_cast hhi
  have hlog : Int.log 2 |(a : Rat) / b * 2 ^ k| = 23 + k := by
    apply log_eq
    · rw [zpow_add₀ two_ne_zero]
      exact mul_le_mul_of_nonneg_right (by exact_mod_cast hlo') hunit.le
    · rw [show 23 + k + 1 = 24 + k by ring, zpow_add₀ two_ne_zero]
      exact mul_lt_mul_of_pos_right (by exact_mod_cast hhi') hunit
  have hne : (a : Rat) / b * 2 ^ k ≠ 0 :=
    (mul_pos (lt_of_lt_of_le (by norm_num) hlo') hunit).ne'
  rw [binary32, if_neg hne, hlog, show 23 + k - 23 = k by ring, mul_div_cancel_right₀ _ hunit.ne',
    roundHalfEven_div a b hb, Int.cast_natCast]

end Binary32
