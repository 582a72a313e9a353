import Mathlib.Algebra.Order.Field.Rat
import Mathlib.Data.Rat.Floor
import Mathlib.Tactic.Linarith
import Mathlib.Tactic.FieldSimp

/-!
# Doubles

A double is a rational number here, and an operation is the exact one followed by
a rounding. Which rounding is left open: a `Rounding` keeps the integers of up to
53 bits and has a relative error of at most `2⁻⁵³` in the normal range, which
round-to-nearest has.

A quotient of integers is then cut to the right integer
(`Rounding.toInt_round_div`): it is either an integer, or farther away from the
next one than the error.
-/

namespace Arale.Lib

/-- What the conversion of a double to `int` keeps. -/
def toInt (x : ℚ) : ℤ := if 0 ≤ x then ⌊x⌋ else ⌈x⌉

@[simp] theorem toInt_intCast (n : ℤ) : toInt n = n := by
  rw [toInt, Int.floor_intCast, Int.ceil_intCast, ite_self]

@[simp] theorem toInt_natCast (n : ℕ) : toInt n = n := by
  rw [← Int.cast_natCast, toInt_intCast]

theorem toInt_eq {x : ℚ} {n : ℕ} (hle : (n : ℚ) ≤ x) (hlt : x < n + 1) : toInt x = n := by
  have hpos : 0 ≤ x := le_trans (Nat.cast_nonneg n) hle
  rw [toInt, if_pos hpos, Int.floor_eq_iff]
  exact ⟨hle, hlt⟩

/-- A rounding of exact results. -/
structure Rounding where
  round : ℚ → ℚ
  integer : ∀ n : ℤ, |n| ≤ 2 ^ 53 → round n = n
  close : ∀ x : ℚ, 2 ^ (-1022 : ℤ) ≤ |x| → |x| ≤ 2 ^ 1023 → |round x - x| ≤ |x| / 2 ^ 53

namespace Rounding

theorem id_close (x : ℚ) : |id x - x| ≤ |x| / 2 ^ 53 := by
  rw [id, sub_self, abs_zero]
  positivity

/-- No rounding at all. -/
def exact : Rounding where
  round := id
  integer _ _ := rfl
  close x _ _ := id_close x

variable (r : Rounding)

theorem round_natCast {n : ℕ} (hn : n ≤ 2 ^ 53) : r.round n = n := by
  have hinteger := r.integer n (by rw [Nat.abs_cast]; exact_mod_cast hn)
  rwa [Int.cast_natCast] at hinteger

/-- The error of a quotient of integers is less than its distance to a larger
integer. -/
theorem close_div {s d : ℕ} (hs : 0 < s) (hs' : s < 2 ^ 53) (hd : 0 < d) (hd' : d ≤ 2 ^ 53) :
    |r.round (s / d) - s / d| < 1 / d := by
  have hsq : (0 : ℚ) < s := Nat.cast_pos.mpr hs
  have hdq : (0 : ℚ) < d := Nat.cast_pos.mpr hd
  have hsq' : (s : ℚ) < 2 ^ 53 := by exact_mod_cast hs'
  have hdq' : (d : ℚ) ≤ 2 ^ 53 := by exact_mod_cast hd'
  have hone : (1 : ℚ) ≤ s := by exact_mod_cast hs
  have habs : |(s : ℚ) / d| = s / d := abs_of_pos (div_pos hsq hdq)
  have hlow : (2 : ℚ) ^ (-1022 : ℤ) ≤ s / d := by
    calc (2 : ℚ) ^ (-1022 : ℤ) ≤ 2 ^ (-53 : ℤ) := zpow_le_zpow_right₀ (by norm_num) (by norm_num)
      _ = 1 / 2 ^ 53 := by norm_num
      _ ≤ 1 / d := one_div_le_one_div_of_le hdq hdq'
      _ ≤ s / d := div_le_div_of_nonneg_right hone hdq.le
  have hhigh : (s : ℚ) / d ≤ 2 ^ 1023 := by
    have hge : (1 : ℚ) ≤ d := by exact_mod_cast hd
    calc (s : ℚ) / d ≤ s := div_le_self hsq.le hge
      _ ≤ 2 ^ 53 := hsq'.le
      _ ≤ 2 ^ 1023 := pow_le_pow_right₀ (by norm_num) (by norm_num)
  have hclose := r.close (s / d) (by rw [habs]; exact hlow) (by rw [habs]; exact hhigh)
  rw [habs] at hclose
  refine lt_of_le_of_lt hclose ?_
  rw [div_div, div_lt_div_iff₀ (by positivity) hdq, one_mul, mul_comm (d : ℚ)]
  exact mul_lt_mul_of_pos_right hsq' hdq

/-- A quotient of integers is cut to the quotient without remainder. -/
theorem toInt_round_div {s d : ℕ} (hs : s < 2 ^ 53) (hd : 0 < d) (hd' : d ≤ 2 ^ 53) :
    toInt (r.round (s / d)) = (s / d : ℕ) := by
  have hdq : (0 : ℚ) < d := Nat.cast_pos.mpr hd
  have hsum : (s : ℚ) / d = (s / d : ℕ) + (s % d : ℕ) / d := by
    have hcast : ((d * (s / d) + s % d : ℕ) : ℚ) = s := by rw [Nat.div_add_mod]
    rw [← hcast, Nat.cast_add, Nat.cast_mul]
    field_simp
  by_cases hdvd : s % d = 0
  · -- the quotient is an integer
    have hle : s / d ≤ 2 ^ 53 := le_trans (Nat.div_le_self s d) hs.le
    rw [hsum, hdvd, Nat.cast_zero, zero_div, add_zero, r.round_natCast hle, toInt_natCast]
  · have hpos : 0 < s := by
      apply Nat.pos_of_ne_zero
      rintro rfl
      exact hdvd (Nat.zero_mod d)
    obtain ⟨hbelow, habove⟩ := abs_lt.mp (r.close_div hpos hs hd hd')
    have hrem : (1 : ℚ) / d ≤ (s % d : ℕ) / d := by
      apply div_le_div_of_nonneg_right _ hdq.le
      exact_mod_cast Nat.pos_of_ne_zero hdvd
    have hrem' : ((s % d : ℕ) : ℚ) / d ≤ 1 - 1 / d := by
      have hlt : ((s % d : ℕ) : ℚ) + 1 ≤ d := by exact_mod_cast Nat.mod_lt s hd
      rw [div_le_iff₀ hdq, sub_mul, one_mul, div_mul_cancel₀ _ hdq.ne']
      linarith only [hlt]
    apply toInt_eq
    · linarith only [hbelow, hsum, hrem]
    · linarith only [habove, hsum, hrem']

end Rounding

end Arale.Lib
