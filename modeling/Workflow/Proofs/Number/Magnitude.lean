import Mathlib.Algebra.Order.Field.Power
import Mathlib.Data.Rat.Cast.Order
import Mathlib.Tactic.FieldSimp
import Mathlib.Tactic.Linarith
import Mathlib.Tactic.NormNum
import Mathlib.Tactic.Positivity
import Mathlib.Tactic.Ring
import Workflow.Number.Shortest

/-!
# Sizes of numbers

The program keeps a number as a quotient of two naturals and a power of two or ten as a pair of
natural powers, one of them with the exponent zero. Read as rational numbers these are the powers
with an integer exponent; the two estimates of a number's size are stated about them.
-/
namespace Workflow

theorem zpow_mul_pow_toNat_neg {b : ℚ} (hb : b ≠ 0) (e : Int) :
    b ^ e * b ^ (-e).toNat = b ^ e.toNat := by
  rw [← zpow_natCast b (-e).toNat, ← zpow_natCast b e.toNat, ← zpow_add₀ hb]
  congr 1
  omega

theorem zpow_eq_div {b : ℚ} (hb : b ≠ 0) (e : Int) : b ^ e = b ^ e.toNat / b ^ (-e).toNat := by
  rw [eq_div_iff (pow_ne_zero _ hb)]
  exact zpow_mul_pow_toNat_neg hb e

/-- The rational number that a decimal stands for. -/
def Decimal.toRat (d : Decimal) : ℚ := d.digits * 10 ^ d.exponent

namespace Binary64

/-! ## Powers of two -/

/-- The two logarithms leave a power of two open; the comparison settles which one it is. -/
theorem binaryMagnitude_spec {num den : Nat} (hnum : 0 < num) (hden : 0 < den) :
    (2 : ℚ) ^ binaryMagnitude num den ≤ num / den ∧
      (num / den : ℚ) < 2 ^ (binaryMagnitude num den + 1) := by
  have hd : (0 : ℚ) < den := by exact_mod_cast hden
  have hnumLow : (2 : ℚ) ^ (num.log2 : Int) ≤ num := by
    rw [zpow_natCast]
    exact_mod_cast Nat.log2_self_le hnum.ne'
  have hnumHigh : (num : ℚ) < 2 ^ ((num.log2 : Int) + 1) := by
    exact_mod_cast Nat.lt_log2_self (n := num)
  have hdenLow : (2 : ℚ) ^ (den.log2 : Int) ≤ den := by
    rw [zpow_natCast]
    exact_mod_cast Nat.log2_self_le hden.ne'
  have hdenHigh : (den : ℚ) < 2 ^ ((den.log2 : Int) + 1) := by
    exact_mod_cast Nat.lt_log2_self (n := den)
  set k : Int := (num.log2 : Int) - den.log2 with hk
  -- each logarithm is too small by less than one, so that `k - 1` and `k` are left
  have hlow : (2 : ℚ) ^ (k - 1) ≤ num / den := by
    rw [le_div_iff₀ hd]
    calc (2 : ℚ) ^ (k - 1) * den
        ≤ 2 ^ (k - 1) * 2 ^ ((den.log2 : Int) + 1) := by gcongr
      _ = 2 ^ (num.log2 : Int) := by rw [← zpow_add₀ two_ne_zero]; congr 1; omega
      _ ≤ num := hnumLow
  have hhigh : (num / den : ℚ) < 2 ^ (k + 1) := by
    rw [div_lt_iff₀ hd]
    calc (num : ℚ) < 2 ^ ((num.log2 : Int) + 1) := hnumHigh
      _ = 2 ^ (k + 1) * 2 ^ (den.log2 : Int) := by rw [← zpow_add₀ two_ne_zero]; congr 1; omega
      _ ≤ 2 ^ (k + 1) * den := by gcongr
  have htest : num * Nat.pow 2 (-k).toNat < den * Nat.pow 2 k.toNat ↔ (num / den : ℚ) < 2 ^ k := by
    rw [zpow_eq_div two_ne_zero, div_lt_div_iff₀ hd (by positivity), mul_comm (2 ^ k.toNat : ℚ)]
    exact_mod_cast Iff.rfl
  unfold binaryMagnitude
  simp only [← hk]
  split
  · rename_i h
    exact ⟨hlow, by simpa using htest.mp h⟩
  · rename_i h
    exact ⟨not_lt.mp (mt htest.mpr h), hhigh⟩

/-! ## Powers of ten -/

/-- The exponent estimated from a power of two is too small by one power of ten at most. -/
theorem ten_zpow_le_two_zpow {b : Int} (hlow : -1100 ≤ b) (hhigh : b ≤ 1100) :
    (10 : ℚ) ^ (b * 30103 / 100000 - 1) ≤ 2 ^ b := by
  set t := b * 30103 / 100000 with ht
  rcases le_total 0 b with hb | hb
  · -- `10 ^ 31 ≤ 2 ^ 103`, and `31 / 103` is close enough to the factor from below.
    have hraise : ((10 : ℚ) ^ (t - 1)) ^ 103 ≤ (2 ^ b) ^ 103 := by
      rw [← zpow_natCast, ← zpow_natCast, ← zpow_mul, ← zpow_mul]
      calc (10 : ℚ) ^ ((t - 1) * (103 : ℕ))
          ≤ 10 ^ ((31 : ℕ) * b) := zpow_le_zpow_right₀ (by norm_num) (by push_cast; omega)
        _ = ((10 : ℚ) ^ 31) ^ b := by rw [zpow_mul, zpow_natCast]
        _ ≤ ((2 : ℚ) ^ 103) ^ b := zpow_le_zpow_left₀ hb (by positivity) (by norm_num)
        _ = 2 ^ (b * (103 : ℕ)) := by rw [mul_comm, zpow_mul, zpow_natCast]
    exact le_of_pow_le_pow_left₀ (by norm_num) (by positivity) hraise
  · -- Below one the roles change: `2 ^ 93 ≤ 10 ^ 28`.
    have hraise : ((10 : ℚ) ^ (t - 1)) ^ 93 ≤ (2 ^ b) ^ 93 := by
      rw [← zpow_natCast, ← zpow_natCast, ← zpow_mul, ← zpow_mul]
      calc (10 : ℚ) ^ ((t - 1) * (93 : ℕ))
          ≤ 10 ^ ((28 : ℕ) * b) := zpow_le_zpow_right₀ (by norm_num) (by push_cast; omega)
        _ = (((10 : ℚ) ^ 28) ^ (-b))⁻¹ := by rw [zpow_mul, zpow_natCast, zpow_neg, inv_inv]
        _ ≤ (((2 : ℚ) ^ 93) ^ (-b))⁻¹ := by
            apply inv_anti₀ (by positivity)
            exact zpow_le_zpow_left₀ (by omega) (by positivity) (by norm_num)
        _ = 2 ^ (b * (93 : ℕ)) := by rw [zpow_neg, inv_inv, mul_comm b, zpow_mul, zpow_natCast]
    exact le_of_pow_le_pow_left₀ (by norm_num) (by positivity) hraise

/-- The test by which the estimate is improved. -/
theorem reached_iff {num den : Nat} (hden : 0 < den) (k : Int) :
    den * Nat.pow 10 k.toNat ≤ num * Nat.pow 10 (-k).toNat ↔ (10 : ℚ) ^ k ≤ num / den := by
  have hd : (0 : ℚ) < den := by exact_mod_cast hden
  rw [zpow_eq_div (by norm_num), div_le_div_iff₀ (by positivity) hd, mul_comm (10 ^ k.toNat : ℚ)]
  exact_mod_cast Iff.rfl

/-- The power of ten below the estimate is reached, for numbers of the size of a double. -/
theorem ten_zpow_decimalMagnitude_le {num den : Nat} (hnum : 0 < num) (hden : 0 < den)
    (hlow : -1100 ≤ binaryMagnitude num den) (hhigh : binaryMagnitude num den ≤ 1100) :
    (10 : ℚ) ^ (decimalMagnitude num den - 1) ≤ num / den := by
  have hguess := (ten_zpow_le_two_zpow hlow hhigh).trans (binaryMagnitude_spec hnum hden).1
  unfold decimalMagnitude
  simp only [decide_eq_true_eq, reached_iff hden]
  split_ifs with h1 h2 h3
  · convert h1 using 2
    ring
  · convert h2 using 2
    ring
  · exact h3
  · rwa [add_sub_cancel_right]

end Binary64
end Workflow
