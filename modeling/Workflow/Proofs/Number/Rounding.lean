import Workflow.Proofs.Number.Shortest

/-!
# Rounded results are proper

Every double comes out of one rounding step, which picks the exponent from the size of the exact
result. What it gives is in the one form of its value.
-/
namespace Workflow.Binary64

/-! ## Rounding to an integer -/

theorem roundDiv_le {n d k : Nat} (hd : 0 < d) (h : n < k * d) : roundDiv n d ≤ k := by
  have hq : n / d < k := (Nat.div_lt_iff_lt_mul hd).mpr h
  simp only [roundDiv]
  split_ifs <;> omega

theorem le_roundDiv {n d k : Nat} (hd : 0 < d) (h : k * d ≤ n) : k ≤ roundDiv n d := by
  have hq : k ≤ n / d := (Nat.le_div_iff_mul_le hd).mpr h
  simp only [roundDiv]
  split_ifs <;> omega

/-! ## Rounding to a double -/

theorem proper_zero (negative : Bool) : (zero negative).Proper :=
  ⟨by decide, le_refl _, by decide, fun h => absurd rfl h⟩

/-- The exponent of the last place of a rounded quotient. -/
def placeOf (num den : Nat) : Int := max (binaryMagnitude num den - 52) leastExponent

/-- The quotient in units of its last place has 53 bits at most, and no fewer above the least
exponent. -/
theorem scaled_bounds {num den : Nat} (hnum : 0 < num) (hden : 0 < den) :
    num * 2 ^ (-placeOf num den).toNat < 2 ^ 53 * (den * 2 ^ (placeOf num den).toNat) ∧
      (placeOf num den ≠ leastExponent →
        2 ^ 52 * (den * 2 ^ (placeOf num den).toNat) ≤ num * 2 ^ (-placeOf num den).toNat) := by
  obtain ⟨hlow, hhigh⟩ := binaryMagnitude_spec hnum hden
  set e := placeOf num den with he
  have hd : (0 : ℚ) < den := by exact_mod_cast hden
  have hscale : (2 : ℚ) ^ e.toNat = 2 ^ e * 2 ^ (-e).toNat :=
    (zpow_mul_pow_toNat_neg two_ne_zero e).symm
  have hunit : (0 : ℚ) < 2 ^ (-e).toNat := by positivity
  have hplace : binaryMagnitude num den - 52 ≤ e := le_max_left _ _
  constructor
  · have htop : (num : ℚ) < 2 ^ 53 * 2 ^ e * den := by
      rw [← div_lt_iff₀ hd, ← zpow_natCast, ← zpow_add₀ two_ne_zero]
      exact hhigh.trans_le (zpow_le_zpow_right₀ one_le_two (by push_cast; omega))
    have hcast : (num * 2 ^ (-e).toNat : ℚ) < 2 ^ 53 * (den * 2 ^ e.toNat) := by
      rw [hscale]
      nlinarith
    exact_mod_cast hcast
  · intro hne
    have hfull : (2 : ℚ) ^ 52 * 2 ^ e * den ≤ num := by
      rw [← le_div_iff₀ hd, ← zpow_natCast, ← zpow_add₀ two_ne_zero]
      have hexact : e = binaryMagnitude num den - 52 := by
        unfold placeOf at he
        omega
      exact (zpow_le_zpow_right₀ one_le_two (by push_cast; omega)).trans hlow
    have hcast : (2 : ℚ) ^ 52 * (den * 2 ^ e.toNat) ≤ num * 2 ^ (-e).toNat := by
      rw [hscale]
      nlinarith
    exact_mod_cast hcast

theorem ofQuotient_eq (negative : Bool) {num den : Nat} (hnum : num ≠ 0) :
    ofQuotient negative num den =
      let q := roundDiv (num * 2 ^ (-placeOf num den).toNat) (den * 2 ^ (placeOf num den).toNat)
      let (m, e) := if q = 2 ^ 53 then (2 ^ 52, placeOf num den + 1) else (q, placeOf num den)
      if greatestExponent < e then .infinite negative
      else if m = 0 then zero negative
      else .finite negative m e := by
  rw [ofQuotient, if_neg hnum]
  rfl

theorem proper_ofQuotient (negative : Bool) (num : Nat) {den : Nat} (hden : 0 < den) :
    (ofQuotient negative num den).Proper := by
  by_cases hnum : num = 0
  · rw [ofQuotient, if_pos hnum]
    exact proper_zero negative
  obtain ⟨hhigh, hlow⟩ := scaled_bounds (Nat.pos_of_ne_zero hnum) hden
  have hunit : 0 < den * 2 ^ (placeOf num den).toNat :=
    Nat.mul_pos hden (Nat.pow_pos (by decide))
  have hleast : leastExponent ≤ placeOf num den := le_max_right _ _
  have htop := roundDiv_le hunit hhigh
  have hfull (h : placeOf num den ≠ leastExponent) := le_roundDiv hunit (hlow h)
  rw [ofQuotient_eq negative hnum]
  generalize roundDiv _ _ = q at htop hfull ⊢
  by_cases hcarry : q = 2 ^ 53
  · simp only [hcarry, if_true]
    split_ifs with hlarge hzero
    · trivial
    · exact proper_zero negative
    · exact ⟨by decide, by omega, by omega, fun _ => le_refl _⟩
  · simp only [hcarry, if_false]
    split_ifs with hlarge hzero
    · trivial
    · exact proper_zero negative
    · exact ⟨by omega, hleast, by omega, hfull⟩

theorem proper_ofInt (n : Int) : (ofInt n).Proper := proper_ofQuotient _ _ Nat.one_pos

theorem proper_ofDecimal (negative : Bool) (digits : Nat) (exponent : Int) :
    (ofDecimal negative digits exponent).Proper := by
  simp only [ofDecimal]
  split_ifs
  · exact proper_zero negative
  · trivial
  · exact proper_zero negative
  · exact proper_ofQuotient _ _ (Nat.pow_pos (by decide))

end Workflow.Binary64
