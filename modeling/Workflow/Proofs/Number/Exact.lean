import Mathlib.Algebra.Order.Floor.Semifield
import Mathlib.Data.Rat.Floor
import Workflow.Proofs.Number.Nearest

/-!
# Operations that round nothing

Some operations on doubles that are no less than zero have an exact result: the comparison, the
whole part, the nearest whole number, and a difference that is a double itself.
-/
namespace Workflow.Binary64

/-- The double is the number `x`, which is no less than zero. -/
def Is (y : Binary64) (x : ℚ) : Prop :=
  ∃ m e, Canonical m e ∧ y = .finite false m e ∧ (m : ℚ) * 2 ^ e = x

variable {y z : Binary64} {x v : ℚ}

theorem Is.nonneg (h : y.Is x) : 0 ≤ x := by
  obtain ⟨m, e, -, -, rfl⟩ := h
  positivity

theorem is_zero : (zero false).Is 0 := ⟨0, leastExponent, by decide, rfl, by simp⟩

theorem Is.unique (h : y.Is x) (h' : y.Is v) : x = v := by
  obtain ⟨m, e, -, rfl, rfl⟩ := h
  obtain ⟨m', e', -, heq, rfl⟩ := h'
  cases heq
  rfl

theorem Is.is_iff (h : y.Is x) : y.Is v ↔ x = v := ⟨h.unique, fun heq => heq ▸ h⟩

theorem mantissa_mul_zpow (m : ℕ) (e : ℤ) :
    (m : ℚ) * 2 ^ e = ((m * 2 ^ e.toNat : ℕ) : ℚ) / (2 ^ (-e).toNat : ℕ) := by
  push_cast
  rw [zpow_eq_div two_ne_zero, mul_div_assoc]

/-! ## Comparing -/

/-- Two doubles are compared at the smaller one of their exponents. -/
theorem zpow_align {low e : ℤ} (h : low ≤ e) : (2 : ℚ) ^ e = 2 ^ (e - low).toNat * 2 ^ low := by
  rw [← zpow_natCast, ← zpow_add₀ two_ne_zero]
  congr 1
  omega

theorem Is.numLt_iff (hy : y.Is x) (hz : z.Is v) : y.numLt z = true ↔ x < v := by
  obtain ⟨m, e, -, rfl, rfl⟩ := hy
  obtain ⟨n, f, -, rfl, rfl⟩ := hz
  have hunit : (0 : ℚ) < 2 ^ min e f := by positivity
  have hcompare : (m : ℚ) * 2 ^ e < n * 2 ^ f ↔
      m * 2 ^ (e - min e f).toNat < n * 2 ^ (f - min e f).toNat := by
    rw [zpow_align (min_le_left e f), zpow_align (min_le_right e f), ← mul_assoc, ← mul_assoc,
      mul_lt_mul_iff_of_pos_right hunit]
    exact_mod_cast Iff.rfl
  rw [hcompare, ← Int.ofNat_lt]
  simp only [numLt, compare?, beq_iff_eq, Option.some.injEq]
  exact compare_lt_iff_lt

/-! ## Whole numbers -/

theorem Is.isIntegral_iff (h : y.Is x) : y.isIntegral = true ↔ ∃ n : ℕ, x = n := by
  obtain ⟨m, e, -, rfl, rfl⟩ := h
  have hunit : ((2 ^ (-e).toNat : ℕ) : ℚ) ≠ 0 := by positivity
  have hdvd : (finite false m e).isIntegral = true ↔ 2 ^ (-e).toNat ∣ m * 2 ^ e.toNat := by
    simp only [isIntegral, beq_iff_eq]
    rcases le_total 0 e with he | he
    · rw [Int.toNat_of_nonpos (by omega : -e ≤ 0)]
      simp [Nat.mod_one]
    · rw [Int.toNat_of_nonpos he, pow_zero, mul_one]
      exact (Nat.dvd_iff_mod_eq_zero ..).symm
  rw [hdvd, mantissa_mul_zpow]
  constructor
  · rintro ⟨n, hn⟩
    exact ⟨n, by rw [hn, Nat.cast_mul, mul_div_cancel_left₀ _ hunit]⟩
  · rintro ⟨n, hn⟩
    rw [div_eq_iff hunit] at hn
    exact ⟨n, by rw [mul_comm _ n]; exact_mod_cast hn⟩

theorem Is.truncate_eq (h : y.Is x) : y.truncate = ⌊x⌋₊ := by
  obtain ⟨m, e, -, rfl, rfl⟩ := h
  rw [mantissa_mul_zpow, Nat.floor_div_eq_div]
  rfl

theorem Is.toIntClamped_eq (h : y.Is x) (high : ℕ) :
    y.toIntClamped 0 high = (min ⌊x⌋₊ high : ℕ) := by
  have htruncate := h.truncate_eq
  obtain ⟨m, e, -, rfl, -⟩ := h
  rw [toIntClamped, htruncate]
  · push_cast
    rw [min_comm]
    exact max_eq_right (by positivity)
  · nofun
  · nofun

/-- The whole number that is nearest to a double with a fraction needs no more bits. -/
theorem half_up_le {m : ℕ} {e : ℤ} (he : e < 0) : ⌊(m : ℚ) * 2 ^ e + 1 / 2⌋₊ ≤ m := by
  have hunit : (2 : ℚ) ^ e ≤ 2 ^ (-1 : ℤ) := zpow_le_zpow_right₀ one_le_two (by omega)
  rw [zpow_neg_one] at hunit
  rcases Nat.eq_zero_or_pos m with rfl | hm
  · norm_num
  · have hone : (1 : ℚ) ≤ m := by exact_mod_cast hm
    exact Nat.floor_le_of_le (by nlinarith)

theorem floor_natCast_half (n : ℕ) : ⌊(n : ℚ) + 1 / 2⌋₊ = n := by
  rw [add_comm, Nat.floor_add_natCast (by norm_num)]
  norm_num

theorem floor_half_up {m : ℕ} {e : ℤ} (he : e < 0) :
    ⌊(m : ℚ) * 2 ^ e + 1 / 2⌋₊ = (2 * m + 2 ^ (-e).toNat) / (2 * 2 ^ (-e).toNat) := by
  rw [← Nat.floor_div_eq_div (K := ℚ), mantissa_mul_zpow, Int.toNat_of_nonpos he.le]
  congr 1
  push_cast
  field_simp

theorem Is.round_is (h : y.Is x) : y.round.Is ⌊x + 1 / 2⌋₊ := by
  obtain ⟨m, e, hcanonical, rfl, rfl⟩ := h
  simp only [round]
  split_ifs with he hzero
  · obtain ⟨k, rfl⟩ := Int.eq_ofNat_of_zero_le he
    have hwhole : (m : ℚ) * 2 ^ (k : ℤ) = (m * 2 ^ k : ℕ) := by push_cast; rw [zpow_natCast]
    exact ⟨m, k, hcanonical, rfl, by rw [hwhole, floor_natCast_half]⟩
  · have hnearest : ⌊(m : ℚ) * 2 ^ e + 1 / 2⌋₊ = 0 := (floor_half_up (not_le.mp he)).trans hzero
    rw [hnearest, Nat.cast_zero]
    exact is_zero
  · have hfew := (half_up_le (m := m) (not_le.mp he)).trans_lt hcanonical.mantissa_lt
    rw [floor_half_up (not_le.mp he)] at hfew ⊢
    exact (nearest_ofNat _).of_held (held_natCast hfew)

/-! ## Differences -/

theorem nearest_ofDyadic {n : ℤ} (hn : n ≠ 0) (e : ℤ) (zeroSign : Bool) :
    Nearest (n < 0) (|(n : ℚ)| * 2 ^ e) (ofDyadic n e zeroSign) := by
  have h := nearest_ofQuotient (n < 0) (n.natAbs * 2 ^ e.toNat)
    (Nat.pow_pos (by decide) : 0 < 2 ^ (-e).toNat)
  rw [← mantissa_mul_zpow, Nat.cast_natAbs, Int.cast_abs] at h
  rw [ofDyadic, if_neg hn]
  exact h

/-- A difference that is a double is computed without an error. -/
theorem Is.abs_sub (hy : y.Is x) (hz : z.Is v) (h : Held |x - v|) : (y - z).abs.Is |x - v| := by
  obtain ⟨m, e, -, rfl, rfl⟩ := hy
  obtain ⟨n, f, -, rfl, rfl⟩ := hz
  set low := min e f
  set n' : ℤ := m * 2 ^ (e - low).toNat + -n * 2 ^ (f - low).toNat with hn'
  have hsum : finite false m e - finite false n f = ofDyadic n' low false := rfl
  have hvalue : (m : ℚ) * 2 ^ e - n * 2 ^ f = n' * 2 ^ low := by
    rw [zpow_align (min_le_left e f), zpow_align (min_le_right e f), hn']
    push_cast
    ring
  have hsize : |(m : ℚ) * 2 ^ e - n * 2 ^ f| = |(n' : ℚ)| * 2 ^ low := by
    rw [hvalue, abs_mul, abs_of_pos (by positivity : (0 : ℚ) < 2 ^ low)]
  rw [hsum, hsize]
  rw [hsize] at h
  by_cases hzero : n' = 0
  · rw [hzero, ofDyadic, if_pos rfl, Int.cast_zero, abs_zero, zero_mul]
    exact is_zero
  · obtain ⟨k, g, hcanonical, hresult, hvalue⟩ := (nearest_ofDyadic hzero low false).of_held h
    exact ⟨k, g, hcanonical, by rw [hresult]; rfl, hvalue⟩

theorem half_up_near (hx : 0 ≤ x) : |x - ⌊x + 1 / 2⌋₊| ≤ 1 / 2 := by
  have hlow := Nat.floor_le (by linarith : 0 ≤ x + 1 / 2)
  have hhigh := Nat.lt_floor_add_one (x + 1 / 2)
  rw [abs_le]
  constructor <;> linarith

/-- The distance of a number from the nearest whole one is no more than the number. -/
theorem half_up_distance_le (hx : 0 ≤ x) : |x - ⌊x + 1 / 2⌋₊| ≤ x := by
  rcases Nat.eq_zero_or_pos ⌊x + 1 / 2⌋₊ with hzero | hpos
  · rw [hzero, Nat.cast_zero, sub_zero, abs_of_nonneg hx]
  · have hone : (1 : ℚ) ≤ x + 1 / 2 := by
      simpa using (Nat.le_floor_iff (by linarith)).mp (Nat.succ_le_of_lt hpos)
    linarith [half_up_near hx]

/-- The distance of a double from the nearest whole number is a double. -/
theorem Is.held_half_up (h : y.Is x) : Held |x - ⌊x + 1 / 2⌋₊| := by
  have hle := half_up_distance_le h.nonneg
  obtain ⟨m, e, hcanonical, rfl, rfl⟩ := h
  have hunit : (0 : ℚ) < 2 ^ e := by positivity
  set r := ⌊(m : ℚ) * 2 ^ e + 1 / 2⌋₊ with hr
  rcases le_or_gt 0 e with he | he
  · obtain ⟨k, rfl⟩ := Int.eq_ofNat_of_zero_le he
    have hwhole : (m : ℚ) * 2 ^ (k : ℤ) = (m * 2 ^ k : ℕ) := by push_cast; rw [zpow_natCast]
    rw [hr, hwhole, floor_natCast_half, sub_self, abs_zero]
    exact ⟨0, leastExponent, by decide, by simp⟩
  · -- in units of the double both numbers are whole
    have hone : (2 : ℚ) ^ (-e).toNat * 2 ^ e = 1 := by
      rw [mul_comm, zpow_mul_pow_toNat_neg two_ne_zero, Int.toNat_of_nonpos he.le, pow_zero]
    have hdistance : |(m : ℚ) * 2 ^ e - r| =
        ((m - r * 2 ^ (-e).toNat : ℤ).natAbs : ℚ) * 2 ^ e := by
      rw [Nat.cast_natAbs, Int.cast_abs, ← abs_of_pos hunit, ← abs_mul, abs_of_pos hunit]
      congr 1
      push_cast
      rw [sub_mul, mul_assoc, hone, mul_one]
    rw [hdistance] at hle ⊢
    have hfew : (m - r * 2 ^ (-e).toNat : ℤ).natAbs ≤ m := by
      exact_mod_cast le_of_mul_le_mul_right hle hunit
    exact held_of_lt (hfew.trans_lt hcanonical.mantissa_lt) hcanonical.least_le
      hcanonical.le_greatest

end Workflow.Binary64
