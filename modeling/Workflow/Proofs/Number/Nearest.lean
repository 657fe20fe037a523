import Workflow.Proofs.Number.Rounding

/-!
# The nearest double

What one rounding gives, in terms of the rational number that is rounded: the double in whose
interval the number lies, or an infinity beyond the last interval. A number that is a double comes
out as it is, and any other one is missed by half a unit of the last place at most.
-/
namespace Workflow.Binary64

/-- The rational number is a double without its sign. -/
def Held (x : ℚ) : Prop := ∃ (m : ℕ) (e : ℤ), Canonical m e ∧ x = m * 2 ^ e

/-- Where the interval of the greatest double ends. -/
def overflow : ℚ := (2 ^ 53 - 1 / 2) * 2 ^ greatestExponent

/-- The double with the sign whose size is nearest to `x`, and the one with the even mantissa if
there are two. -/
inductive Nearest (negative : Bool) (x : ℚ) : Binary64 → Prop
  | finite {m : ℕ} {e : ℤ} (canonical : Canonical m e) (rounds : Rounds m e x) :
      Nearest negative x (.finite negative m e)
  | infinite (large : overflow ≤ x) : Nearest negative x (.infinite negative)

variable {m num den : ℕ} {e : ℤ} {negative : Bool} {x : ℚ} {y y' : Binary64}

/-! ## Numbers that are doubles -/

theorem lowerGap_bounds (m : ℕ) (e : ℤ) : 1 / 4 ≤ lowerGap m e ∧ lowerGap m e ≤ 1 / 2 := by
  unfold lowerGap
  split_ifs <;> norm_num

theorem rounds_self (m : ℕ) (e : ℤ) : Rounds m e (m * 2 ^ e) := by
  have hpos : (0 : ℚ) < 2 ^ e := by positivity
  have hgap := (lowerGap_bounds m e).1
  have hlow : (m - lowerGap m e) * (2 : ℚ) ^ e < m * 2 ^ e := by gcongr; linarith
  have hhigh : (m : ℚ) * 2 ^ e < (m + 1 / 2) * 2 ^ e := by gcongr; linarith
  exact ⟨hlow.le, hhigh.le, fun _ => ⟨hlow, hhigh⟩⟩

/-- A mantissa of 53 bits can be given the form of a double by lowering the exponent. -/
theorem held_of_lt (hm : m < 2 ^ 53) (hleast : leastExponent ≤ e) (hgreatest : e ≤ greatestExponent) :
    Held (m * 2 ^ e) := by
  obtain ⟨k, hk⟩ : ∃ k : ℕ, e = leastExponent + k := ⟨(e - leastExponent).toNat, by omega⟩
  induction k generalizing m e with
  | zero => exact ⟨m, e, ⟨hm, hleast, hgreatest, fun hne => absurd (by simpa using hk) hne⟩, rfl⟩
  | succ k ih =>
    by_cases hfull : 2 ^ 52 ≤ m
    · exact ⟨m, e, ⟨hm, hleast, hgreatest, fun _ => hfull⟩, rfl⟩
    · obtain ⟨m', e', hcanonical, hvalue⟩ := ih (m := 2 * m) (e := e - 1) (by omega) (by omega)
        (by omega) (by push_cast at hk; omega)
      refine ⟨m', e', hcanonical, ?_⟩
      rw [← hvalue, zpow_sub_one₀ two_ne_zero]
      push_cast
      ring

theorem held_natCast {n : ℕ} (hn : n < 2 ^ 53) : Held n := by
  simpa using held_of_lt hn (e := 0) (by decide) (by decide)

theorem Rounds.lt_overflow (hcanonical : Canonical m e) (h : Rounds m e x) : x < overflow := by
  have htop : (2 : ℚ) ^ e ≤ 2 ^ greatestExponent :=
    zpow_le_zpow_right₀ one_le_two hcanonical.le_greatest
  have hscale : (2 ^ 53 - 1 / 2) * (2 : ℚ) ^ e ≤ overflow :=
    mul_le_mul_of_nonneg_left htop (by norm_num)
  refine lt_of_lt_of_le ?_ hscale
  have hpos : (0 : ℚ) < 2 ^ e := by positivity
  have hmantissa : m + 1 ≤ 2 ^ 53 := hcanonical.mantissa_lt
  rcases Nat.mod_two_eq_zero_or_one m with heven | hodd
  · -- the greatest mantissa is odd, so that an even one leaves room
    have hroom : m + 2 ≤ 2 ^ 53 := by omega
    have hroom : (m : ℚ) + 2 ≤ 2 ^ 53 := by exact_mod_cast hroom
    exact h.high.trans_lt (mul_lt_mul_of_pos_right (by linarith only [hroom]) hpos)
  · have hmantissa : (m : ℚ) + 1 ≤ 2 ^ 53 := by exact_mod_cast hmantissa
    exact (h.inside hodd).2.trans_le
      (mul_le_mul_of_nonneg_right (by linarith only [hmantissa]) hpos.le)

theorem Nearest.unique (h : Nearest negative x y) (h' : Nearest negative x y') : y = y' := by
  cases h with
  | finite canonical rounds =>
    cases h' with
    | finite canonical' rounds' =>
      obtain ⟨rfl, rfl⟩ := rounds.unique canonical canonical' rounds'
      rfl
    | infinite large => exact absurd (rounds.lt_overflow canonical) large.not_gt
  | infinite large =>
    cases h' with
    | finite canonical' rounds' => exact absurd (rounds'.lt_overflow canonical') large.not_gt
    | infinite => rfl

theorem Nearest.of_held (h : Nearest negative x y) (hx : Held x) :
    ∃ m e, Canonical m e ∧ y = .finite negative m e ∧ (m : ℚ) * 2 ^ e = x := by
  obtain ⟨m, e, hcanonical, rfl⟩ := hx
  exact ⟨m, e, hcanonical, h.unique (.finite hcanonical (rounds_self m e)), rfl⟩

theorem Nearest.zero (negative : Bool) : Nearest negative 0 (zero negative) :=
  .finite (by decide) (by simpa using rounds_self 0 leastExponent)

/-! ## The size of the error -/

/-- The interval of a full mantissa reaches down by a small part of the number. -/
theorem lowerGap_le (hcanonical : Canonical m e) (he : e ≠ leastExponent) :
    2 ^ 53 * lowerGap m e ≤ m - lowerGap m e := by
  have hleast : leastExponent < e := lt_of_le_of_ne hcanonical.least_le (Ne.symm he)
  have hfull := hcanonical.full he
  unfold lowerGap
  split_ifs with h
  · rw [h.1]
    norm_num
  · have hnext : 2 ^ 52 + 1 ≤ m := by omega
    have hnext : (2 : ℚ) ^ 52 + 1 ≤ m := by exact_mod_cast hnext
    linarith

/-- A number is missed by half a unit of the last place, which is a small part of the number or
smaller than the least double. -/
theorem Rounds.error (hcanonical : Canonical m e) (h : Rounds m e x) (hx : 0 ≤ x) :
    |m * 2 ^ e - x| ≤ x / 2 ^ 53 + 2 ^ leastExponent := by
  have hleast : (0 : ℚ) < 2 ^ leastExponent := by positivity
  have hpart : 0 ≤ x / 2 ^ 53 := by positivity
  have hpos : (0 : ℚ) < 2 ^ e := by positivity
  have hhigh : x - m * 2 ^ e ≤ 1 / 2 * 2 ^ e := by linarith [h.high]
  have hlow : m * 2 ^ e - x ≤ lowerGap m e * 2 ^ e := by linarith [h.low]
  by_cases he : e = leastExponent
  · subst he
    have hgap := mul_le_mul_of_nonneg_right (lowerGap_bounds m leastExponent).2 hpos.le
    rw [abs_le]
    constructor <;> linarith
  rcases le_total ((m : ℚ) * 2 ^ e) x with hbelow | habove
  · have hfull : (2 : ℚ) ^ 52 ≤ m := by exact_mod_cast hcanonical.full he
    have hfull : 2 ^ 52 * 2 ^ e ≤ x := (mul_le_mul_of_nonneg_right hfull hpos.le).trans hbelow
    have hpart : 1 / 2 * 2 ^ e ≤ x / 2 ^ 53 := by
      rw [le_div_iff₀ (by norm_num)]
      linarith
    rw [abs_sub_comm, abs_of_nonneg (by linarith)]
    linarith
  · have hgap := (mul_le_mul_of_nonneg_right (lowerGap_le hcanonical he) hpos.le).trans h.low
    have hpart : lowerGap m e * 2 ^ e ≤ x / 2 ^ 53 := by
      rw [le_div_iff₀ (by norm_num)]
      linarith
    rw [abs_of_nonneg (by linarith)]
    linarith

theorem two_pow_le_overflow : (2 : ℚ) ^ 100 ≤ overflow := by
  have hscale : (2 : ℚ) ^ (100 : ℤ) ≤ 2 ^ greatestExponent :=
    zpow_le_zpow_right₀ one_le_two (by decide)
  have hpos : (0 : ℚ) < 2 ^ greatestExponent := by positivity
  rw [← zpow_natCast]
  unfold overflow
  calc (2 : ℚ) ^ ((100 : ℕ) : ℤ) ≤ 1 * 2 ^ greatestExponent := by rw [one_mul]; exact hscale
    _ ≤ (2 ^ 53 - 1 / 2) * 2 ^ greatestExponent :=
      mul_le_mul_of_nonneg_right (by norm_num) hpos.le

/-! ## One rounding -/

/-- What is rounded lies within half a unit, and where a half is met the result is even. -/
theorem roundDiv_near (n : ℕ) {d : ℕ} (hd : 0 < d) :
    2 * (roundDiv n d * d) ≤ 2 * n + d ∧ 2 * n ≤ 2 * (roundDiv n d * d) + d ∧
      (roundDiv n d % 2 = 1 → 2 * (roundDiv n d * d) < 2 * n + d ∧
        2 * n < 2 * (roundDiv n d * d) + d) := by
  have hn := Nat.div_add_mod n d
  have hr := Nat.mod_lt n hd
  have hsucc : (n / d + 1) * d = n / d * d + d := Nat.succ_mul _ _
  rw [mul_comm d] at hn
  simp only [roundDiv]
  split_ifs <;> omega

/-- A quotient in units of its last place is compared as the quotient itself. -/
theorem scaled_compare (num : ℕ) (hden : 0 < den) (e : ℤ) (c : ℚ) :
    let n : ℚ := (num * 2 ^ (-e).toNat : ℕ)
    let unit : ℚ := (den * 2 ^ e.toNat : ℕ)
    (c * unit ≤ n ↔ c * 2 ^ e ≤ num / den) ∧ (n ≤ c * unit ↔ num / den ≤ c * 2 ^ e) := by
  intro n unit
  have hd : (0 : ℚ) < den := by exact_mod_cast hden
  have hpos : (0 : ℚ) < 2 ^ e := by positivity
  have hunit : 0 < unit := by
    simp only [unit]
    positivity
  have hvalue : n * 2 ^ e = num / den * unit := by
    simp only [n, unit]
    push_cast
    rw [← zpow_mul_pow_toNat_neg (b := 2) two_ne_zero e]
    field_simp
  have hc : c * unit * 2 ^ e = c * 2 ^ e * unit := by ring
  constructor
  · calc c * unit ≤ n ↔ c * unit * 2 ^ e ≤ n * 2 ^ e := (mul_le_mul_iff_of_pos_right hpos).symm
      _ ↔ c * 2 ^ e * unit ≤ num / den * unit := by rw [hc, hvalue]
      _ ↔ c * 2 ^ e ≤ num / den := mul_le_mul_iff_of_pos_right hunit
  · calc n ≤ c * unit ↔ n * 2 ^ e ≤ c * unit * 2 ^ e := (mul_le_mul_iff_of_pos_right hpos).symm
      _ ↔ num / den * unit ≤ c * 2 ^ e * unit := by rw [hc, hvalue]
      _ ↔ num / den ≤ c * 2 ^ e := mul_le_mul_iff_of_pos_right hunit

/-- The rounded quotient in units of the last place, before the exponent is settled. -/
theorem rounds_place (hnum : 0 < num) (hden : 0 < den) {q : ℕ} (he : placeOf num den = e)
    (hq : roundDiv (num * 2 ^ (-e).toNat) (den * 2 ^ e.toNat) = q) :
    ((q - 1 / 2) * (2 : ℚ) ^ e ≤ num / den ∧ (num / den : ℚ) ≤ (q + 1 / 2) * 2 ^ e) ∧
      (q % 2 = 1 → (q - 1 / 2) * (2 : ℚ) ^ e < num / den ∧
        (num / den : ℚ) < (q + 1 / 2) * 2 ^ e) ∧
      (num / den : ℚ) < 2 ^ 53 * 2 ^ e ∧ (e ≠ leastExponent → 2 ^ 52 * (2 : ℚ) ^ e ≤ num / den) := by
  have hunit : 0 < den * 2 ^ e.toNat := Nat.mul_pos hden (Nat.pow_pos (by decide))
  have hcompare (c : ℚ) := scaled_compare num hden e c
  obtain ⟨hlow, hhigh, hodd⟩ := roundDiv_near (num * 2 ^ (-e).toNat) hunit
  obtain ⟨htop, hfull⟩ := scaled_bounds hnum hden
  rw [he] at htop hfull
  rw [hq] at hlow hhigh hodd
  generalize num * 2 ^ (-e).toNat = n, den * 2 ^ e.toNat = unit at hcompare hlow hhigh hodd htop hfull
  have hlow : (2 * (q * unit) : ℚ) ≤ 2 * n + unit := by exact_mod_cast hlow
  have hhigh : (2 * n : ℚ) ≤ 2 * (q * unit) + unit := by exact_mod_cast hhigh
  simp only [← not_le, ← (hcompare _).1, ← (hcompare _).2]
  simp only [not_le]
  refine ⟨⟨by linarith, by linarith⟩, fun h => ?_, by exact_mod_cast htop, fun h => ?_⟩
  · obtain ⟨hlow, hhigh⟩ := hodd h
    have hlow : (2 * (q * unit) : ℚ) < 2 * n + unit := by exact_mod_cast hlow
    have hhigh : (2 * n : ℚ) < 2 * (q * unit) + unit := by exact_mod_cast hhigh
    exact ⟨by linarith, by linarith⟩
  · exact_mod_cast hfull h

/-- A number that is nearest to a mantissa lies in its interval, also where the interval is short. -/
theorem rounds_of_near {q : ℕ}
    (hnear : (q - 1 / 2) * (2 : ℚ) ^ e ≤ x ∧ x ≤ (q + 1 / 2) * (2 : ℚ) ^ e)
    (hodd : q % 2 = 1 → (q - 1 / 2) * (2 : ℚ) ^ e < x ∧ x < (q + 1 / 2) * (2 : ℚ) ^ e)
    (hfull : e ≠ leastExponent → 2 ^ 52 * (2 : ℚ) ^ e ≤ x) : Rounds q e x := by
  have hpos : (0 : ℚ) < 2 ^ e := by positivity
  by_cases hshort : q = 2 ^ 52 ∧ leastExponent < e
  · have hx := hfull hshort.2.ne'
    refine ⟨?_, hnear.2, fun h => absurd h (by rw [hshort.1]; decide)⟩
    rw [lowerGap, if_pos hshort, hshort.1]
    push_cast
    linarith
  · have hgap : lowerGap q e = 1 / 2 := if_neg hshort
    exact ⟨hgap ▸ hnear.1, hnear.2, fun h => hgap ▸ hodd h⟩

/-- The rounding step finds the nearest double. -/
theorem nearest_ofQuotient (negative : Bool) (num : ℕ) (hden : 0 < den) :
    Nearest negative (num / den) (ofQuotient negative num den) := by
  by_cases hnum : num = 0
  · rw [ofQuotient, if_pos hnum, hnum, Nat.cast_zero, zero_div]
    exact .zero negative
  have hproper := proper_ofQuotient negative num hden
  obtain ⟨e, he⟩ : ∃ e, placeOf num den = e := ⟨_, rfl⟩
  obtain ⟨q, hq⟩ : ∃ q, roundDiv (num * 2 ^ (-e).toNat) (den * 2 ^ e.toNat) = q := ⟨_, rfl⟩
  obtain ⟨hnear, hodd, htop, hfull⟩ := rounds_place (Nat.pos_of_ne_zero hnum) hden he hq
  have hleast : leastExponent ≤ e := he ▸ le_max_right _ _
  rw [ofQuotient_eq negative hnum, he, hq] at hproper ⊢
  generalize (num / den : ℚ) = x at hnear hodd htop hfull ⊢
  have hpos : (0 : ℚ) < 2 ^ e := by positivity
  -- a mantissa that is rounded up to 2 ^ 53 is halved, and the last place moves up by one
  by_cases hcarry : q = 2 ^ 53
  · simp only [hcarry, if_true] at hproper ⊢
    rw [hcarry] at hnear
    push_cast at hnear
    have hunit : (2 : ℚ) ^ (e + 1) = 2 * 2 ^ e := by rw [zpow_add_one₀ two_ne_zero, mul_comm]
    split_ifs at hproper ⊢ with hlarge hzero
    · have hlast : (2 : ℚ) ^ greatestExponent ≤ 2 ^ e := zpow_le_zpow_right₀ one_le_two (by omega)
      exact .infinite ((mul_le_mul_of_nonneg_left hlast (by norm_num)).trans hnear.1)
    · cases hzero
    · refine .finite hproper ⟨?_, ?_, fun h => absurd h (by decide)⟩
      · rw [lowerGap, if_pos ⟨rfl, by omega⟩, hunit]
        push_cast
        linarith only [hnear.1]
      · rw [hunit]
        push_cast
        linarith only [htop, hpos]
  · simp only [hcarry, if_false] at hproper ⊢
    split_ifs at hproper ⊢ with hlarge hzero
    · have hlast : (2 : ℚ) ^ (greatestExponent + 1) ≤ 2 ^ e :=
        zpow_le_zpow_right₀ one_le_two (by omega)
      rw [zpow_add_one₀ two_ne_zero] at hlast
      have hbeyond := hfull (by unfold leastExponent greatestExponent at *; omega)
      refine .infinite (le_trans ?_ hbeyond)
      have hscale : (0 : ℚ) < 2 ^ greatestExponent := by positivity
      unfold overflow
      linarith only [hlast, hscale]
    · -- only where the last place is the least one does a number round to nothing
      obtain rfl : e = leastExponent := by
        by_contra he
        have hx := hfull he
        rw [hzero, Nat.cast_zero, zero_add] at hnear
        linarith only [hx, hnear.2, hpos]
      exact .finite (by decide) (hzero ▸ rounds_of_near hnear hodd hfull)
    · exact .finite hproper (rounds_of_near hnear hodd hfull)

theorem nearest_ofNat (n : ℕ) : Nearest false n (ofInt n) := by
  have h := nearest_ofQuotient false n Nat.one_pos
  rw [Nat.cast_one, div_one] at h
  simpa [ofInt, (Int.natCast_nonneg n).not_gt] using h

/-! ## Decimals -/

/-- The sizes of decimals are compared with powers of two, by exponents that are natural numbers or
less than zero. -/
theorem two_zpow_le_ten_zpow (e : ℤ) : (2 : ℚ) ^ min (3 * e) (4 * e) ≤ 10 ^ e := by
  rcases le_total 0 e with he | he
  · calc (2 : ℚ) ^ min (3 * e) (4 * e) = (2 ^ (3 : ℤ)) ^ e := by
          rw [← zpow_mul, min_eq_left (by omega)]
      _ ≤ 10 ^ e := zpow_le_zpow_left₀ he (by norm_num) (by norm_num)
  · calc (2 : ℚ) ^ min (3 * e) (4 * e) = ((2 ^ (4 : ℤ)) ^ (-e))⁻¹ := by
          rw [← zpow_mul, ← zpow_neg, min_eq_right (by omega)]
          congr 1
          ring
      _ ≤ (10 ^ (-e))⁻¹ := by
          apply inv_anti₀ (by positivity)
          exact zpow_le_zpow_left₀ (by omega) (by norm_num) (by norm_num)
      _ = 10 ^ e := by rw [zpow_neg, inv_inv]

theorem ten_zpow_pow_le {e : ℤ} (he : e ≤ 0) : ((10 : ℚ) ^ e) ^ 10 ≤ 2 ^ (33 * e) := by
  calc ((10 : ℚ) ^ e) ^ 10 = ((10 ^ 10) ^ (-e))⁻¹ := by
        rw [zpow_neg, inv_inv, ← zpow_natCast, ← zpow_natCast, zpow_comm]
    _ ≤ ((2 ^ 33) ^ (-e))⁻¹ := by
        apply inv_anti₀ (by positivity)
        exact zpow_le_zpow_left₀ (by omega) (by norm_num) (by norm_num)
    _ = 2 ^ (33 * e) := by rw [zpow_neg, inv_inv, zpow_mul, ← zpow_natCast]; rfl

theorem overflow_le_decimal {digits : ℕ} {e : ℤ} (hdigits : digits ≠ 0)
    (h : 1100 < (digits.log2 : ℤ) + min (3 * e) (4 * e)) : overflow ≤ digits * 10 ^ e := by
  have hsize : (2 : ℚ) ^ (digits.log2 : ℤ) ≤ digits := by
    rw [zpow_natCast]
    exact_mod_cast Nat.log2_self_le hdigits
  have hlast : (0 : ℚ) < 2 ^ greatestExponent := by positivity
  calc overflow ≤ 2 ^ 53 * 2 ^ greatestExponent := by
        unfold overflow
        linarith only [hlast]
    _ = 2 ^ ((53 : ℕ) + greatestExponent) := by rw [zpow_add₀ two_ne_zero, zpow_natCast]
    _ ≤ 2 ^ ((digits.log2 : ℤ) + min (3 * e) (4 * e)) :=
        zpow_le_zpow_right₀ one_le_two (by unfold greatestExponent; omega)
    _ = 2 ^ (digits.log2 : ℤ) * 2 ^ min (3 * e) (4 * e) := zpow_add₀ two_ne_zero _ _
    _ ≤ digits * 10 ^ e := by
        gcongr
        exact two_zpow_le_ten_zpow e

theorem decimal_lt_least {digits : ℕ} {e : ℤ} (he : e < 0)
    (h : (digits.log2 : ℤ) * 10 + 33 * e < -12000) :
    (digits * 10 ^ e : ℚ) < 1 / 2 * 2 ^ leastExponent := by
  have hsize : (digits : ℚ) < 2 ^ ((digits.log2 : ℤ) + 1) := by
    exact_mod_cast Nat.lt_log2_self (n := digits)
  have hraise : (digits * 10 ^ e : ℚ) ^ 10 < (2 ^ (leastExponent - 1)) ^ 10 := by
    calc (digits * 10 ^ e : ℚ) ^ 10 = digits ^ 10 * (10 ^ e) ^ 10 := mul_pow _ _ _
      _ ≤ (2 ^ ((digits.log2 : ℤ) + 1)) ^ 10 * 2 ^ (33 * e) := by
          gcongr
          exact ten_zpow_pow_le he.le
      _ = 2 ^ (((digits.log2 : ℤ) + 1) * (10 : ℕ) + 33 * e) := by
          rw [← zpow_natCast (2 ^ ((digits.log2 : ℤ) + 1)) 10, ← zpow_mul, ← zpow_add₀ two_ne_zero]
      _ < 2 ^ ((leastExponent - 1) * (10 : ℕ)) :=
          zpow_lt_zpow_right₀ one_lt_two (by unfold leastExponent; push_cast; omega)
      _ = (2 ^ (leastExponent - 1)) ^ 10 := by rw [zpow_mul, zpow_natCast]
  calc (digits * 10 ^ e : ℚ) < 2 ^ (leastExponent - 1) :=
        lt_of_pow_lt_pow_left₀ 10 (by positivity) hraise
    _ = 1 / 2 * 2 ^ leastExponent := by rw [zpow_sub_one₀ two_ne_zero]; ring

/-- A decimal is read as the nearest double, also where its size alone decides. -/
theorem nearest_ofDecimal (negative : Bool) (digits : ℕ) (e : ℤ) :
    Nearest negative (digits * 10 ^ e) (ofDecimal negative digits e) := by
  simp only [ofDecimal]
  split_ifs with hzero hlarge hsmall
  · rw [hzero, Nat.cast_zero, zero_mul]
    exact .zero negative
  · exact .infinite (overflow_le_decimal hzero hlarge)
  · have hx := decimal_lt_least hsmall.2.1 hsmall.2.2
    have hpos : (0 : ℚ) ≤ digits * 10 ^ e := by positivity
    have hleast : (0 : ℚ) < 2 ^ leastExponent := by positivity
    refine .finite (by decide) (rounds_of_near ⟨?_, ?_⟩ (fun h => absurd h (by decide)) fun h =>
      absurd rfl h)
    · rw [Nat.cast_zero]
      linarith
    · rw [Nat.cast_zero]
      linarith
  · have h := nearest_ofQuotient negative (digits * 10 ^ e.toNat)
      (Nat.pow_pos (by decide) : 0 < 10 ^ (-e).toNat)
    have hvalue : (digits * 10 ^ e : ℚ) =
        ((digits * 10 ^ e.toNat : ℕ) : ℚ) / (10 ^ (-e).toNat : ℕ) := by
      push_cast
      rw [zpow_eq_div (by norm_num), mul_div_assoc]
    exact hvalue ▸ h

/-! ## Products -/

theorem nearest_mul (s t : Bool) (m n : ℕ) (e f : ℤ) :
    Nearest (s != t) (m * 2 ^ e * (n * 2 ^ f)) (.finite s m e * .finite t n f) := by
  have h := nearest_ofQuotient (s != t) (m * n * 2 ^ (e + f).toNat)
    (Nat.pow_pos (by decide) : 0 < 2 ^ (-(e + f)).toNat)
  have hvalue : (m * 2 ^ e * (n * 2 ^ f) : ℚ) =
      ((m * n * 2 ^ (e + f).toNat : ℕ) : ℚ) / (2 ^ (-(e + f)).toNat : ℕ) := by
    push_cast
    rw [mul_div_assoc, ← zpow_eq_div two_ne_zero, zpow_add₀ two_ne_zero]
    ring
  exact hvalue ▸ h

end Workflow.Binary64
