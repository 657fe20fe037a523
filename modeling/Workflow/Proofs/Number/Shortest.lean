import Mathlib.Tactic.SplitIfs
import Workflow.Proofs.Number.Magnitude

/-!
# Shortest digits tell doubles apart

The decimal that is written for a double lies in the interval of the numbers that round to it, and
the intervals of different doubles are disjoint: where two of them meet, one has an odd mantissa and
leaves the end out. So the digits belong to one double alone.
-/
namespace Workflow

@[simp] theorem Decimal.toRat_stripZeros (fuel : Nat) (d : Decimal) :
    (d.stripZeros fuel).toRat = d.toRat := by
  induction fuel generalizing d with
  | zero => rfl
  | succ fuel ih =>
    rw [stripZeros]
    split_ifs with h
    · obtain ⟨q, hq⟩ := Nat.dvd_of_mod_eq_zero h.2
      rw [ih, toRat, toRat, hq, Nat.mul_div_cancel_left q (by decide), zpow_add_one₀ (by norm_num)]
      push_cast
      ring
    · rfl

theorem Decimal.digits_stripZeros_pos {fuel : Nat} {d : Decimal} (h : 0 < d.digits) :
    0 < (d.stripZeros fuel).digits := by
  induction fuel generalizing d with
  | zero => exact h
  | succ fuel ih =>
    rw [stripZeros]
    split_ifs with hzero
    · exact ih (Nat.div_pos (by omega) (by decide))
    · exact h

namespace Binary64

/-! ## Proper numbers -/

/-- The one form of a mantissa and an exponent: 53 bits, of which the first may be missing only
where the exponent cannot be lowered. -/
structure Canonical (m : Nat) (e : Int) : Prop where
  mantissa_lt : m < 2 ^ 53
  least_le : leastExponent ≤ e
  le_greatest : e ≤ greatestExponent
  full : e ≠ leastExponent → 2 ^ 52 ≤ m

theorem Canonical.exponent_of_zero {e : Int} (h : Canonical 0 e) : e = leastExponent := by
  by_contra hne
  simpa using h.full hne

instance (m : Nat) (e : Int) : Decidable (Canonical m e) :=
  decidable_of_iff (m < 2 ^ 53 ∧ leastExponent ≤ e ∧ e ≤ greatestExponent ∧
      (e ≠ leastExponent → 2 ^ 52 ≤ m))
    ⟨fun ⟨h1, h2, h3, h4⟩ => ⟨h1, h2, h3, h4⟩, fun ⟨h1, h2, h3, h4⟩ => ⟨h1, h2, h3, h4⟩⟩

/-- A double as the format has it. -/
def Proper : Binary64 → Prop
  | .finite _ m e => Canonical m e
  | _ => True

instance : DecidablePred Proper
  | .finite _ m e => inferInstanceAs (Decidable (Canonical m e))
  | .nan | .infinite _ => isTrue trivial

/-! ## Intervals -/

/-- How far down the interval of a number reaches, in units of the last place. -/
def lowerGap (m : Nat) (e : Int) : ℚ := if m = 2 ^ 52 ∧ leastExponent < e then 1 / 4 else 1 / 2

/-- The rational number rounds to `m * 2 ^ e`. -/
structure Rounds (m : Nat) (e : Int) (x : ℚ) : Prop where
  low : (m - lowerGap m e) * 2 ^ e ≤ x
  high : x ≤ (m + 1 / 2) * 2 ^ e
  inside : m % 2 = 1 → (m - lowerGap m e) * 2 ^ e < x ∧ x < (m + 1 / 2) * 2 ^ e

/-- The upper end of an interval is not beyond the lower end of one that shares a number with it. -/
theorem Rounds.meet {m m' : Nat} {e e' : Int} {x : ℚ} (h : Rounds m e x) (h' : Rounds m' e' x) :
    (m' - lowerGap m' e') * (2 : ℚ) ^ e' ≤ (m + 1 / 2) * 2 ^ e ∧
      (m % 2 = 1 ∨ m' % 2 = 1 → (m' - lowerGap m' e') * (2 : ℚ) ^ e' < (m + 1 / 2) * 2 ^ e) := by
  refine ⟨h'.low.trans h.high, ?_⟩
  rintro (hodd | hodd)
  · exact h'.low.trans_lt (h.inside hodd).2
  · exact (h'.inside hodd).1.trans_le h.high

theorem Rounds.not_exponent_lt {m m' : Nat} {e e' : Int} {x : ℚ} (hm : Canonical m e)
    (hm' : Canonical m' e') (hlt : e < e') (h : Rounds m e x) (h' : Rounds m' e' x) : False := by
  obtain ⟨hmeet, hstrict⟩ := h.meet h'
  have hleast : leastExponent < e' := hm.least_le.trans_lt hlt
  have hpos : (0 : ℚ) < 2 ^ e := by positivity
  have hunit : (2 : ℚ) * 2 ^ e ≤ 2 ^ e' := by
    rw [mul_comm, ← zpow_add_one₀ two_ne_zero]
    exact zpow_le_zpow_right₀ one_le_two (by omega)
  -- above the least exponent the first bit of a mantissa is set
  have hfloor : (2 : ℚ) ^ 52 - 1 / 4 ≤ m' - lowerGap m' e' := by
    have hfull := hm'.full hleast.ne'
    unfold lowerGap
    split_ifs with hgap
    · rw [hgap.1]
      norm_num
    · have hnext : 2 ^ 52 + 1 ≤ m' := by omega
      have hnext : (2 : ℚ) ^ 52 + 1 ≤ m' := by exact_mod_cast hnext
      linarith
  have hlow : (2 ^ 53 - 1 / 2) * (2 : ℚ) ^ e ≤ (m' - lowerGap m' e') * 2 ^ e' :=
    calc (2 ^ 53 - 1 / 2) * (2 : ℚ) ^ e = (2 ^ 52 - 1 / 4) * (2 * 2 ^ e) := by ring
      _ ≤ (2 ^ 52 - 1 / 4) * 2 ^ e' := by gcongr
      _ ≤ (m' - lowerGap m' e') * 2 ^ e' := by gcongr
  -- an even mantissa leaves room for two more; an odd one has an open interval
  rcases Nat.mod_two_eq_zero_or_one m with heven | hodd
  · have htop : m + 2 ≤ 2 ^ 53 := by
      have := hm.mantissa_lt
      omega
    have htop : (m : ℚ) + 2 ≤ 2 ^ 53 := by exact_mod_cast htop
    have := le_of_mul_le_mul_right (hlow.trans hmeet) hpos
    linarith
  · have htop : (m : ℚ) + 1 ≤ 2 ^ 53 := by exact_mod_cast hm.mantissa_lt
    have := lt_of_mul_lt_mul_right (hlow.trans_lt (hstrict (.inl hodd))) hpos.le
    linarith

/-- So does a greater mantissa: of two neighbours one is odd, and its interval is open. -/
theorem Rounds.not_mantissa_lt {m m' : Nat} {e : Int} {x : ℚ} (hlt : m < m') (h : Rounds m e x)
    (h' : Rounds m' e x) : False := by
  obtain ⟨hmeet, hstrict⟩ := h.meet h'
  have hpos : (0 : ℚ) < 2 ^ e := by positivity
  have hle := le_of_mul_le_mul_right hmeet hpos
  have hgap : lowerGap m' e ≤ 1 / 2 := by
    unfold lowerGap
    split_ifs <;> norm_num
  obtain hnext | hfar : m' = m + 1 ∨ m + 2 ≤ m' := by omega
  · have hnear := lt_of_mul_lt_mul_right (hstrict (by omega)) hpos.le
    rw [hnext] at hnear hgap
    push_cast at hnear
    linarith
  · have hfar : (m : ℚ) + 2 ≤ m' := by exact_mod_cast hfar
    linarith

theorem Rounds.unique {m m' : Nat} {e e' : Int} {x : ℚ} (hm : Canonical m e)
    (hm' : Canonical m' e') (h : Rounds m e x) (h' : Rounds m' e' x) : m = m' ∧ e = e' := by
  rcases lt_trichotomy e e' with hlt | rfl | hlt
  · exact (h.not_exponent_lt hm hm' hlt h').elim
  · rcases lt_trichotomy m m' with hlt | rfl | hlt
    · exact (h.not_mantissa_lt hlt h').elim
    · exact ⟨rfl, rfl⟩
    · exact (h'.not_mantissa_lt hlt h).elim
  · exact (h'.not_exponent_lt hm' hm hlt h).elim

/-! ## The interval of the search -/

theorem roundingInterval_den_pos (m : Nat) (e : Int) : 0 < (roundingInterval m e).den :=
  Nat.pow_pos (by decide)

theorem roundingInterval_scale (m : Nat) (e : Int) :
    (2 : ℚ) ^ e / 4 * (roundingInterval m e).den = (2 ^ (e - 2).toNat : ℕ) := by
  have hscale := zpow_mul_pow_toNat_neg (b := 2) two_ne_zero (e - 2)
  have hquarter : (2 : ℚ) ^ e / 4 = 2 ^ (e - 2) := by
    rw [zpow_sub₀ two_ne_zero]
    norm_num
  rw [hquarter]
  simpa [roundingInterval] using hscale

theorem roundingInterval_value (m : Nat) (e : Int) :
    ((roundingInterval m e).value : ℚ) = m * 2 ^ e * (roundingInterval m e).den := by
  have hscale := roundingInterval_scale m e
  have hvalue : (roundingInterval m e).value = 4 * m * 2 ^ (e - 2).toNat := rfl
  rw [hvalue]
  push_cast at hscale ⊢
  rw [← hscale]
  ring

theorem roundingInterval_high (m : Nat) (e : Int) :
    ((roundingInterval m e).high : ℚ) = (m + 1 / 2) * 2 ^ e * (roundingInterval m e).den := by
  have hscale := roundingInterval_scale m e
  have hhigh : (roundingInterval m e).high = (4 * m + 2) * 2 ^ (e - 2).toNat := rfl
  rw [hhigh]
  push_cast at hscale ⊢
  rw [← hscale]
  ring

theorem roundingInterval_low {m : Nat} (hm : 0 < m) (e : Int) :
    ((roundingInterval m e).low : ℚ) = (m - lowerGap m e) * 2 ^ e * (roundingInterval m e).den := by
  have hscale := roundingInterval_scale m e
  have hlow : (roundingInterval m e).low =
      (4 * m - if m = 2 ^ 52 ∧ leastExponent < e then 1 else 2) * 2 ^ (e - 2).toNat := rfl
  have hsub : (if m = 2 ^ 52 ∧ leastExponent < e then 1 else 2) ≤ 4 * m := by
    split_ifs <;> omega
  rw [hlow, Nat.cast_mul, Nat.cast_sub hsub, ← hscale, lowerGap]
  split_ifs <;> push_cast <;> ring

theorem compare_over {a b : Nat} {x y den : ℚ} (hden : 0 < den) (ha : (a : ℚ) = x * den)
    (hb : (b : ℚ) = y * den) : (a ≤ b ↔ x ≤ y) ∧ (a < b ↔ x < y) := by
  rw [← Nat.cast_le (α := ℚ), ← Nat.cast_lt (α := ℚ), ha, hb]
  exact ⟨mul_le_mul_iff_of_pos_right hden, mul_lt_mul_iff_of_pos_right hden⟩

theorem cast_gridPoint (d den : Nat) (exponent : Int) :
    ((d * (den * 10 ^ exponent.toNat) : ℕ) : ℚ) =
      d * 10 ^ exponent * (den * 10 ^ (-exponent).toNat) := by
  have hpow := zpow_mul_pow_toNat_neg (b := 10) (by norm_num) exponent
  push_cast
  rw [← hpow]
  ring

/-- The test of the search accepts the multiples that round to the double. -/
theorem roundingInterval_holds {m : Nat} (hm : 0 < m) (e exponent : Int) (d : Nat) :
    (roundingInterval m e).holds (d * ((roundingInterval m e).den * 10 ^ exponent.toNat))
      (10 ^ (-exponent).toNat) = true ↔ Rounds m e (d * 10 ^ exponent) := by
  have hlow := roundingInterval_low hm e
  have hhigh := roundingInterval_high m e
  have hclosed : (roundingInterval m e).closed = decide (m % 2 = 0) := rfl
  have hden : (0 : ℚ) < (roundingInterval m e).den * 10 ^ (-exponent).toNat := by
    have : (0 : ℚ) < (roundingInterval m e).den := by
      exact_mod_cast roundingInterval_den_pos m e
    positivity
  set i := roundingInterval m e
  have hlowTest := compare_over hden (a := i.low * 10 ^ (-exponent).toNat)
    (by push_cast; rw [hlow, mul_assoc]) (cast_gridPoint d i.den exponent)
  have hhighTest := compare_over hden (b := i.high * 10 ^ (-exponent).toNat)
    (cast_gridPoint d i.den exponent) (by push_cast; rw [hhigh, mul_assoc])
  unfold RoundingInterval.holds
  rw [hclosed]
  -- the ends belong to the interval if the mantissa is even
  rcases Nat.mod_two_eq_zero_or_one m with heven | hodd
  · simp only [heven, decide_true, if_true, Bool.and_eq_true, decide_eq_true_eq, hlowTest.1,
      hhighTest.1]
    constructor
    · rintro ⟨h1, h2⟩
      exact ⟨h1, h2, by omega⟩
    · intro h
      exact ⟨h.low, h.high⟩
  · simp only [hodd, one_ne_zero, decide_false, if_false, Bool.and_eq_true, decide_eq_true_eq,
      hlowTest.2, hhighTest.2, Bool.false_eq_true]
    constructor
    · rintro ⟨h1, h2⟩
      exact ⟨h1.le, h2.le, fun _ => ⟨h1, h2⟩⟩
    · intro h
      exact h.inside hodd

/-! ## The search -/

theorem RoundingInterval.onGrid?_eq_some {tie : Tie} {i : RoundingInterval} {exponent : Int}
    {d : Nat} (h : i.onGrid? tie exponent = some d) :
    0 < d ∧ i.holds (d * (i.den * 10 ^ exponent.toNat)) (10 ^ (-exponent).toNat) = true := by
  change 0 < d ∧ i.holds (d * (i.den * Nat.pow 10 exponent.toNat))
    (Nat.pow 10 (-exponent).toNat) = true
  simp only [onGrid?, Bool.and_eq_true, decide_eq_true_eq] at h
  split_ifs at h with hboth habove hbelow hnext <;> cases h
  · exact ⟨Nat.succ_pos _, hboth.2⟩
  · exact ⟨Nat.pos_of_ne_zero hboth.1.1, hboth.1.2⟩
  · exact ⟨Nat.pos_of_ne_zero hbelow.1, hbelow.2⟩
  · exact ⟨Nat.succ_pos _, hnext⟩

theorem RoundingInterval.onGrid?_isSome {i : RoundingInterval} {exponent : Int} (tie : Tie)
    {d : Nat} (hd : i.value * 10 ^ (-exponent).toNat / (i.den * 10 ^ exponent.toNat) = d)
    (hpos : 0 < d)
    (hholds : i.holds (d * (i.den * 10 ^ exponent.toNat)) (10 ^ (-exponent).toNat) = true) :
    (i.onGrid? tie exponent).isSome = true := by
  have hbelow : i.value * Nat.pow 10 (-exponent).toNat / (i.den * Nat.pow 10 exponent.toNat) = d := hd
  have hholds : i.holds (d * (i.den * Nat.pow 10 exponent.toNat))
    (Nat.pow 10 (-exponent).toNat) = true := hholds
  simp only [onGrid?, hbelow, hholds, hpos.ne', Bool.and_eq_true, decide_eq_true_eq, ne_eq,
    not_false_eq_true, and_self, true_and, if_true]
  split_ifs <;> rfl

/-- A grid that is no coarser than the interval has a hit. -/
theorem onGrid?_isSome {m : Nat} (hm : 0 < m) (tie : Tie) {e exponent : Int}
    (hfine : (10 : ℚ) ^ exponent ≤ 1 / 4 * 2 ^ e) :
    ((roundingInterval m e).onGrid? tie exponent).isSome = true := by
  have hstep : 0 < (roundingInterval m e).den * 10 ^ exponent.toNat :=
    Nat.mul_pos (roundingInterval_den_pos m e) (Nat.pow_pos (by decide))
  have hunit : (0 : ℚ) < (roundingInterval m e).den * 10 ^ (-exponent).toNat := by
    have : (0 : ℚ) < (roundingInterval m e).den := by
      exact_mod_cast roundingInterval_den_pos m e
    positivity
  have hvalue : (((roundingInterval m e).value * 10 ^ (-exponent).toNat : ℕ) : ℚ) =
      m * 2 ^ e * ((roundingInterval m e).den * 10 ^ (-exponent).toNat) := by
    push_cast
    rw [roundingInterval_value, mul_assoc]
  set i := roundingInterval m e with hi
  obtain ⟨d, hd⟩ : ∃ d, i.value * 10 ^ (-exponent).toNat / (i.den * 10 ^ exponent.toNat) = d :=
    ⟨_, rfl⟩
  -- the number lies between two neighbours on the grid, and the lower one is in the interval
  have hbelow : (d : ℚ) * 10 ^ exponent ≤ m * 2 ^ e := by
    rw [← (compare_over hunit (cast_gridPoint d i.den exponent) hvalue).1, ← hd]
    exact Nat.div_mul_le_self _ _
  have habove : (m : ℚ) * 2 ^ e < (d + 1 : ℕ) * 10 ^ exponent := by
    rw [← (compare_over hunit hvalue (cast_gridPoint (d + 1) i.den exponent)).2, ← hd]
    rw [mul_comm (_ + 1)]
    exact Nat.lt_mul_div_succ _ hstep
  have hulp : (0 : ℚ) < 2 ^ e := by positivity
  have hone : (1 : ℚ) ≤ m := by exact_mod_cast hm
  push_cast at habove
  have hpos : 0 < d := by
    rw [Nat.pos_iff_ne_zero]
    rintro rfl
    simp only [Nat.cast_zero, zero_add, one_mul] at habove
    nlinarith
  have hgap : 1 / 4 ≤ lowerGap m e := by
    unfold lowerGap
    split_ifs <;> norm_num
  have hlow : (m - lowerGap m e) * 2 ^ e < (d : ℚ) * 10 ^ exponent := by
    nlinarith
  have hhigh : (d : ℚ) * 10 ^ exponent < (m + 1 / 2) * 2 ^ e := by
    nlinarith
  apply i.onGrid?_isSome tie hd hpos
  rw [hi, roundingInterval_holds hm]
  exact ⟨hlow.le, hhigh.le, fun _ => ⟨hlow, hhigh⟩⟩

theorem searchGrids_eq {tie : Tie} {i : RoundingInterval} {magnitude : Int} {fuel count k : Nat}
    (hk : k < fuel) (hhit : (i.onGrid? tie (magnitude - (count + k : ℕ))).isSome = true) :
    ∃ digits exponent, i.onGrid? tie exponent = some digits ∧
      searchGrids tie i magnitude fuel count = Decimal.stripZeros 20 ⟨digits, exponent⟩ := by
  induction fuel generalizing count k with
  | zero => omega
  | succ fuel ih =>
    rw [searchGrids]
    split
    · rename_i digits hdigits
      exact ⟨digits, _, hdigits, rfl⟩
    · rename_i hnone
      cases k with
      | zero => simp [hnone] at hhit
      | succ k =>
        rw [show count + (k + 1) = count + 1 + k by omega] at hhit
        exact ih (by omega) hhit

theorem binaryMagnitude_bounds {m num den : Nat} {e : Int} (hm : 0 < m) (hcanonical : Canonical m e)
    (hnum : 0 < num) (hden : 0 < den) (hvalue : (num / den : ℚ) = m * 2 ^ e) :
    -1100 ≤ binaryMagnitude num den ∧ binaryMagnitude num den ≤ 1100 := by
  obtain ⟨hlow, hhigh⟩ := binaryMagnitude_spec hnum hden
  rw [hvalue] at hlow hhigh
  have hone : (1 : ℚ) ≤ m := by exact_mod_cast hm
  have htop : (m : ℚ) < 2 ^ 53 := by exact_mod_cast hcanonical.mantissa_lt
  have hleast := hcanonical.least_le
  have hgreatest := hcanonical.le_greatest
  unfold leastExponent at hleast
  unfold greatestExponent at hgreatest
  constructor
  · have hsmall : (2 : ℚ) ^ e < 2 ^ (binaryMagnitude num den + 1) :=
      (le_mul_of_one_le_left (by positivity) hone).trans_lt hhigh
    have := (zpow_lt_zpow_iff_right₀ one_lt_two).mp hsmall
    omega
  · have hlarge : (2 : ℚ) ^ binaryMagnitude num den < 2 ^ ((53 : ℕ) + e) := by
      rw [zpow_add₀ two_ne_zero, zpow_natCast]
      exact hlow.trans_lt (mul_lt_mul_of_pos_right htop (by positivity))
    have := (zpow_lt_zpow_iff_right₀ one_lt_two).mp hlarge
    omega

theorem roundingInterval_value_pos {m : Nat} (hm : 0 < m) (e : Int) :
    0 < (roundingInterval m e).value := by
  have hvalue : (roundingInterval m e).value = 4 * m * 2 ^ (e - 2).toNat := rfl
  rw [hvalue]
  positivity

/-- Eighteen digits make the grid finer than the interval. -/
theorem ten_zpow_le_quarter {m : Nat} {e : Int} (hm : 0 < m) (hcanonical : Canonical m e) :
    (10 : ℚ) ^ (decimalMagnitude (roundingInterval m e).value (roundingInterval m e).den - 18) ≤
      1 / 4 * 2 ^ e := by
  have hden := roundingInterval_den_pos m e
  have hnum := roundingInterval_value_pos hm e
  have hvalue : ((roundingInterval m e).value / (roundingInterval m e).den : ℚ) = m * 2 ^ e := by
    rw [roundingInterval_value, mul_div_cancel_right₀]
    exact_mod_cast hden.ne'
  obtain ⟨hsmall, hlarge⟩ := binaryMagnitude_bounds hm hcanonical hnum hden hvalue
  have hreached := ten_zpow_decimalMagnitude_le hnum hden hsmall hlarge
  rw [hvalue] at hreached
  set k := decimalMagnitude (roundingInterval m e).value (roundingInterval m e).den
  have htop : (m : ℚ) ≤ 2 ^ 53 := by exact_mod_cast hcanonical.mantissa_lt.le
  have hulp : (0 : ℚ) < 2 ^ e := by positivity
  calc (10 : ℚ) ^ (k - 18) = 10 ^ (k - 1) / 10 ^ 17 := by
        rw [show k - 18 = k - 1 - 17 by ring, zpow_sub₀ (by norm_num)]
        norm_num
    _ ≤ 2 ^ 53 * 2 ^ e / 10 ^ 17 := by
        have := hreached.trans (mul_le_mul_of_nonneg_right htop hulp.le)
        gcongr
    _ ≤ 1 / 4 * 2 ^ e := by
        rw [div_le_iff₀ (by norm_num)]
        linarith

/-- The written decimal is one that rounds to the double. -/
theorem rounds_shortest {m : Nat} {e : Int} (tie : Tie) (hm : 0 < m) (hcanonical : Canonical m e) :
    0 < (shortest tie m e).digits ∧ Rounds m e (shortest tie m e).toRat := by
  have hhit := onGrid?_isSome hm tie (ten_zpow_le_quarter hm hcanonical)
  obtain ⟨digits, exponent, hgrid, hsearch⟩ := searchGrids_eq (by decide : 17 < 18) hhit
  obtain ⟨hdigits, hholds⟩ := RoundingInterval.onGrid?_eq_some hgrid
  have hshortest : shortest tie m e = Decimal.stripZeros 20 ⟨digits, exponent⟩ := by
    rw [shortest, if_neg hm.ne']
    exact hsearch
  rw [hshortest, Decimal.toRat_stripZeros]
  exact ⟨Decimal.digits_stripZeros_pos hdigits,
    (roundingInterval_holds hm e exponent digits).mp hholds⟩

/-- Doubles whose shortest decimals denote one number are the same. -/
theorem shortest_injective {m m' : Nat} {e e' : Int} {tie tie' : Tie} (hm : 0 < m) (hm' : 0 < m')
    (hcanonical : Canonical m e) (hcanonical' : Canonical m' e')
    (h : (shortest tie m e).toRat = (shortest tie' m' e').toRat) : m = m' ∧ e = e' := by
  have hleft := (rounds_shortest tie hm hcanonical).2
  have hright := (rounds_shortest tie' hm' hcanonical').2
  exact Rounds.unique hcanonical hcanonical' hleft (h ▸ hright)

end Binary64
end Workflow
