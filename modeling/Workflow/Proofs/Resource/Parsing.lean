import Workflow.Proofs.Number.Exact
import Workflow.Proofs.Resource.Written

/-!
# What is read from a written quantity

The number of a quantity is read as a double and multiplied as a double, so that two roundings stand
between what is written and what is read. For every written quantity the result is given in terms of
the rounded product; it is the number that is written wherever the roundings make no whole number
and unmake none, and the product is not too large.
-/
namespace Workflow

namespace Binary64
variable {x v : ℚ} {factor : ℕ} {y z : Binary64}

/-- What doubles make of `x` times a factor: the double nearest to `x` is taken, then the one nearest
to its product. What is beyond the doubles stays so. -/
inductive Scaled (x : ℚ) (factor : ℕ) : Binary64 → Prop
  | product {v : ℚ} {y z : Binary64} (number : Nearest false x y) (value : y.Is v)
      (product : Nearest false (v * factor) z) : Scaled x factor z
  | beyond (large : Nearest false x (.infinite false)) : Scaled x factor (.infinite false)

theorem Nearest.is_or (h : Nearest false x y) : (∃ v, y.Is v) ∨ y = .infinite false := by
  cases h with
  | finite canonical => exact .inl ⟨_, _, _, canonical, rfl, rfl⟩
  | infinite => exact .inr rfl

theorem Scaled.is_or (h : Scaled x factor z) : (∃ v, z.Is v) ∨ z = .infinite false := by
  cases h with
  | product number value product => exact product.is_or
  | beyond => exact .inr rfl

theorem scaled_mul (h : Nearest false x y) (hheld : Held factor) (hpos : 0 < factor) :
    Scaled x factor (y * ofInt factor) := by
  obtain ⟨n, f, -, hfactor, hvalue⟩ := (nearest_ofNat factor).of_held hheld
  rw [hfactor]
  cases h with
  | @finite m e canonical rounds =>
    refine .product (.finite canonical rounds) ⟨m, e, canonical, rfl, rfl⟩ ?_
    rw [← hvalue]
    exact nearest_mul false false m n e f
  | infinite large =>
    have hn : n ≠ 0 := by
      rintro rfl
      rw [Nat.cast_zero, zero_mul] at hvalue
      exact hpos.ne (by exact_mod_cast hvalue)
    have hmul : infinite false * finite false n f = .infinite false := if_neg hn
    rw [hmul]
    exact .beyond (.infinite large)

/-- Without a rounding the product is the number itself. -/
theorem Scaled.is_of_held (h : Scaled x factor z) (hx : Held x) (hproduct : Held (x * factor)) :
    z.Is (x * factor) := by
  cases h with
  | product number value product =>
    obtain rfl := value.unique (number.of_held hx)
    exact product.of_held hproduct
  | beyond large =>
    obtain ⟨m, e, -, heq, -⟩ := large.of_held hx
    cases heq

/-! ## The error of the product -/

theorem Nearest.error (h : Nearest false x y) (hy : y.Is v) (hx : 0 ≤ x) :
    |v - x| ≤ x / 2 ^ 53 + 2 ^ leastExponent := by
  obtain ⟨m, e, hcanonical, rfl, rfl⟩ := hy
  cases h with
  | finite _ rounds => exact rounds.error hcanonical hx

theorem least_le : (2 : ℚ) ^ leastExponent ≤ 1 / 2 ^ 100 := by
  have h : (2 : ℚ) ^ leastExponent ≤ 2 ^ (-100 : ℤ) := zpow_le_zpow_right₀ one_le_two (by decide)
  rwa [zpow_neg, ← one_div] at h

/-- Products in the range of 64 bits are missed by a small part of the product. -/
theorem Scaled.error (h : Scaled x factor z) (hx : 0 ≤ x) (hpos : 0 < factor)
    (hfactor : factor ≤ 2 ^ 64) (hsmall : x * factor ≤ 2 ^ 64) :
    ∃ v, z.Is v ∧ |v - x * factor| ≤ x * factor * (1 / 2 ^ 52 + 1 / 2 ^ 106) + 1 / 2 ^ 30 := by
  have hleast := least_le
  have hlarge := two_pow_le_overflow
  have hone : (1 : ℚ) ≤ factor := by exact_mod_cast hpos
  have hfactor : (factor : ℚ) ≤ 2 ^ 64 := by exact_mod_cast hfactor
  cases h with
  | @product w y z number value product =>
    have hfactorLeast : (factor : ℚ) * 2 ^ leastExponent ≤ 2 ^ 64 * (1 / 2 ^ 100) := by gcongr
    have hfirst : |w * factor - x * factor| ≤ x * factor / 2 ^ 53 + factor * 2 ^ leastExponent := by
      calc |w * factor - x * factor| = |w - x| * factor := by
            rw [← sub_mul, abs_mul, abs_of_pos (by linarith : (0 : ℚ) < factor)]
        _ ≤ (x / 2 ^ 53 + 2 ^ leastExponent) * factor := by
            gcongr
            exact number.error value hx
        _ = x * factor / 2 ^ 53 + factor * 2 ^ leastExponent := by ring
    have hsize := (abs_le.mp hfirst).2
    rcases product.is_or with ⟨v, hv⟩ | rfl
    · have hsecond := product.error hv (mul_nonneg value.nonneg (by linarith))
      have htriangle := abs_sub_le v (w * factor) (x * factor)
      exact ⟨v, hv, by linarith⟩
    · cases product with
      | infinite large => linarith
  | beyond large =>
    cases large with
    | infinite large => nlinarith

/-! ## Whole numbers of 64 bits -/

theorem toNat_toUInt64 (h : y.Is v) : y.toUInt64.toNat = min ⌊v⌋₊ (2 ^ 64 - 1) := by
  have hclamped := h.toIntClamped_eq Document.greatestNat64
  rw [toUInt64, hclamped, Int.toNat_natCast, UInt64.toNat_ofNat']
  refine Nat.mod_eq_of_lt (lt_of_le_of_lt (min_le_right _ _) ?_)
  decide

end Binary64

open Binary64

variable {text unit : String} {t : DecimalText}

/-! ## Memory -/

namespace MemoryUnit

/-- The greatest units have a small odd part. -/
theorem factor_bound : ∀ u ∈ binary ++ decimal, 0 < u.factor ∧
    (u.factor < 2 ^ 53 ∨ u.factor / 2 ^ 18 < 2 ^ 53 ∧ u.factor = u.factor / 2 ^ 18 * 2 ^ 18) := by
  decide

theorem factorOf?_cases {u : ℕ} (h : factorOf? unit = some u) :
    u = 1 ∨ u = 1000 ∨ ∃ unit ∈ binary ++ decimal, unit.factor = u := by
  unfold factorOf? at h
  split_ifs at h
  · exact .inl (Option.some.inj h).symm
  · exact .inr (.inl (Option.some.inj h).symm)
  · obtain ⟨unit, hfind, hfactor⟩ := Option.map_eq_some_iff.mp h
    exact .inr (.inr ⟨unit, List.mem_of_find?_eq_some hfind, hfactor⟩)

theorem factor_held {u : ℕ} (h : factorOf? unit = some u) : Held u ∧ 0 < u := by
  rcases factorOf?_cases h with rfl | rfl | ⟨unit, hunit, rfl⟩
  · exact ⟨held_natCast (by norm_num), Nat.one_pos⟩
  · exact ⟨held_natCast (by norm_num), by norm_num⟩
  · obtain ⟨hpos, hsmall | ⟨hsmall, hvalue⟩⟩ := factor_bound unit hunit
    · exact ⟨held_natCast hsmall, hpos⟩
    · refine ⟨?_, hpos⟩
      have hheld := held_of_lt hsmall (e := 18) (by decide) (by decide)
      rw [hvalue]
      exact_mod_cast hheld

end MemoryUnit

namespace MemoryQuantity

theorem limit_is : limit.Is (2 ^ 64) := by
  have heq : limit = .finite false (2 ^ 52) 12 := by decide +kernel
  exact ⟨2 ^ 52, 12, by decide, heq, by norm_num⟩

theorem parse_eq (h : Written text t unit) {u : ℕ} (hu : MemoryUnit.factorOf? unit = some u) :
    ∃ z, Scaled t.toRat u z ∧ parse text =
      if ¬ z.isIntegral || limit.numLt z then
        .error (.invalidQuantity text "not a whole number of bytes")
      else .ok ⟨z.toUInt64⟩ := by
  obtain ⟨x, hx, hnearest⟩ := DecimalText.toBinary64?_eq h.valid
  obtain ⟨hheld, hpos⟩ := MemoryUnit.factor_held hu
  refine ⟨x * ofInt u, scaled_mul hnearest hheld hpos, ?_⟩
  simp only [parse, h.split?_eq, String.ofList_toList, hu, hx]

/-- What is accepted is a whole number up to the limit, which itself comes down by one. -/
theorem parse_eq_ok_iff (h : Written text t unit) {u : ℕ} (hu : MemoryUnit.factorOf? unit = some u) :
    ∃ z, Scaled t.toRat u z ∧ ∀ b : UInt64, parse text = .ok ⟨b⟩ ↔
      ∃ n : ℕ, z.Is n ∧ n ≤ 2 ^ 64 ∧ b.toNat = min n (2 ^ 64 - 1) := by
  obtain ⟨z, hz, hparse⟩ := parse_eq h hu
  refine ⟨z, hz, fun b => ?_⟩
  rw [hparse]
  -- the product is a number, or it lies beyond the doubles
  rcases hz.is_or with ⟨v, hv⟩ | rfl
  · have hlimit := limit_is.numLt_iff hv
    have hread := toNat_toUInt64 hv
    constructor
    · intro hok
      split_ifs at hok with hbad
      obtain ⟨hintegral, hle⟩ : z.isIntegral = true ∧ limit.numLt z = false := by simpa using hbad
      obtain ⟨n, rfl⟩ := hv.isIntegral_iff.mp hintegral
      rw [← Bool.not_eq_true, hlimit, not_lt] at hle
      cases hok
      exact ⟨n, hv, by exact_mod_cast hle, by rwa [Nat.floor_natCast] at hread⟩
    · rintro ⟨n, hn, hle, hb⟩
      obtain rfl := hv.unique hn
      have hintegral : z.isIntegral = true := hv.isIntegral_iff.mpr ⟨n, rfl⟩
      have hnot : limit.numLt z = false := by
        rw [← Bool.not_eq_true, hlimit, not_lt]
        exact_mod_cast hle
      rw [Nat.floor_natCast, ← hb, UInt64.toNat_inj] at hread
      simp [hintegral, hnot, hread]
  · constructor
    · nofun
    · rintro ⟨n, ⟨m, e, -, heq, -⟩, -⟩
      cases heq

/-- The text is read as the number: it is accepted exactly if the number is a natural one of 64
bits, and then the result is this number. -/
def ReadsAs (text : String) (x : ℚ) : Prop := ∀ b : UInt64, parse text = .ok ⟨b⟩ ↔ x = b.toNat

/-- A text is read exactly if the rounded product is the same whole number as the exact one, or both
are none. -/
theorem readsAs_of_iff {x : ℚ} {z : Binary64}
    (hparse : ∀ b : UInt64, parse text = .ok ⟨b⟩ ↔
      ∃ n : ℕ, z.Is n ∧ n ≤ 2 ^ 64 ∧ b.toNat = min n (2 ^ 64 - 1))
    (hagree : ∀ n : ℕ, z.Is n ↔ x = n) (hx : x ≠ 2 ^ 64) : ReadsAs text x := by
  intro b
  rw [hparse]
  constructor
  · rintro ⟨n, hn, hle, hb⟩
    rw [hagree] at hn
    have hne : n ≠ 2 ^ 64 := by
      rintro rfl
      exact hx (by rw [hn]; norm_num)
    rw [hn, hb, min_eq_left (by omega)]
  · intro hb
    have hlt := b.toNat_lt
    exact ⟨b.toNat, (hagree _).mpr hb, by omega, (min_eq_left (by omega)).symm⟩

theorem readsAs_of_held (h : Written text t unit) {u : ℕ} (hu : MemoryUnit.factorOf? unit = some u)
    (hnumber : Held t.toRat) (hproduct : Held (t.toRat * u)) (hne : t.toRat * u ≠ 2 ^ 64) :
    ReadsAs text (t.toRat * u) := by
  obtain ⟨z, hz, hparse⟩ := parse_eq_ok_iff h hu
  have hvalue := hz.is_of_held hnumber hproduct
  exact readsAs_of_iff hparse (fun _ => hvalue.is_iff) hne

end MemoryQuantity

/-! ## Cpu -/

namespace CpuQuantity

/-- How far a number of thousandths may lie from a whole number: the double that is nearest to a
millionth. -/
def slack : ℚ := 4722366482869645 / 2 ^ 72

theorem tolerance_is : tolerance.Is slack := by
  have heq : tolerance = .finite false 4722366482869645 (-72) := by decide +kernel
  exact ⟨4722366482869645, -72, by decide, heq, by rw [slack, zpow_neg]; norm_num⟩

/-- The double lies so close to the whole number that it passes for it. -/
def Near (z : Binary64) (n : ℕ) : Prop := ∃ v, z.Is v ∧ |v - n| ≤ slack

theorem Near.eq_half_up {z : Binary64} {v : ℚ} {n : ℕ} (h : z.Is v) (hn : Near z n) :
    n = ⌊v + 1 / 2⌋₊ := by
  obtain ⟨v', hv', hnear⟩ := hn
  obtain rfl := h.unique hv'
  have hslack : slack < 1 / 2 := by norm_num [slack]
  rw [abs_le] at hnear
  rw [eq_comm, Nat.floor_eq_iff (by linarith [h.nonneg])]
  constructor <;> linarith

theorem near_iff_of_whole {z : Binary64} {k n : ℕ} (h : z.Is k) : Near z n ↔ (k : ℚ) = n := by
  constructor
  · intro hn
    rw [hn.eq_half_up h, floor_natCast_half]
  · intro heq
    exact ⟨k, h, by rw [heq, sub_self, abs_zero]; norm_num [slack]⟩

theorem parse_eq (h : Written text t "") : ∃ z, Scaled t.toRat 1000 z ∧ parse text =
    if tolerance.numLt (z - z.round).abs then .error (.invalidQuantity text "precision finer than 1m")
    else .ok ⟨z.round.toUInt64⟩ := by
  obtain ⟨x, hx, hnearest⟩ := DecimalText.toBinary64?_eq h.valid
  have hheld : Held (1000 : ℕ) := held_natCast (by norm_num)
  refine ⟨x * ofInt 1000, scaled_mul hnearest hheld (by norm_num), ?_⟩
  have hsplit : DecimalText.split? (trimBlanks text.toList) = some (t, []) := h.split?_eq
  simp only [parse, hsplit, hx]

/-- What is accepted is close to a whole number, or beyond the doubles; the result ends at the limit
of 64 bits. -/
theorem parse_eq_ok_iff (h : Written text t "") : ∃ z, Scaled t.toRat 1000 z ∧
    ∀ b : UInt64, parse text = .ok ⟨b⟩ ↔ (∃ n : ℕ, Near z n ∧ b.toNat = min n (2 ^ 64 - 1)) ∨
      z = .infinite false ∧ b.toNat = 2 ^ 64 - 1 := by
  obtain ⟨z, hz, hparse⟩ := parse_eq h
  refine ⟨z, hz, fun b => ?_⟩
  rw [hparse]
  -- a product beyond the doubles passes the test, since its distance from itself is no number
  rcases hz.is_or with ⟨v, hv⟩ | rfl
  · have hdistance := tolerance_is.numLt_iff (hv.abs_sub hv.round_is hv.held_half_up)
    have hread := toNat_toUInt64 hv.round_is
    rw [Nat.floor_natCast] at hread
    have hnear : Near z ⌊v + 1 / 2⌋₊ ↔ tolerance.numLt (z - z.round).abs = false := by
      rw [← Bool.not_eq_true, hdistance, not_lt]
      exact ⟨fun ⟨v', hv', hle⟩ => hv.unique hv' ▸ hle, fun hle => ⟨v, hv, hle⟩⟩
    constructor
    · intro hok
      split_ifs at hok with hfar
      cases hok
      exact .inl ⟨_, hnear.mpr (by simpa using hfar), hread⟩
    · rintro (⟨n, hn, hb⟩ | ⟨rfl, -⟩)
      · obtain rfl := hn.eq_half_up hv
        rw [← hb, UInt64.toNat_inj] at hread
        simp [hnear.mp hn, hread]
      · obtain ⟨m, e, -, heq, -⟩ := hv
        cases heq
  · have hoverflow : (if tolerance.numLt (infinite false - (infinite false).round).abs then
        (.error (.invalidQuantity text "precision finer than 1m") : Outcome CpuQuantity)
        else .ok ⟨(infinite false).round.toUInt64⟩) = .ok ⟨18446744073709551615⟩ := by
      rw [if_neg (by decide +kernel)]
      rfl
    rw [hoverflow]
    constructor
    · intro hok
      cases hok
      exact .inr ⟨rfl, rfl⟩
    · rintro (⟨n, ⟨v, ⟨m, e, -, heq, -⟩, -⟩, -⟩ | ⟨-, hb⟩)
      · cases heq
      · have hlast : b = 18446744073709551615 := UInt64.toNat_inj.mp hb
        rw [hlast]

/-- The text is read as the number: it is accepted exactly if the number is a natural one of 64
bits, and then the result is this number. -/
def ReadsAs (text : String) (x : ℚ) : Prop := ∀ b : UInt64, parse text = .ok ⟨b⟩ ↔ x = b.toNat

/-- A text is read exactly if the rounded product passes for the whole number that the exact one is,
or for none if that is none. -/
theorem readsAs_of_iff {z : Binary64} (hz : Scaled t.toRat 1000 z)
    (hparse : ∀ b : UInt64, parse text = .ok ⟨b⟩ ↔
      (∃ n : ℕ, Near z n ∧ b.toNat = min n (2 ^ 64 - 1)) ∨ z = .infinite false ∧ b.toNat = 2 ^ 64 - 1)
    (hagree : ∀ n : ℕ, Near z n ↔ t.toRat * 1000 = n) (hlt : t.toRat * 1000 < 2 ^ 64) :
    ReadsAs text (t.toRat * 1000) := by
  obtain ⟨v, hv, -⟩ := hz.error t.toRat_nonneg (by norm_num) (by norm_num) (by exact_mod_cast hlt.le)
  intro b
  rw [hparse]
  constructor
  · rintro (⟨n, hn, hb⟩ | ⟨rfl, -⟩)
    · rw [hagree] at hn
      rw [hn] at hlt
      have hlt : n < 2 ^ 64 := by exact_mod_cast hlt
      rw [hn, hb, min_eq_left (by omega)]
    · obtain ⟨m, e, -, heq, -⟩ := hv
      cases heq
  · intro hb
    have hlt := b.toNat_lt
    exact .inl ⟨b.toNat, (hagree _).mpr hb, (min_eq_left (by omega)).symm⟩

/-- Eight places after the point are read exactly up to four million cores. -/
theorem readsAs_of_places (h : Written text t "") {k : ℕ} (hplaces : t.toRat * 10 ^ 8 = k)
    (hsmall : t.toRat * 1000 ≤ 2 ^ 32) : ReadsAs text (t.toRat * 1000) := by
  obtain ⟨z, hz, hparse⟩ := parse_eq_ok_iff h
  refine readsAs_of_iff hz hparse (fun n => ?_) (by linarith)
  obtain ⟨v, hv, herror⟩ :=
    hz.error t.toRat_nonneg (by norm_num) (by norm_num) (by push_cast; linarith)
  rw [Nat.cast_ofNat] at herror
  have hslack : |v - t.toRat * 1000| ≤ slack := by
    refine herror.trans ?_
    calc t.toRat * 1000 * (1 / 2 ^ 52 + 1 / 2 ^ 106) + 1 / 2 ^ 30
        ≤ 2 ^ 32 * (1 / 2 ^ 52 + 1 / 2 ^ 106) + 1 / 2 ^ 30 := by gcongr
      _ ≤ slack := by norm_num [slack]
  constructor
  · rintro ⟨v', hv', hnear⟩
    obtain rfl := hv.unique hv'
    -- two numbers of five places that lie so close together are the same
    have hclose : |t.toRat * 1000 - n| < 1 / 100000 := by
      have htriangle := abs_sub_le (t.toRat * 1000) v n
      have htwice : slack + slack < 1 / 100000 := by norm_num [slack]
      rw [abs_sub_comm] at hslack
      linarith
    obtain ⟨d, hd⟩ : ∃ d : ℤ, (d : ℚ) = (t.toRat * 1000 - n) * 100000 := by
      refine ⟨k - n * 100000, ?_⟩
      push_cast
      rw [← hplaces]
      ring
    have hless : |(d : ℚ)| < 1 := by
      rw [hd, abs_mul, abs_of_pos (by norm_num : (0 : ℚ) < 100000)]
      linarith
    have hzero : d = 0 := Int.abs_lt_one_iff.mp (by exact_mod_cast hless)
    rw [hzero, Int.cast_zero] at hd
    linarith
  · intro hx
    exact ⟨v, hv, hx ▸ hslack⟩

/-! ### Thousandths -/

/-- Thousandths are read without a double, but with no point. -/
theorem parse_millis_eq_ok_iff (h : Written text t "m") (b : UInt64) :
    parse text = .ok ⟨b⟩ ↔ t.fraction = none ∧ t.toRat = b.toNat := by
  have hsplit : DecimalText.split? (trimBlanks text.toList) = some (t, ['m']) := h.split?_eq
  rw [← DecimalText.toNat64?_eq_some_iff h.valid]
  simp only [parse, hsplit]
  cases t.toNat64? <;> simp

end CpuQuantity

/-- For every written quantity: what is accepted and what is read, in terms of the rounded product.
It is the number that is written if rounding makes no whole number and unmakes none and the number
is not too large. -/
theorem parse_written (h : Written text t unit) :
    (∀ u, MemoryUnit.factorOf? unit = some u → ∃ z, Scaled t.toRat u z ∧
      (∀ b : UInt64, MemoryQuantity.parse text = .ok ⟨b⟩ ↔
        ∃ n : ℕ, z.Is n ∧ n ≤ 2 ^ 64 ∧ b.toNat = min n (2 ^ 64 - 1)) ∧
      ((∀ n : ℕ, z.Is n ↔ t.toRat * u = n) → t.toRat * u ≠ 2 ^ 64 →
        MemoryQuantity.ReadsAs text (t.toRat * u))) ∧
    (unit = "" → ∃ z, Scaled t.toRat 1000 z ∧
      (∀ b : UInt64, CpuQuantity.parse text = .ok ⟨b⟩ ↔
        (∃ n : ℕ, CpuQuantity.Near z n ∧ b.toNat = min n (2 ^ 64 - 1)) ∨
          z = .infinite false ∧ b.toNat = 2 ^ 64 - 1) ∧
      ((∀ n : ℕ, CpuQuantity.Near z n ↔ t.toRat * 1000 = n) → t.toRat * 1000 < 2 ^ 64 →
        CpuQuantity.ReadsAs text (t.toRat * 1000))) ∧
    (unit = "m" →
      (∀ b : UInt64, CpuQuantity.parse text = .ok ⟨b⟩ ↔ t.fraction = none ∧ t.toRat = b.toNat) ∧
      (t.fraction = none ∨ (∀ n : ℕ, t.toRat ≠ n) → CpuQuantity.ReadsAs text t.toRat)) := by
  refine ⟨fun u hu => ?_, ?_, ?_⟩
  · obtain ⟨z, hz, hparse⟩ := MemoryQuantity.parse_eq_ok_iff h hu
    exact ⟨z, hz, hparse, MemoryQuantity.readsAs_of_iff hparse⟩
  · rintro rfl
    obtain ⟨z, hz, hparse⟩ := CpuQuantity.parse_eq_ok_iff h
    exact ⟨z, hz, hparse, CpuQuantity.readsAs_of_iff hz hparse⟩
  · rintro rfl
    refine ⟨CpuQuantity.parse_millis_eq_ok_iff h, fun hfraction b => ?_⟩
    rw [CpuQuantity.parse_millis_eq_ok_iff h, and_iff_right_iff_imp]
    exact fun hb => hfraction.resolve_right fun hnone => hnone _ hb

theorem written_half_more : Written "1.5Gi" ⟨['1'], some ['5']⟩ "Gi" :=
  ⟨⟨[], [], by decide, List.all_eq_true.mp rfl⟩, by decide, List.all_eq_true.mp (by decide)⟩

theorem written_quarter : Written " 0.25 " ⟨['0'], some ['2', '5']⟩ "" :=
  ⟨⟨[' '], [' '], by decide, List.all_eq_true.mp (by decide)⟩, by decide, List.all_eq_true.mp rfl⟩

theorem written_millis : Written "500m" ⟨['5', '0', '0'], none⟩ "m" :=
  ⟨⟨[], [], by decide, List.all_eq_true.mp rfl⟩, by decide, List.all_eq_true.mp (by decide)⟩

theorem parse_written_units : MemoryQuantity.ReadsAs "1.5Gi" (3 / 2 * 2 ^ 30) ∧
    CpuQuantity.ReadsAs " 0.25 " 250 ∧ CpuQuantity.ReadsAs "500m" 500 := by
  refine ⟨?_, ?_, ?_⟩
  · obtain ⟨z, hz, -, hread⟩ := (parse_written written_half_more).1 (2 ^ 30) (by decide)
    have hnumber : DecimalText.toRat ⟨['1'], some ['5']⟩ = 3 / 2 := by decide +kernel
    have hheld : Held (3 / 2) := ⟨3 * 2 ^ 51, -52, by decide, by norm_num⟩
    have hproduct : Held (3 / 2 * (2 ^ 30 : ℕ)) := by
      convert held_natCast (n := 3 * 2 ^ 29) (by decide) using 1
      norm_num
    rw [hnumber] at hz hread
    have hvalue := hz.is_of_held hheld hproduct
    exact_mod_cast hread (fun _ => hvalue.is_iff) (by norm_num)
  · obtain ⟨z, hz, -, hread⟩ := (parse_written written_quarter).2.1 rfl
    have hnumber : DecimalText.toRat ⟨['0'], some ['2', '5']⟩ = 1 / 4 := by decide +kernel
    have hheld : Held (1 / 4) := ⟨2 ^ 52, -54, by decide, by norm_num⟩
    have hvalue : (1 / 4 * 1000 : ℚ) = (250 : ℕ) := by norm_num
    rw [hnumber] at hz hread
    rw [hvalue] at hread
    have hz : z.Is (250 : ℕ) := hvalue ▸ hz.is_of_held hheld (by
      rw [Nat.cast_ofNat, hvalue]
      exact held_natCast (by decide))
    exact_mod_cast hread (fun _ => CpuQuantity.near_iff_of_whole hz) (by norm_num)
  · have hread := ((parse_written written_millis).2.2 rfl).2 (.inl rfl)
    have hnumber : DecimalText.toRat ⟨['5', '0', '0'], none⟩ = 500 := by decide +kernel
    rwa [hnumber] at hread

/-- A million and a thousand bytes are a whole number of bytes, but the double that is nearest to
the number lies below, and its product is none. -/
theorem million_not_readsAs :
    Written "1.001M" ⟨['1'], some ['0', '0', '1']⟩ "M" ∧ MemoryUnit.factorOf? "M" = some 1000000 ∧
      DecimalText.toRat ⟨['1'], some ['0', '0', '1']⟩ * 1000000 = 1001000 ∧
      ¬ MemoryQuantity.ReadsAs "1.001M" 1001000 := by
  refine ⟨⟨⟨[], [], by decide, List.all_eq_true.mp rfl⟩, by decide, List.all_eq_true.mp (by decide)⟩,
    by decide, ?_, fun hread => ?_⟩
  · decide +kernel
  · have hfails : (MemoryQuantity.parse "1.001M").toOption = none := by decide +kernel
    rw [(hread 1001000).mpr rfl] at hfails
    cases hfails

end Workflow
