import Mathlib.Order.WithBot
import Workflow.Proofs.Number.Exact
import Workflow.Proofs.Schedule.Values

/-!
# Equality of scalars

Ints and floats are compared as doubles, so that an int counts as the double that is nearest to it.
The comparison is exact between scalars that need no rounding, among them all ints of up to 53 bits.
Every int that does need it equals a float which is another number. On numbers the comparison is an
equivalence nevertheless, since it compares what one function gives for either side.
-/
namespace Workflow

/-- A rational number or an infinity. -/
abbrev Extended := WithBot (WithTop ℚ)

namespace Extended

def ofRat (q : ℚ) : Extended := ((q : WithTop ℚ) : WithBot (WithTop ℚ))

variable {q r : ℚ}

theorem ofRat_inj : ofRat q = ofRat r ↔ q = r := by simp [ofRat]

@[simp] theorem ofRat_ne_bot : ofRat q ≠ ⊥ := nofun

@[simp] theorem ofRat_ne_top : ofRat q ≠ ⊤ := nofun

@[simp] theorem bot_ne_ofRat : ⊥ ≠ ofRat q := nofun

@[simp] theorem top_ne_ofRat : ⊤ ≠ ofRat q := nofun

end Extended

namespace Binary64

/-- The number that a double stands for. -/
def number? : Binary64 → Option Extended
  | .nan => none
  | .infinite negative => some (if negative then ⊥ else ⊤)
  | .finite negative m e => some (.ofRat (signedMantissa negative m * 2 ^ e))

variable {n : ℤ}

/-- Two doubles are compared at the smaller one of their exponents. -/
theorem align_eq_iff (x y e f : ℤ) :
    x * 2 ^ (e - min e f).toNat = y * 2 ^ (f - min e f).toNat ↔ (x : ℚ) * 2 ^ e = y * 2 ^ f := by
  have hunit : (2 : ℚ) ^ min e f ≠ 0 := by positivity
  rw [zpow_align (min_le_left e f), zpow_align (min_le_right e f), ← mul_assoc, ← mul_assoc,
    mul_left_inj' hunit]
  exact_mod_cast Iff.rfl

theorem numEq_finite_iff (s t : Bool) (m k : ℕ) (e f : ℤ) :
    (finite s m e).numEq (finite t k f) = true ↔
      (signedMantissa s m : ℚ) * 2 ^ e = signedMantissa t k * 2 ^ f := by
  rw [← align_eq_iff, numEq, beq_iff_eq, compare?, Option.some_inj, compare_eq_iff_eq]
  rfl

/-- Doubles are equal that stand for one number; not-a-number stands for none. -/
theorem numEq_iff (x y : Binary64) :
    x.numEq y = true ↔ ∃ v, x.number? = some v ∧ y.number? = some v := by
  cases x with
  | nan => simp [numEq, compare?, number?]
  | infinite s =>
    cases y with
    | nan => simp [numEq, compare?, number?]
    | infinite t => cases s <;> cases t <;> simp [numEq, compare?, number?]
    | finite t k f => cases s <;> simp [numEq, compare?, number?]
  | finite s m e =>
    cases y with
    | nan => simp [numEq, compare?, number?]
    | infinite t => cases t <;> simp [numEq, compare?, number?]
    | finite t k f =>
      rw [numEq_finite_iff, ← Extended.ofRat_inj]
      constructor
      · exact fun h => ⟨_, rfl, congrArg some h.symm⟩
      · rintro ⟨v, hx, hy⟩
        exact Option.some.inj (hx.trans hy.symm)

/-! ## Ints as doubles -/

theorem nearest_ofInt (n : ℤ) : Nearest (n < 0) |(n : ℚ)| (ofInt n) := by
  have h := nearest_ofQuotient (n < 0) n.natAbs Nat.one_pos
  rwa [Nat.cast_one, div_one, Nat.cast_natAbs, Int.cast_abs] at h

theorem number?_ofInt_ne_none (n : ℤ) : (ofInt n).number? ≠ none := by
  have h := nearest_ofInt n
  generalize ofInt n = y at h
  cases h <;> exact Option.some_ne_none _

theorem signedMantissa_eq (n : ℤ) {x : ℕ} {u : ℚ} (h : x * u = |(n : ℚ)|) :
    signedMantissa (n < 0) x * u = n := by
  rcases lt_or_ge n 0 with hn | hn
  · rw [abs_of_neg (by exact_mod_cast hn)] at h
    simp [signedMantissa, hn, h]
  · rw [abs_of_nonneg (by exact_mod_cast hn)] at h
    simp [signedMantissa, hn.not_gt, h]

/-- The double that is nearest to an int is the int itself where the int has the form of one. -/
theorem number?_ofInt_eq_iff : (ofInt n).number? = some (.ofRat n) ↔ Held |(n : ℚ)| := by
  constructor
  · intro h
    have hproper := proper_ofInt n
    generalize ofInt n = y at h hproper
    cases y with
    | nan => cases h
    | infinite s => cases s <;> cases h
    | finite s m e =>
      have hvalue : (signedMantissa s m * 2 ^ e : ℚ) = n :=
        Extended.ofRat_inj.mp (Option.some.inj h)
      have hpos : (0 : ℚ) < 2 ^ e := by positivity
      refine ⟨m, e, hproper, ?_⟩
      rw [← hvalue, abs_mul, abs_of_pos hpos]
      cases s <;> simp [signedMantissa]
  · intro h
    obtain ⟨m, e, -, hy, hvalue⟩ := (nearest_ofInt n).of_held h
    rw [hy, number?, signedMantissa_eq n hvalue]

/-- Up to 53 bits an int has the form of a double, and so has the power of two that follows. -/
theorem held_of_natAbs_le (h : n.natAbs ≤ 2 ^ 53) : Held |(n : ℚ)| := by
  rw [← Int.cast_abs, Int.abs_eq_natAbs, Int.cast_natCast]
  rcases Nat.lt_or_ge n.natAbs (2 ^ 53) with hlt | hge
  · exact held_natCast hlt
  · have heq : n.natAbs = 2 ^ 53 := by omega
    exact ⟨2 ^ 52, 1, by decide, by rw [heq]; norm_num⟩

end Binary64

namespace Scalar
open Binary64

variable {a b : Scalar}

/-- The number that a scalar is. Truth values and texts are none. -/
def number? : Scalar → Option Extended
  | int n => some (.ofRat n.toInt)
  | float x => x.number?
  | _ => none

/-- The scalars are the same truth value, the same text or the same number. -/
def Same : Scalar → Scalar → Prop
  | bool p, bool q => p = q
  | text s, text t => s = t
  | a, b => ∃ v, a.number? = some v ∧ b.number? = some v

/-- The scalar with the nearest double in place of an int. -/
def rounded : Scalar → Scalar
  | int n => float (ofInt n.toInt)
  | s => s

/-- Nothing is rounded: an int has the form of a double. -/
def Exact : Scalar → Prop
  | int n => Held |(n.toInt : ℚ)|
  | _ => True

/-- Scalars are equal that are the same after ints are rounded. -/
theorem looselyEquals_iff (a b : Scalar) : a.looselyEquals b = true ↔ Same a.rounded b.rounded := by
  cases a <;> cases b <;>
    simp [looselyEquals, toBinary64?, rounded, Same, number?, numEq_iff]

theorem Exact.number?_rounded (h : a.Exact) : a.rounded.number? = a.number? := by
  cases a with
  | int n => exact number?_ofInt_eq_iff.mpr h
  | _ => rfl

/-- Rounding changes nothing for exact scalars. -/
theorem same_rounded_iff (ha : a.Exact) (hb : b.Exact) : Same a.rounded b.rounded ↔ Same a b := by
  have ha := ha.number?_rounded
  have hb := hb.number?_rounded
  cases a <;> cases b <;> simp_all [Same, rounded]

theorem number?_rounded_ne_none (h : a.number? ≠ none) : a.rounded.number? ≠ none := by
  cases a with
  | int n => exact number?_ofInt_ne_none _
  | _ => exact h

theorem same_iff_of_number (ha : a.number? ≠ none) : Same a b ↔ a.number? = b.number? := by
  obtain ⟨v, hv⟩ := Option.ne_none_iff_exists'.mp ha
  have hsame : Same a b ↔ ∃ v, a.number? = some v ∧ b.number? = some v := by
    cases a with
    | bool p => cases hv
    | text s => cases hv
    | _ => rfl
  rw [hsame, hv]
  simp [eq_comm]

/-- Numbers are equal where rounding gives one number for both. -/
theorem looselyEquals_iff_of_number (ha : a.number? ≠ none) :
    a.looselyEquals b = true ↔ a.rounded.number? = b.rounded.number? := by
  rw [looselyEquals_iff, same_iff_of_number (number?_rounded_ne_none ha)]

theorem equivalence_looselyEquals : Equivalence
    fun a b : {s : Scalar // s.number? ≠ none} => a.1.looselyEquals b.1 = true := by
  have hiff (a b : {s : Scalar // s.number? ≠ none}) : a.1.looselyEquals b.1 = true ↔
      a.1.rounded.number? = b.1.rounded.number? := looselyEquals_iff_of_number a.2
  simp only [hiff]
  exact ⟨fun _ => rfl, Eq.symm, Eq.trans⟩

/-- An int that is rounded equals its double, which is another number. -/
theorem exists_equal_not_same (h : ¬ a.Exact) : ∃ b, a.looselyEquals b = true ∧ ¬ Same a b := by
  cases a with
  | int n =>
    obtain ⟨v, hv⟩ := Option.ne_none_iff_exists'.mp (number?_ofInt_ne_none n.toInt)
    refine ⟨float (ofInt n.toInt), (looselyEquals_iff _ _).mpr ⟨v, hv, hv⟩, ?_⟩
    rintro ⟨w, hw, hw'⟩
    exact h (number?_ofInt_eq_iff.mp (hw'.trans hw.symm))
  | _ => exact absurd trivial h

theorem same_int_iff (n k : Int64) : Same (int n) (int k) ↔ n = k := by
  have hn : (int n).number? ≠ none := Option.some_ne_none _
  rw [same_iff_of_number hn, number?, number?, Option.some_inj, Extended.ofRat_inj, Int.cast_inj,
    Int64.toInt_inj]

end Scalar

open Scalar in
/-- Scalars are equal that are the same, up to the rounding of ints to the nearest doubles. So the
comparison is exact for scalars that need no rounding; an int that does equals a float that is
another number. Equality of numbers is an equivalence. A condition on an int holds only for ints
with the nearest double of the expected one, and if neither is rounded, for that one only. -/
theorem looselyEquals_exact (a b : Scalar) :
    (a.looselyEquals b = true ↔ Same a.rounded b.rounded) ∧
    (a.Exact → b.Exact → (a.looselyEquals b = true ↔ Same a b)) ∧
    (¬ a.Exact → ∃ x, a.looselyEquals x = true ∧ ¬ Same a x) ∧
    (∀ n : Int64, (n.toInt.natAbs ≤ 2 ^ 53 → (int n).Exact) ∧ ∃ y, (int n).rounded = float y ∧
      Binary64.Nearest (n.toInt < 0) |(n.toInt : ℚ)| y) ∧
    (Equivalence fun x y : {s : Scalar // s.number? ≠ none} => x.1.looselyEquals y.1 = true) ∧
    ∀ (store : ArtifactStore) (clauses : List ConditionClause),
      clausesHold store clauses = .ok true → ∀ c ∈ clauses, ∀ n k : Int64,
      store.get? c.gate.artifact = some (.scalar (int n)) → c.equals = int k →
      Same (int n).rounded (int k).rounded ∧ ((int n).Exact → (int k).Exact → n = k) := by
  refine ⟨looselyEquals_iff a b, fun ha hb => ?_, exists_equal_not_same, fun n =>
    ⟨Binary64.held_of_natAbs_le, _, rfl, Binary64.nearest_ofInt _⟩, equivalence_looselyEquals, ?_⟩
  · rw [looselyEquals_iff, same_rounded_iff ha hb]
  · intro store clauses hholds c hc n k hgate hequals
    obtain ⟨v, hv, heq⟩ := clausesHold_eq_ok_true_iff.mp hholds c hc
    rw [hgate] at hv
    cases hv
    rw [hequals, looselyEquals_iff] at heq
    exact ⟨heq, fun hn hk => (same_int_iff n k).mp ((same_rounded_iff hn hk).mp heq)⟩

/-- The store of a run with one parameter, and a condition on it. -/
def paramStore (s : Scalar) : ArtifactStore := ArtifactStore.empty.insert (.param "n") (.scalar s)

def paramClause (expected : Scalar) : ConditionClause := ⟨.param "n", expected⟩

theorem looselyEquals_exact_three :
    (Scalar.int 3).looselyEquals (.float (.ofDecimal false 3 0)) = true ∧
      Scalar.Same (.int 3) (.float (.ofDecimal false 3 0)) ∧
      clausesHold (paramStore (.int (2 ^ 53))) [paramClause (.int (2 ^ 53))] = .ok true ∧
      ∀ n : Int64, clausesHold (paramStore (.int n)) [paramClause (.int (2 ^ 53))] = .ok true →
        n.toInt.natAbs ≤ 2 ^ 53 → n = 2 ^ 53 := by
  obtain ⟨-, hsame, -, hints, -, hclause⟩ :=
    looselyEquals_exact (.int 3) (.float (.ofDecimal false 3 0))
  have hfloat : (Scalar.float (.ofDecimal false 3 0)).Exact := trivial
  have hthree : (Scalar.int 3).looselyEquals (.float (.ofDecimal false 3 0)) = true := by
    decide +kernel
  refine ⟨hthree, (hsame ((hints 3).1 (by decide)) hfloat).mp hthree, by decide +kernel,
    fun n hholds hn => ?_⟩
  exact (hclause _ _ hholds _ List.mem_cons_self n (2 ^ 53) rfl rfl).2 ((hints n).1 hn)
    ((hints _).1 (by decide))

/-- The two ints after 53 bits share their nearest double: they are equal, and the condition that
expects one of them holds for the other. -/
theorem looselyEquals_after_53_bits :
    (Scalar.int (2 ^ 53)).looselyEquals (.int (2 ^ 53 + 1)) = true ∧
      ¬ Scalar.Same (.int (2 ^ 53)) (.int (2 ^ 53 + 1)) ∧
      clausesHold (paramStore (.int (2 ^ 53 + 1))) [paramClause (.int (2 ^ 53))] = .ok true := by
  refine ⟨by decide +kernel, fun h => ?_, by decide +kernel⟩
  exact absurd ((Scalar.same_int_iff _ _).mp h) (by decide)

end Workflow
