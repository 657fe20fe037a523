import Workflow.Proofs.Number.Nearest
import Workflow.Proofs.Number.Text
import Workflow.Resource.Quantity

/-!
# Written quantities

A quantity is written with digits, perhaps a point and more digits, and perhaps a unit of letters;
blanks around it do not count. Such a text is split into just these parts.
-/
namespace Workflow

/-! ## Characters -/

theorem toNat_of_isDigit {c : Char} (h : c.isDigit = true) : 48 ≤ c.toNat ∧ c.toNat ≤ 57 := by
  simpa [Char.isDigit, UInt32.le_iff_toNat_le] using h

theorem toNat_of_isAlpha {c : Char} (h : c.isAlpha = true) :
    65 ≤ c.toNat ∧ c.toNat ≤ 90 ∨ 97 ≤ c.toNat ∧ c.toNat ≤ 122 := by
  have h : (decide (c.val ≥ 65 ∧ c.val ≤ 90) ||
      (decide (c.val ≥ 97) && decide (c.val ≤ 122))) = true := h
  simpa [UInt32.le_iff_toNat_le] using h

theorem isDecimalDigit_of_isDigit {c : Char} (h : c.isDigit = true) : isDecimalDigit c = true := by
  obtain ⟨hlow, hhigh⟩ := toNat_of_isDigit h
  exact List.any_eq_true.mpr ⟨48, by decide, by simp; omega⟩

theorem le_of_mem_digitZeros {start : Nat} (h : start ∈ digitZeros) : start = 48 ∨ 128 ≤ start := by
  revert start
  decide

/-- A letter of the units is no digit of any script. -/
theorem isDecimalDigit_of_isAlpha {c : Char} (h : c.isAlpha = true) : isDecimalDigit c = false := by
  have hrange := toNat_of_isAlpha h
  refine List.any_eq_false.mpr fun start hstart => ?_
  have hzero := le_of_mem_digitZeros hstart
  simp only [Bool.and_eq_true, decide_eq_true_eq]
  omega

theorem isBlank_eq_false {c : Char} (h : 46 ≤ c.toNat ∧ c.toNat ≤ 122) : isBlank c = false := by
  simp only [isBlank, Bool.or_eq_false_iff, Bool.and_eq_false_iff, decide_eq_false_iff_not,
    beq_eq_false_iff_ne]
  omega

theorem dropWhile_isBlank {before rest : List Char} (hbefore : ∀ c ∈ before, isBlank c = true)
    (hrest : ∀ c ∈ rest.head?, isBlank c = false) : (before ++ rest).dropWhile isBlank = rest := by
  rw [List.dropWhile_append_of_pos hbefore]
  cases rest with
  | nil => rfl
  | cons c rest => simp [hrest c rfl]

theorem trimBlanks_append {before body after : List Char} (hbefore : ∀ c ∈ before, isBlank c = true)
    (hafter : ∀ c ∈ after, isBlank c = true) (hne : body ≠ [])
    (hbody : ∀ c ∈ body, isBlank c = false) : trimBlanks (before ++ body ++ after) = body := by
  have hleft : trimBlanksLeft (before ++ body ++ after) = body ++ after := by
    rw [trimBlanksLeft, List.append_assoc]
    refine dropWhile_isBlank hbefore fun c hc => ?_
    rw [List.head?_append_of_ne_nil _ hne] at hc
    exact hbody c (List.mem_of_mem_head? hc)
  rw [trimBlanks, hleft, trimBlanksRight, List.reverse_append, dropWhile_isBlank,
    List.reverse_reverse]
  · exact fun c hc => hafter c (List.mem_reverse.mp hc)
  · exact fun c hc => hbody c (List.mem_reverse.mp (List.mem_of_mem_head? hc))

namespace DecimalText

/-- The characters of the number. -/
def chars (t : DecimalText) : List Char := t.whole ++ t.fraction.elim [] ('.' :: ·)

def toRat (t : DecimalText) : ℚ :=
  Nat.ofDigitChars 10 t.whole 0 +
    t.fraction.elim 0 fun ds => (Nat.ofDigitChars 10 ds 0 : ℚ) / 10 ^ ds.length

/-- There are digits before the point, and after it if there is one. -/
structure Valid (t : DecimalText) : Prop where
  whole : AllDigits t.whole ∧ t.whole ≠ []
  fraction : ∀ ds ∈ t.fraction, AllDigits ds ∧ ds ≠ []

variable {t : DecimalText}

theorem takeDigits {ds rest : List Char} (hds : AllDigits ds)
    (hrest : ∀ c ∈ rest.head?, isDecimalDigit c = false) :
    (ds ++ rest).takeWhile isDecimalDigit = ds ∧ (ds ++ rest).dropWhile isDecimalDigit = rest := by
  have hdigits : ∀ c ∈ ds, isDecimalDigit c = true := fun c hc => isDecimalDigit_of_isDigit (hds c hc)
  rw [List.takeWhile_append_of_pos hdigits, List.dropWhile_append_of_pos hdigits]
  cases rest with
  | nil => simp
  | cons c rest => simp [hrest c rfl]

theorem Valid.chars_range (h : t.Valid) : ∀ c ∈ t.chars, 46 ≤ c.toNat ∧ c.toNat ≤ 122 := by
  have hdigits {ds : List Char} (hds : AllDigits ds) : ∀ c ∈ ds, 46 ≤ c.toNat ∧ c.toNat ≤ 122 := by
    intro c hc
    have hrange := toNat_of_isDigit (hds c hc)
    omega
  refine List.forall_mem_append.mpr ⟨hdigits h.whole.1, ?_⟩
  cases hfraction : t.fraction with
  | none => exact List.forall_mem_nil _
  | some ds => exact List.forall_mem_cons.mpr ⟨by decide, hdigits (h.fraction ds hfraction).1⟩

theorem split?_chars (h : t.Valid) {unit : List Char} (hunit : ∀ c ∈ unit, c.isAlpha = true) :
    split? (t.chars ++ unit) = some (t, unit) := by
  have hhead : ∀ c ∈ unit.head?, isDecimalDigit c = false := fun c hc =>
    isDecimalDigit_of_isAlpha (hunit c (List.mem_of_mem_head? hc))
  obtain ⟨hwhole, hne⟩ := h.whole
  obtain ⟨whole, fraction⟩ := t
  cases fraction with
  | none =>
    obtain ⟨htake, hdrop⟩ := takeDigits hwhole hhead
    have hpoint : unit.head? ≠ some '.' := fun hc =>
      absurd (hunit _ (List.mem_of_mem_head? hc)) (by decide)
    rw [chars, Option.elim_none, List.append_nil, split?, htake, hdrop]
    cases unit with
    | nil => simp [hne]
    | cons c unit => simp_all
  | some ds =>
    obtain ⟨hds, hdsne⟩ := h.fraction ds rfl
    obtain ⟨htake, hdrop⟩ := takeDigits hds hhead
    obtain ⟨hfirst, hpoint⟩ := @takeDigits whole ('.' :: (ds ++ unit)) hwhole
      fun c hc => by cases hc; decide
    have hchars : chars ⟨whole, some ds⟩ ++ unit = whole ++ '.' :: (ds ++ unit) := by simp [chars]
    rw [hchars, split?, hfirst, hpoint]
    simp [hne, htake, hdrop, hdsne]

/-- The digits on both sides of the point are read as one number over a power of ten. -/
theorem toRat_eq (t : DecimalText) :
    t.toRat =
      decimalValue (t.whole ++ t.fraction.getD []) * 10 ^ (-((t.fraction.getD []).length : ℤ)) := by
  have hvalue (ds : List Char) : decimalValue ds = Nat.ofDigitChars 10 ds 0 := rfl
  rw [hvalue, ofDigitChars_append, zpow_neg, zpow_natCast]
  cases h : t.fraction with
  | none => simp [toRat, h]
  | some ds =>
    simp only [toRat, h, Option.elim_some, Option.getD_some]
    push_cast
    field_simp

theorem toRat_nonneg (t : DecimalText) : 0 ≤ t.toRat := by
  rw [toRat_eq]
  positivity

theorem toBinary64?_eq (h : t.Valid) :
    ∃ x, t.toBinary64? = some x ∧ Binary64.Nearest false t.toRat x := by
  have hdigits : (t.whole ++ t.fraction.getD []).all isAsciiDigit = true := by
    refine List.all_eq_true.mpr (List.forall_mem_append.mpr ⟨h.whole.1, ?_⟩)
    cases hfraction : t.fraction with
    | none => exact List.forall_mem_nil _
    | some ds => exact (h.fraction ds hfraction).1
  refine ⟨_, by rw [toBinary64?, if_pos hdigits], ?_⟩
  rw [toRat_eq]
  exact Binary64.nearest_ofDecimal ..

/-- A number of 64 bits is one without a point, and not too large. -/
theorem toNat64?_eq_some_iff (h : t.Valid) {n : UInt64} :
    t.toNat64? = some n ↔ t.fraction = none ∧ t.toRat = n.toNat := by
  have hwhole : t.whole.all isAsciiDigit = true := List.all_eq_true.mpr h.whole.1
  cases hfraction : t.fraction with
  | some ds => simp [toNat64?, hfraction]
  | none =>
    have hvalue : t.toRat = decimalValue t.whole := by
      rw [toRat_eq, hfraction]
      simp
    have hlt := n.toNat_lt
    simp only [toNat64?, hfraction, hwhole, Option.isSome_none, not_true, decide_false,
      Bool.or_self, Bool.false_eq_true, if_false, true_and, hvalue, Nat.cast_inj]
    change (if decimalValue t.whole < 2 ^ 64 then _ else _) = _ ↔ _
    split_ifs with hsmall
    · rw [Option.some.injEq, ← UInt64.toNat_inj, UInt64.toNat_ofNat', Nat.mod_eq_of_lt hsmall]
    · exact ⟨nofun, fun heq => absurd hlt (heq ▸ hsmall)⟩

end DecimalText

/-- The text is a decimal number with a unit, in blanks. -/
structure Written (text : String) (t : DecimalText) (unit : String) : Prop where
  chars : ∃ before after, text.toList = before ++ (t.chars ++ unit.toList) ++ after ∧
    ∀ c ∈ before ++ after, isBlank c = true
  valid : t.Valid
  letters : ∀ c ∈ unit.toList, c.isAlpha = true

instance (ds : List Char) : Decidable (AllDigits ds) :=
  decidable_of_iff (ds.all Char.isDigit = true) List.all_eq_true

instance (t : DecimalText) : Decidable t.Valid :=
  match t with
  | ⟨whole, none⟩ => decidable_of_iff (AllDigits whole ∧ whole ≠ []) ⟨fun h => ⟨h, nofun⟩, (·.whole)⟩
  | ⟨whole, some ds⟩ =>
    decidable_of_iff ((AllDigits whole ∧ whole ≠ []) ∧ AllDigits ds ∧ ds ≠ [])
      ⟨fun ⟨h, h'⟩ => ⟨h, fun _ heq => Option.some.inj heq ▸ h'⟩,
        fun h => ⟨h.whole, h.fraction ds rfl⟩⟩

namespace Written
variable {text unit : String} {t : DecimalText}

theorem split?_eq (h : Written text t unit) :
    DecimalText.split? (trimBlanks text.toList) = some (t, unit.toList) := by
  obtain ⟨before, after, htext, hblank⟩ := h.chars
  obtain ⟨hbefore, hafter⟩ := List.forall_mem_append.mp hblank
  have hbody : ∀ c ∈ t.chars ++ unit.toList, isBlank c = false := by
    refine List.forall_mem_append.mpr ⟨fun c hc => isBlank_eq_false (h.valid.chars_range c hc), ?_⟩
    intro c hc
    have hrange := toNat_of_isAlpha (h.letters c hc)
    exact isBlank_eq_false (by omega)
  rw [htext, trimBlanks_append hbefore hafter _ hbody, DecimalText.split?_chars h.valid h.letters]
  simp [DecimalText.chars, h.valid.whole.2]

end Written

end Workflow
