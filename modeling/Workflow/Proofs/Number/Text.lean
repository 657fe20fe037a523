import Mathlib.Data.List.TakeWhile
import Workflow.Number.Layout
import Workflow.Proofs.Number.Shortest

/-!
# Written doubles tell doubles apart

A decimal is written around its point or with an exponent, and the number can be read off either
form. With the shortest digits this makes the written form of a finite double its own.
-/
namespace Workflow

/-! ## Digits -/

def AllDigits (ds : List Char) : Prop := ∀ c ∈ ds, c.isDigit = true

theorem AllDigits.append {ds es : List Char} (h : AllDigits ds) (h' : AllDigits es) :
    AllDigits (ds ++ es) := by
  intro c hc
  exact (List.mem_append.mp hc).elim (h c) (h' c)

theorem AllDigits.not_mem {ds : List Char} (h : AllDigits ds) {c : Char}
    (hc : c.isDigit = false) : c ∉ ds := by
  intro hmem
  simp [h c hmem] at hc

theorem allDigits_replicate (n : Nat) : AllDigits (List.replicate n '0') := by
  intro c hc
  rw [List.eq_of_mem_replicate hc]
  rfl

theorem allDigits_toDigits (n : Nat) : AllDigits (Nat.toDigits 10 n) :=
  fun _ hc => Nat.isDigit_of_mem_toDigits (by decide) (by decide) hc

theorem ofDigitChars_append (ds es : List Char) :
    Nat.ofDigitChars 10 (ds ++ es) 0 =
      10 ^ es.length * Nat.ofDigitChars 10 ds 0 + Nat.ofDigitChars 10 es 0 := by
  rw [Nat.ofDigitChars_append, Nat.ofDigitChars_eq_ofDigitChars_zero]

@[simp] theorem ofDigitChars_zeros (n : Nat) :
    Nat.ofDigitChars 10 (List.replicate n '0') 0 = 0 := by
  rw [Nat.ofDigitChars_replicate_zero, Nat.mul_zero]

/-- The number of an optional sign and digits. -/
def signedValue : List Char → Int
  | '-' :: ds => -Nat.ofDigitChars 10 ds 0
  | '+' :: ds => Nat.ofDigitChars 10 ds 0
  | ds => Nat.ofDigitChars 10 ds 0

/-! ## Numerals -/

/-- The parts of a written number that has no sign. -/
structure Numeral where
  whole : List Char
  fraction : List Char
  /-- What follows the letter of the exponent. -/
  power : Option (List Char)

namespace Numeral

def mantissa (n : Numeral) : List Char :=
  n.whole ++ if n.fraction = [] then [] else '.' :: n.fraction

def text (n : Numeral) : List Char := n.mantissa ++ n.power.elim [] ('e' :: ·)

def value (n : Numeral) : ℚ :=
  Nat.ofDigitChars 10 (n.whole ++ n.fraction) 0 / 10 ^ n.fraction.length *
    10 ^ (n.power.elim 0 signedValue)

structure Valid (n : Numeral) : Prop where
  whole_ne : n.whole ≠ []
  whole : AllDigits n.whole
  fraction : AllDigits n.fraction
  power : ∀ x ∈ n.power, ∀ c ∈ x, c.isDigit = true ∨ c = '+' ∨ c = '-'

def ofText (cs : List Char) : Numeral where
  whole := (cs.takeWhile (· ≠ 'e')).takeWhile (· ≠ '.')
  fraction := ((cs.takeWhile (· ≠ 'e')).dropWhile (· ≠ '.')).tail
  power := if 'e' ∈ cs then some (cs.dropWhile (· ≠ 'e')).tail else none

theorem span_ne {c : Char} {cs : List Char} (h : c ∉ cs) (rest : List Char) :
    (cs ++ c :: rest).takeWhile (· ≠ c) = cs ∧ (cs ++ c :: rest).dropWhile (· ≠ c) = c :: rest := by
  have hne : ∀ d ∈ cs, decide (d ≠ c) = true := fun d hd =>
    decide_eq_true (ne_of_mem_of_not_mem hd h)
  rw [List.takeWhile_append_of_pos hne, List.dropWhile_append_of_pos hne]
  simp

theorem takeWhile_ne {c : Char} {cs : List Char} (h : c ∉ cs) :
    cs.takeWhile (· ≠ c) = cs ∧ cs.dropWhile (· ≠ c) = [] := by
  have hne : ∀ d ∈ cs, decide (d ≠ c) = true := fun d hd =>
    decide_eq_true (ne_of_mem_of_not_mem hd h)
  exact ⟨List.takeWhile_eq_self_iff.mpr hne, List.dropWhile_eq_nil_iff.mpr hne⟩

theorem Valid.text_ne {n : Numeral} (h : n.Valid) : n.text ≠ [] := by
  simp [text, mantissa, h.whole_ne]

theorem Valid.mantissa_parts {n : Numeral} (h : n.Valid) :
    n.mantissa.takeWhile (· ≠ '.') = n.whole ∧
      (n.mantissa.dropWhile (· ≠ '.')).tail = n.fraction := by
  have hpoint : '.' ∉ n.whole := h.whole.not_mem rfl
  unfold mantissa
  split_ifs with hnone
  · rw [List.append_nil, (takeWhile_ne hpoint).1, (takeWhile_ne hpoint).2, hnone]
    exact ⟨rfl, rfl⟩
  · rw [(span_ne hpoint _).1, (span_ne hpoint _).2]
    exact ⟨rfl, rfl⟩

theorem Valid.ofText_text {n : Numeral} (h : n.Valid) : ofText n.text = n := by
  obtain ⟨hwhole, hfraction⟩ := h.mantissa_parts
  have hletter : 'e' ∉ n.mantissa := by
    have hwhole := h.whole.not_mem (c := 'e') rfl
    have hfraction := h.fraction.not_mem (c := 'e') rfl
    unfold mantissa
    split_ifs <;> simp [hwhole, hfraction]
  cases hpower : n.power with
  | none =>
    have htext : n.text = n.mantissa := by simp [text, hpower]
    rw [htext, ofText, if_neg hletter, (takeWhile_ne hletter).1, hwhole, hfraction, ← hpower]
  | some x =>
    have htext : n.text = n.mantissa ++ 'e' :: x := by simp [text, hpower]
    rw [htext, ofText, if_pos (by simp), (span_ne hletter x).1, (span_ne hletter x).2, hwhole,
      hfraction, List.tail_cons, ← hpower]

theorem text_injective {n n' : Numeral} (h : n.Valid) (h' : n'.Valid) (heq : n.text = n'.text) :
    n = n' := by
  rw [← h.ofText_text, heq, h'.ofText_text]

theorem point_mem_text {n : Numeral} (h : n.fraction ≠ []) : '.' ∈ n.text := by
  simp [text, mantissa, h]

theorem letter_mem_text {n : Numeral} {x : List Char} (h : n.power = some x) : 'e' ∈ n.text := by
  simp [text, h]

/-! ## The two forms -/

def positional (keepsPoint : Bool) (ds : List Char) (point : Int) : Numeral :=
  if point ≤ 0 then ⟨['0'], List.replicate (-point).toNat '0' ++ ds, none⟩
  else if ds.length ≤ point then
    ⟨ds ++ List.replicate (point - ds.length).toNat '0', if keepsPoint then ['0'] else [], none⟩
  else ⟨ds.take point.toNat, ds.drop point.toNat, none⟩

def scientific (plusSign : Bool) (ds : List Char) (point : Int) : Numeral :=
  ⟨ds.take 1, ds.drop 1,
    some ((if plusSign && 0 ≤ point - 1 then ['+'] else []) ++ (toString (point - 1)).toList)⟩

theorem text_positional {keepsPoint : Bool} {ds : List Char} (hne : ds ≠ []) (point : Int) :
    (positional keepsPoint ds point).text =
      (Workflow.positional keepsPoint (String.ofList ds) point).toList := by
  have hlength : ((String.ofList ds).length : Int) = ds.length := by simp
  unfold positional Workflow.positional zeros
  simp only [hlength, String.toList_ofList]
  split_ifs with hlow hhigh hkeep
  · simp [text, mantissa, hne]
  · simp [text, mantissa]
  · simp [text, mantissa]
  · have hrest : ds.drop point.toNat ≠ [] := by
      rw [ne_eq, List.drop_eq_nil_iff]
      omega
    simp [text, mantissa, hrest]

theorem toList_toString_int (n : Int) :
    (toString n).toList = (if n < 0 then ['-'] else []) ++ Nat.toDigits 10 n.natAbs := by
  cases n with
  | ofNat m => simp [Int.toString_eq_repr, Int.repr, Nat.repr]
  | negSucc m => simp [Int.toString_eq_repr, Int.repr, Nat.repr]

theorem text_scientific {plusSign : Bool} {ds : List Char} (hne : ds ≠ []) (point : Int) :
    (scientific plusSign ds point).text =
      (Workflow.scientific plusSign (String.ofList ds) point).toList := by
  match ds, hne with
  | [first], _ =>
    simp [scientific, Workflow.scientific, text, mantissa, apply_ite String.toList]
  | first :: second :: rest, _ =>
    simp [scientific, Workflow.scientific, text, mantissa, apply_ite String.toList]

/-- Zeros after the digits and digits after the point both move the exponent. -/
theorem value_eq (n : Numeral) (zeros : Nat) {digits : Nat} {power : Int}
    (hdigits : Nat.ofDigitChars 10 (n.whole ++ n.fraction) 0 = 10 ^ zeros * digits)
    (hpower : n.power.elim 0 signedValue - n.fraction.length + zeros = power) :
    n.value = digits * 10 ^ power := by
  rw [value, hdigits, ← hpower, zpow_add₀ (by norm_num), zpow_sub₀ (by norm_num), zpow_natCast,
    zpow_natCast]
  push_cast
  ring

theorem value_positional (keepsPoint : Bool) (ds : List Char) (point : Int) :
    (positional keepsPoint ds point).value =
      Nat.ofDigitChars 10 ds 0 * 10 ^ (point - ds.length) := by
  unfold positional
  split_ifs with hlow hhigh hkeep
  · apply value_eq _ 0
    · rw [List.singleton_append, ← List.cons_append, ← List.replicate_succ, ofDigitChars_append,
        ofDigitChars_zeros]
      omega
    · simp only [Option.elim_none, List.length_append, List.length_replicate]
      omega
  · apply value_eq _ ((point - ds.length).toNat + 1)
    · rw [show ['0'] = List.replicate 1 '0' from rfl, List.append_assoc,
        List.replicate_append_replicate, ofDigitChars_append, ofDigitChars_zeros,
        List.length_replicate, add_zero]
    · simp only [Option.elim_none, List.length_singleton]
      omega
  · apply value_eq _ ((point - ds.length).toNat)
    · rw [List.append_nil, ofDigitChars_append, ofDigitChars_zeros, List.length_replicate, add_zero]
    · simp only [Option.elim_none, List.length_nil]
      omega
  · apply value_eq _ 0
    · rw [List.take_append_drop]
      omega
    · simp only [Option.elim_none, List.length_drop]
      omega

theorem signedValue_of_allDigits {ds : List Char} (h : AllDigits ds) :
    signedValue ds = Nat.ofDigitChars 10 ds 0 := by
  unfold signedValue
  split
  · exact absurd (h '-' List.mem_cons_self) (by decide)
  · exact absurd (h '+' List.mem_cons_self) (by decide)
  · rfl

/-- A written integer denotes itself, with or without a plus sign where it is not negative. -/
theorem signedValue_toString {p : Prop} [Decidable p] {n : Int} (hplus : p → 0 ≤ n) :
    signedValue ((if p then ['+'] else []) ++ (toString n).toList) = n := by
  rw [toList_toString_int]
  split_ifs with h1 h2 h2
  · exact absurd (hplus h1) (by omega)
  · rw [List.nil_append, List.singleton_append, signedValue, Nat.ofDigitChars_ten_toDigits]
    omega
  · rw [List.nil_append, List.singleton_append, signedValue, Nat.ofDigitChars_ten_toDigits]
    omega
  · rw [List.nil_append, List.nil_append, signedValue_of_allDigits (allDigits_toDigits _),
      Nat.ofDigitChars_ten_toDigits]
    omega

theorem value_scientific (plusSign : Bool) {ds : List Char} (hne : ds ≠ []) (point : Int) :
    (scientific plusSign ds point).value = Nat.ofDigitChars 10 ds 0 * 10 ^ (point - ds.length) := by
  have hlength := List.length_pos_iff.mpr hne
  have hsigned := signedValue_toString (n := point - 1)
    (p := (plusSign && decide (0 ≤ point - 1)) = true) (by simp)
  unfold scientific
  apply value_eq _ 0
  · rw [List.take_append_drop]
    omega
  · simp only [Option.elim_some, hsigned, List.length_drop]
    omega

theorem valid_positional (keepsPoint : Bool) {ds : List Char} (hne : ds ≠ []) (hds : AllDigits ds)
    (point : Int) : (positional keepsPoint ds point).Valid := by
  unfold positional
  split_ifs with hlow hhigh hkeep
  · exact ⟨by simp, allDigits_replicate 1, (allDigits_replicate _).append hds, nofun⟩
  · exact ⟨by simp [hne], hds.append (allDigits_replicate _), allDigits_replicate 1, nofun⟩
  · exact ⟨by simp [hne], hds.append (allDigits_replicate _), nofun, nofun⟩
  · refine ⟨?_, fun c hc => hds c (List.mem_of_mem_take hc),
      fun c hc => hds c (List.mem_of_mem_drop hc), nofun⟩
    rw [ne_eq, List.take_eq_nil_iff, not_or]
    exact ⟨by omega, hne⟩

theorem fraction_positional_ne {ds : List Char} (hne : ds ≠ []) (point : Int) :
    (positional true ds point).fraction ≠ [] := by
  simp only [positional, if_true]
  split_ifs with hlow hhigh
  · exact List.append_ne_nil_of_right_ne_nil _ hne
  · simp
  · rw [ne_eq, List.drop_eq_nil_iff]
    omega

theorem valid_scientific (plusSign : Bool) {ds : List Char} (hne : ds ≠ []) (hds : AllDigits ds)
    (point : Int) : (scientific plusSign ds point).Valid where
  whole_ne := by simp [scientific, hne]
  whole c hc := hds c (List.mem_of_mem_take hc)
  fraction c hc := hds c (List.mem_of_mem_drop hc)
  power := by
    rintro x ⟨⟩ c hc
    rw [toList_toString_int] at hc
    simp only [List.mem_append] at hc
    rcases hc with hc | hc | hc
    · split_ifs at hc <;> simp_all
    · split_ifs at hc <;> simp_all
    · exact .inl (allDigits_toDigits _ c hc)

end Numeral

/-! ## Written doubles -/

namespace Layout

/-- The place of the point, counted from the left end of the digits. -/
def point (d : Decimal) : Int := (Nat.toDigits 10 d.digits).length + d.exponent

def ofDecimal (layout : Layout) (d : Decimal) : Numeral :=
  if layout.usesExponent && (point d ≤ -5 || 16 < point d) then
    .scientific layout.plusSign (Nat.toDigits 10 d.digits) (point d)
  else .positional layout.keepsPoint (Nat.toDigits 10 d.digits) (point d)

/-- The text of a number without its sign. -/
def numeral (layout : Layout) (m : Nat) (e : Int) : Numeral :=
  if m = 0 then ⟨['0'], if layout.keepsPoint then ['0'] else [], none⟩
  else layout.ofDecimal (Binary64.shortest layout.tie m e)

theorem write_finite (layout : Layout) (negative : Bool) (m : Nat) (e : Int) :
    (layout.write (.finite negative m e)).toList =
      (if negative then ['-'] else []) ++ (layout.numeral m e).text := by
  have hne {n : Nat} : Nat.toDigits 10 n ≠ [] := Nat.toDigits_ne_nil
  have hlength (n : Nat) : (toString n).length = (Nat.toDigits 10 n).length := by
    rw [Nat.toString_eq_ofList_toDigits, String.length_ofList]
  have hsign : (if negative then "-" else "").toList = if negative then ['-'] else [] := by
    cases negative <;> rfl
  unfold write numeral
  by_cases hm : m = 0
  · have hzero : (if layout.keepsPoint then "0.0" else "0").toList =
        Numeral.text ⟨['0'], if layout.keepsPoint then ['0'] else [], none⟩ := by
      cases layout.keepsPoint <;> rfl
    simp only [hm, if_true, String.toList_append, hsign, hzero]
  · simp only [hm, if_false, hlength]
    rw [Nat.toString_eq_ofList_toDigits, apply_ite String.toList, String.toList_append,
      String.toList_append, hsign, ← Numeral.text_scientific hne, ← Numeral.text_positional hne,
      ofDecimal, apply_ite Numeral.text]
    exact (apply_ite (List.append _) _ _ _).symm

theorem valid_numeral (layout : Layout) (m : Nat) (e : Int) : (layout.numeral m e).Valid := by
  have hne {n : Nat} : Nat.toDigits 10 n ≠ [] := Nat.toDigits_ne_nil
  unfold numeral ofDecimal
  split_ifs
  · exact ⟨nofun, allDigits_replicate 1, allDigits_replicate 1, nofun⟩
  · exact ⟨nofun, allDigits_replicate 1, nofun, nofun⟩
  · exact Numeral.valid_scientific _ hne (allDigits_toDigits _) _
  · exact Numeral.valid_positional _ hne (allDigits_toDigits _) _

theorem head_numeral (layout : Layout) (m : Nat) (e : Int) (c : Char)
    (hc : (layout.numeral m e).text.head? = some c) : c.isDigit = true := by
  have hvalid := layout.valid_numeral m e
  rw [Numeral.text, Numeral.mantissa, List.append_assoc,
    List.head?_append_of_ne_nil _ hvalid.whole_ne] at hc
  exact hvalid.whole c (List.mem_of_mem_head? hc)

theorem value_ofDecimal (layout : Layout) (d : Decimal) : (layout.ofDecimal d).value = d.toRat := by
  have hexponent : point d - (Nat.toDigits 10 d.digits).length = d.exponent := by
    unfold point
    omega
  unfold ofDecimal Decimal.toRat
  split_ifs
  · rw [Numeral.value_scientific _ Nat.toDigits_ne_nil, hexponent, Nat.ofDigitChars_ten_toDigits]
  · rw [Numeral.value_positional, hexponent, Nat.ofDigitChars_ten_toDigits]

theorem value_numeral_zero (layout : Layout) (e : Int) : (layout.numeral 0 e).value = 0 := by
  rw [numeral, if_pos rfl]
  cases layout.keepsPoint <;> simp [Numeral.value, Nat.ofDigitChars_cons]

theorem value_numeral_pos (layout : Layout) {m : Nat} {e : Int} (hm : 0 < m)
    (hcanonical : Binary64.Canonical m e) : 0 < (layout.numeral m e).value := by
  have hdigits : (0 : ℚ) < (Binary64.shortest layout.tie m e).digits := by
    exact_mod_cast (Binary64.rounds_shortest layout.tie hm hcanonical).1
  rw [numeral, if_neg hm.ne', value_ofDecimal, Decimal.toRat]
  positivity

theorem numeral_injective (layout : Layout) {m m' : Nat} {e e' : Int}
    (hcanonical : Binary64.Canonical m e) (hcanonical' : Binary64.Canonical m' e')
    (h : (layout.numeral m e).text = (layout.numeral m' e').text) : m = m' ∧ e = e' := by
  have hvalue := congrArg Numeral.value
    (Numeral.text_injective (layout.valid_numeral m e) (layout.valid_numeral m' e') h)
  rcases Nat.eq_zero_or_pos m with rfl | hm <;> rcases Nat.eq_zero_or_pos m' with rfl | hm'
  · exact ⟨rfl, hcanonical.exponent_of_zero.trans hcanonical'.exponent_of_zero.symm⟩
  · rw [value_numeral_zero] at hvalue
    exact absurd hvalue (layout.value_numeral_pos hm' hcanonical').ne
  · rw [value_numeral_zero] at hvalue
    exact absurd hvalue (layout.value_numeral_pos hm hcanonical).ne'
  · rw [numeral, if_neg hm.ne', numeral, if_neg hm'.ne', value_ofDecimal, value_ofDecimal] at hvalue
    exact Binary64.shortest_injective hm hm' hcanonical hcanonical' hvalue

/-- The written form of a finite double belongs to it alone. -/
theorem write_injective (layout : Layout) {negative negative' : Bool} {m m' : Nat} {e e' : Int}
    (hcanonical : Binary64.Canonical m e) (hcanonical' : Binary64.Canonical m' e')
    (h : layout.write (.finite negative m e) = layout.write (.finite negative' m' e')) :
    Binary64.finite negative m e = .finite negative' m' e' := by
  have hlist := congrArg String.toList h
  rw [write_finite, write_finite] at hlist
  have hhead := layout.head_numeral
  cases negative <;> cases negative'
  · obtain ⟨rfl, rfl⟩ := layout.numeral_injective hcanonical hcanonical' hlist
    rfl
  · exact absurd (hhead m e '-' (by simpa using congrArg List.head? hlist)) (by decide)
  · exact absurd (hhead m' e' '-' (by simpa using congrArg List.head? hlist.symm)) (by decide)
  · obtain ⟨rfl, rfl⟩ := layout.numeral_injective hcanonical hcanonical' (List.cons_injective hlist)
    rfl

end Layout
end Workflow
