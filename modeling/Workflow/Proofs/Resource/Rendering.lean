import Workflow.Proofs.Resource.Parsing

/-!
# How quantities are written

The text of a quantity denotes it without an error, so that different quantities have different
texts, and a number of bytes is written with the unit that leaves the least count. Up to 53 bits the
text is read back as the quantity.
-/
namespace Workflow
open Binary64

variable {text unit unit' : String} {t t' : DecimalText}

/-! ## Reading a text back -/

/-- A text is written in one way. -/
theorem Written.unique (h : Written text t unit) (h' : Written text t' unit') :
    t = t' ∧ unit = unit' := by
  have hsplit := h.split?_eq.symm.trans h'.split?_eq
  rw [Option.some.injEq, Prod.mk.injEq, String.toList_inj] at hsplit
  exact hsplit

/-- A natural number with a unit. -/
theorem written_toString (n : ℕ) (h : ∀ c ∈ unit.toList, c.isAlpha = true) :
    Written (toString n ++ unit) ⟨Nat.toDigits 10 n, none⟩ unit where
  chars := ⟨[], [], by simp [DecimalText.chars], nofun⟩
  valid := ⟨⟨allDigits_toDigits n, Nat.toDigits_ne_nil⟩, nofun⟩
  letters := h

theorem toRat_toDigits (n : ℕ) : DecimalText.toRat ⟨Nat.toDigits 10 n, none⟩ = n := by
  simp [DecimalText.toRat]

/-! ## Memory -/

namespace MemoryUnit

/-- The symbol of every unit is one of letters that stands for the unit. -/
theorem symbol_eq : ∀ u ∈ binary ++ decimal,
    factorOf? u.symbol = some u.factor ∧ u.symbol.toList.all Char.isAlpha = true := by
  decide

theorem factor_pos : ∀ u ∈ binary ++ decimal, 0 < u.factor := by
  decide

/-- Larger units come first. -/
def Descending (units : List MemoryUnit) : Prop := units.Pairwise fun u v => v.factor < u.factor

theorem descending_binary : Descending binary := by
  unfold Descending
  decide

theorem descending_decimal : Descending decimal := by
  unfold Descending
  decide

end MemoryUnit

namespace MemoryQuantity
open MemoryUnit (binary decimal factorOf?)
variable {q : MemoryQuantity} {units : List MemoryUnit} {b m n : ℕ} {symbol : String}

/-- A count with a symbol of letters is a number of bytes. -/
def Denotes (b n : ℕ) (symbol : String) : Prop :=
  (∀ c ∈ symbol.toList, c.isAlpha = true) ∧ ∃ u, factorOf? symbol = some u ∧ n * u = b

/-- No unit that divides the number leaves a smaller count. -/
def Least (b n : ℕ) (units : List MemoryUnit) : Prop :=
  ∀ v ∈ units, v.factor ∣ b → n ≤ b / v.factor

theorem Least.mono (h : Least b n units) (hle : m ≤ n) : Least b m units :=
  fun v hv hdvd => hle.trans (h v hv hdvd)

theorem bestUnit?_eq_some (hunits : units ⊆ binary ++ decimal)
    (hdescending : MemoryUnit.Descending units) (h : q.bestUnit? units = some (n, symbol)) :
    Denotes q.bytes.toNat n symbol ∧ Least q.bytes.toNat n units ∧ n ≤ q.bytes.toNat := by
  obtain ⟨u, hfind, heq⟩ := Option.map_eq_some_iff.mp h
  cases heq
  obtain ⟨hfits, before, after, rfl, hbefore⟩ := List.find?_eq_some_iff_append.mp hfind
  simp only [Bool.and_eq_true, decide_eq_true_eq, beq_iff_eq] at hfits
  obtain ⟨hle, hmod⟩ := hfits
  have hu := hunits (show u ∈ before ++ u :: after by simp)
  obtain ⟨hsymbol, hletters⟩ := MemoryUnit.symbol_eq u hu
  have hbytes : 0 < q.bytes.toNat := (MemoryUnit.factor_pos u hu).trans_le hle
  have hcount := Nat.div_mul_cancel (Nat.dvd_of_mod_eq_zero hmod)
  refine ⟨⟨List.all_eq_true.mp hletters, u.factor, hsymbol, hcount⟩, fun v hv hdvd => ?_,
    Nat.div_le_self _ _⟩
  rcases List.mem_append.mp hv with hearlier | hlater
  · -- an earlier unit that divides the number would have been taken
    have hskipped := hbefore v hearlier
    simp [Nat.le_of_dvd hbytes hdvd, Nat.mod_eq_zero_of_dvd hdvd] at hskipped
  · rcases List.mem_cons.mp hlater with rfl | hlater
    · exact le_refl _
    · have hpairs := List.pairwise_cons.mp (List.pairwise_append.mp hdescending).2.1
      exact Nat.div_le_div_left (hpairs.1 v hlater).le (MemoryUnit.factor_pos v (hunits hv))

/-- Where no unit of a list is found, the list has none that leaves a smaller count. -/
theorem least_of_none (h : q.bestUnit? units = none) (hn : n ≤ q.bytes.toNat) :
    Least q.bytes.toNat n units := by
  intro v hv hdvd
  have hskipped := List.find?_eq_none.mp (Option.map_eq_none_iff.mp h) v hv
  have hzero : q.bytes.toNat = 0 := by
    by_contra hne
    simp [Nat.le_of_dvd (Nat.pos_of_ne_zero hne) hdvd, Nat.mod_eq_zero_of_dvd hdvd] at hskipped
  rw [hzero, Nat.le_zero] at hn
  exact hn ▸ Nat.zero_le _

/-- The text is a count with a unit, and no unit leaves a smaller count. -/
theorem text_eq (q : MemoryQuantity) : ∃ n symbol, q.text = toString n ++ symbol ∧
    Denotes q.bytes.toNat n symbol ∧ Least q.bytes.toNat n (binary ++ decimal) := by
  have hboth {n : ℕ} (h : Least q.bytes.toNat n binary) (h' : Least q.bytes.toNat n decimal) :
      Least q.bytes.toNat n (binary ++ decimal) := List.forall_mem_append.mpr ⟨h, h'⟩
  have hbinary {n : ℕ} {symbol : String} (h : q.bestUnit? binary = some (n, symbol)) :=
    bestUnit?_eq_some (List.subset_append_left _ _) MemoryUnit.descending_binary h
  have hdecimal {n : ℕ} {symbol : String} (h : q.bestUnit? decimal = some (n, symbol)) :=
    bestUnit?_eq_some (List.subset_append_right _ _) MemoryUnit.descending_decimal h
  unfold text
  split
  · rename_i n u m v hn hm
    obtain ⟨hdenotes, hleast, -⟩ := hbinary hn
    obtain ⟨hdenotes', hleast', -⟩ := hdecimal hm
    split_ifs with hlt
    · exact ⟨m, v, rfl, hdenotes', hboth (hleast.mono hlt.le) hleast'⟩
    · exact ⟨n, u, rfl, hdenotes, hboth hleast (hleast'.mono (not_lt.mp hlt))⟩
  · rename_i n u hn hm
    obtain ⟨hdenotes, hleast, hle⟩ := hbinary hn
    exact ⟨n, u, rfl, hdenotes, hboth hleast (least_of_none hm hle)⟩
  · rename_i m v hn hm
    obtain ⟨hdenotes, hleast, hle⟩ := hdecimal hm
    exact ⟨m, v, rfl, hdenotes, hboth (least_of_none hn hle) hleast⟩
  · rename_i hn hm
    refine ⟨q.bytes.toNat, "", (String.append_empty).symm, ⟨nofun, 1, rfl, Nat.mul_one _⟩, ?_⟩
    exact hboth (least_of_none hn (le_refl _)) (least_of_none hm (le_refl _))

theorem text_injective : Function.Injective MemoryQuantity.text := by
  intro q q' h
  obtain ⟨n, symbol, htext, ⟨hletters, u, hu, hbytes⟩, -⟩ := q.text_eq
  obtain ⟨n', symbol', htext', ⟨hletters', u', hu', hbytes'⟩, -⟩ := q'.text_eq
  have hwritten : Written q.text _ symbol := htext ▸ written_toString n hletters
  have hwritten' : Written q.text _ symbol' := h ▸ htext' ▸ written_toString n' hletters'
  obtain ⟨hdigits, rfl⟩ := hwritten.unique hwritten'
  have hcount := congrArg DecimalText.toRat hdigits
  rw [toRat_toDigits, toRat_toDigits, Nat.cast_inj] at hcount
  rw [hu, Option.some.injEq] at hu'
  have hequal : q.bytes.toNat = q'.bytes.toNat := by rw [← hbytes, ← hbytes', hcount, hu']
  cases q
  cases q'
  rw [mk.injEq]
  exact UInt64.toNat_inj.mp hequal

/-- What fits into the mantissa of a double is read back. -/
theorem parse_text (h : q.bytes.toNat < 2 ^ 53) : parse q.text = .ok q := by
  obtain ⟨n, symbol, htext, ⟨hletters, u, hu, hbytes⟩, -⟩ := q.text_eq
  have hwritten : Written q.text _ symbol := htext ▸ written_toString n hletters
  have hle : n ≤ q.bytes.toNat := hbytes ▸ Nat.le_mul_of_pos_right n (MemoryUnit.factor_held hu).2
  have hvalue : (n * u : ℚ) = q.bytes.toNat := by exact_mod_cast hbytes
  have hne : (q.bytes.toNat : ℚ) ≠ 2 ^ 64 := by
    intro heq
    have heq : q.bytes.toNat = 2 ^ 64 := by exact_mod_cast heq
    omega
  have hread := readsAs_of_held hwritten hu
  rw [toRat_toDigits, hvalue] at hread
  exact (hread (held_natCast (hle.trans_lt h)) (held_natCast h) hne q.bytes).mpr rfl

end MemoryQuantity

/-! ## Cpu -/

namespace CpuQuantity

theorem letters_m : ∀ c ∈ "m".toList, c.isAlpha = true :=
  List.all_eq_true.mp (by decide)

/-- The text is a number of cores or of thousandths. -/
theorem text_written (q : CpuQuantity) : ∃ t unit, Written q.text t unit ∧
    (unit = "" ∧ t.toRat * 1000 = q.millis.toNat ∨ unit = "m" ∧ t.toRat = q.millis.toNat) := by
  simp only [CpuQuantity.text]
  split_ifs with hcores
  · have hwritten := @written_toString "" (q.millis.toNat / 1000) nofun
    rw [String.append_empty] at hwritten
    refine ⟨_, "", hwritten, .inl ⟨rfl, ?_⟩⟩
    rw [toRat_toDigits]
    exact_mod_cast Nat.div_mul_cancel (Nat.dvd_of_mod_eq_zero hcores)
  · exact ⟨_, "m", written_toString q.millis.toNat letters_m, .inr ⟨rfl, toRat_toDigits _⟩⟩

theorem text_injective : Function.Injective CpuQuantity.text := by
  intro q q' h
  obtain ⟨t, unit, hwritten, hvalue⟩ := q.text_written
  obtain ⟨t', unit', hwritten', hvalue'⟩ := q'.text_written
  obtain ⟨rfl, rfl⟩ := hwritten.unique (h ▸ hwritten')
  have hequal : (q.millis.toNat : ℚ) = q'.millis.toNat := by
    rcases hvalue with ⟨rfl, hvalue⟩ | ⟨rfl, hvalue⟩
    · obtain ⟨-, hvalue'⟩ := hvalue'.resolve_right fun hm => absurd hm.1 (by decide)
      exact hvalue.symm.trans hvalue'
    · obtain ⟨-, hvalue'⟩ := hvalue'.resolve_left fun hcores => absurd hcores.1 (by decide)
      exact hvalue.symm.trans hvalue'
  cases q
  cases q'
  rw [mk.injEq]
  exact UInt64.toNat_inj.mp (by exact_mod_cast hequal)

theorem parse_text {q : CpuQuantity} (h : q.millis.toNat < 2 ^ 53) : parse q.text = .ok q := by
  by_cases hcores : q.millis.toNat % 1000 = 0
  · have hwritten := @written_toString "" (q.millis.toNat / 1000) nofun
    have hvalue : ((q.millis.toNat / 1000 : ℕ) : ℚ) * 1000 = q.millis.toNat := by
      exact_mod_cast Nat.div_mul_cancel (Nat.dvd_of_mod_eq_zero hcores)
    have htext : q.text = toString (q.millis.toNat / 1000) ++ "" :=
      (if_pos hcores).trans String.append_empty.symm
    rw [htext]
    obtain ⟨z, hz, hparse⟩ := parse_eq_ok_iff hwritten
    have hread := readsAs_of_iff hz hparse
    rw [toRat_toDigits, hvalue] at hread
    rw [toRat_toDigits] at hz
    have hcount : q.millis.toNat / 1000 < 2 ^ 53 := (Nat.div_le_self _ _).trans_lt h
    have his := hz.is_of_held (held_natCast hcount)
    rw [Nat.cast_ofNat, hvalue] at his
    have his := his (held_natCast h)
    have hlt : (q.millis.toNat : ℚ) < 2 ^ 64 := by exact_mod_cast q.millis.toNat_lt
    exact (hread (fun _ => near_iff_of_whole his) hlt q.millis).mpr rfl
  · rw [show q.text = toString q.millis.toNat ++ "m" from if_neg hcores]
    exact (parse_millis_eq_ok_iff (written_toString _ letters_m) q.millis).mpr ⟨rfl, toRat_toDigits _⟩

end CpuQuantity

/-- Quantities are written without an error: memory as a count with the unit, or with none, that
leaves the least count, and cpu as cores or thousandths. So every text is that of one quantity. -/
theorem quantity_text_exact :
    (∀ q : MemoryQuantity, ∃ (n : ℕ) (symbol : String) (u : ℕ), q.text = toString n ++ symbol ∧
      MemoryUnit.factorOf? symbol = some u ∧ n * u = q.bytes.toNat ∧
      ∀ v ∈ MemoryUnit.binary ++ MemoryUnit.decimal, v.factor ∣ q.bytes.toNat →
        n ≤ q.bytes.toNat / v.factor) ∧
    (∀ q : CpuQuantity, ∃ t unit, Written q.text t unit ∧
      (unit = "" ∧ t.toRat * 1000 = q.millis.toNat ∨ unit = "m" ∧ t.toRat = q.millis.toNat)) ∧
    Function.Injective MemoryQuantity.text ∧ Function.Injective CpuQuantity.text := by
  refine ⟨fun q => ?_, CpuQuantity.text_written, MemoryQuantity.text_injective,
    CpuQuantity.text_injective⟩
  obtain ⟨n, symbol, htext, ⟨-, u, hu, hbytes⟩, hleast⟩ := q.text_eq
  exact ⟨n, symbol, u, htext, hu, hbytes, hleast⟩

end Workflow
