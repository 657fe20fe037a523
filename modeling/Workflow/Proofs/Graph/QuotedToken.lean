import Mathlib.Algebra.Ring.Parity
import Mathlib.Data.List.Basic

/-!
# Quoted tokens

In a token between double quotes a backslash goes with the character behind it: together with a
quote it is a quote, and with any other character, a second backslash among them, both stay. A text
that is put between quotes as it is makes a token that ends where it was closed exactly if its own
quotes stand behind odd numbers of backslashes. One whose quotes were given a backslash each does
exactly if they stood behind even numbers before, and is then read back as it was.
-/
namespace Workflow.Drawing

/-- A character behind a backslash, and what is left of the two. -/
def pairText (c : Char) : List Char := if c = '"' then ['"'] else ['\\', c]

/-- The text of a token, from behind its first quote, and what follows the quote that ends it. -/
def readQuoted : List Char → Option (List Char × List Char)
  | [] => none
  | '"' :: rest => some ([], rest)
  | '\\' :: c :: rest => (readQuoted rest).map fun r => (pairText c ++ r.1, r.2)
  | c :: rest => (readQuoted rest).map fun r => (c :: r.1, r.2)

/-- What is read of a text between quotes if none of its own ends the token. -/
def unescaped : List Char → List Char
  | '\\' :: c :: s => pairText c ++ unescaped s
  | c :: s => c :: unescaped s
  | [] => []

/-- A text with a backslash before every quote. -/
def escaped (s : List Char) : List Char := s.flatMap fun c => if c = '"' then ['\\', '"'] else [c]

/-- How many backslashes a text ends with, if as many as given stand before it. -/
def backslashes (before : Nat) (s : List Char) : Nat :=
  s.foldl (fun n c => if c = '\\' then n + 1 else 0) before

/-- Every quote of a text stands behind a number of backslashes that fits, and its end behind an
even one. -/
structure Stands (fits : Nat → Prop) (before : Nat) (s : List Char) : Prop where
  quote : ∀ i < s.length, s[i]? = some '"' → fits (backslashes before (s.take i))
  last : Even (backslashes before s)

/-- Every quote is escaped, and the one that would close the token is not. -/
abbrev Escaped (s : String) : Prop := Stands Odd 0 s.toList

/-- Neither a quote nor the one that would close the token is escaped. -/
abbrev Paired (s : String) : Prop := Stands Even 0 s.toList

section Stands
variable {fits : Nat → Prop} {before : Nat} {c : Char} {s : List Char}

theorem stands_iff : Stands fits before s ↔
    (∀ i < s.length, s[i]? = some '"' → fits (backslashes before (s.take i))) ∧
      Even (backslashes before s) :=
  ⟨fun h => ⟨h.quote, h.last⟩, fun h => ⟨h.1, h.2⟩⟩

instance [DecidablePred fits] : Decidable (Stands fits before s) := decidable_of_iff' _ stands_iff

theorem stands_nil : Stands fits before [] ↔ Even before := by
  simp [stands_iff, backslashes]

theorem stands_cons : Stands fits before (c :: s) ↔
    (c = '"' → fits before) ∧ Stands fits (if c = '\\' then before + 1 else 0) s := by
  rw [stands_iff, stands_iff, List.length_cons, Nat.forall_lt_succ_left]
  simp [backslashes, and_assoc]

/-- Where every second number fits, two backslashes more make no difference. -/
theorem stands_add_two (hfits : ∀ {n}, fits (n + 1) ↔ ¬ fits n) :
    Stands fits (before + 2) s ↔ Stands fits before s := by
  induction s generalizing before with
  | nil => rw [stands_nil, stands_nil, Nat.even_add_one, Nat.even_add_one, not_not]
  | cons c s ih =>
    rw [stands_cons, stands_cons, hfits, hfits, not_not]
    refine and_congr_right fun _ => ?_
    split_ifs
    · exact ih
    · exact Iff.rfl

theorem stands_pair (hfits : ∀ {n}, fits (n + 1) ↔ ¬ fits n) :
    Stands fits 0 ('\\' :: c :: s) ↔ (c = '"' → ¬ fits 0) ∧ Stands fits 0 s := by
  rw [stands_cons, stands_cons, if_pos rfl, zero_add, ← zero_add 1, hfits]
  simp only [Char.reduceEq, false_imp_iff, true_and]
  refine and_congr_right fun _ => ?_
  split_ifs
  · exact stands_add_two hfits
  · exact Iff.rfl

theorem stands_odd_pair : Stands Odd 0 ('\\' :: c :: s) ↔ Stands Odd 0 s := by
  simp [stands_pair Nat.odd_add_one]

theorem stands_even_pair : Stands Even 0 ('\\' :: c :: s) ↔ c ≠ '"' ∧ Stands Even 0 s := by
  simp [stands_pair Nat.even_add_one]

theorem stands_cons_of_ne (h : c ≠ '\\') :
    Stands fits 0 (c :: s) ↔ (c = '"' → fits 0) ∧ Stands fits 0 s := by
  rw [stands_cons, if_neg h]

theorem not_stands_backslash : ¬ Stands fits 0 ['\\'] := by
  simp [stands_cons, stands_nil]

theorem stands_even_iff (h : Even before) : Stands Even before s ↔ Stands Even 0 s := by
  obtain ⟨k, rfl⟩ := h
  induction k with
  | zero => exact Iff.rfl
  | succ k ih =>
    rw [show k + 1 + (k + 1) = k + k + 2 by omega, stands_add_two Nat.even_add_one, ih]

theorem stands_append {s' : List Char} (h : Stands fits before s) :
    Stands fits before (s ++ s') ↔ Stands fits (backslashes before s) s' := by
  induction s generalizing before with
  | nil => exact Iff.rfl
  | cons c s ih =>
    obtain ⟨hquote, hs⟩ := stands_cons.mp h
    rw [List.cons_append, stands_cons, and_iff_right hquote, ih hs]
    rfl

end Stands

/-! ## Backslashes before quotes -/

section Escaping
variable {c : Char} {s : List Char}

theorem escaped_quote : escaped ('"' :: s) = '\\' :: '"' :: escaped s := by
  simp [escaped]

theorem escaped_cons (h : c ≠ '"') : escaped (c :: s) = c :: escaped s := by
  simp [escaped, h]

/-- With a backslash more before every quote, the numbers before quotes change their parity. -/
theorem stands_odd_escaped {before : Nat} :
    Stands Odd before (escaped s) ↔ Stands Even before s := by
  induction s generalizing before with
  | nil => exact stands_nil.trans stands_nil.symm
  | cons c s ih =>
    by_cases hquote : c = '"'
    · rw [hquote, escaped_quote, stands_cons, stands_cons, stands_cons, if_pos rfl,
        if_neg (by decide), ih, Nat.odd_add_one, Nat.not_odd_iff_even]
      simp
    · rw [escaped_cons hquote, stands_cons, stands_cons, ih]
      simp [hquote]

/-- Induction on texts in which a backslash goes with the character behind it. -/
@[elab_as_elim]
theorem pairInduction {motive : List Char → Prop} (pair : ∀ c s, motive s → motive ('\\' :: c :: s))
    (plain : ∀ c s, c ≠ '\\' → motive s → motive (c :: s)) (lone : motive ['\\'])
    (nil : motive []) (s : List Char) : motive s := by
  induction s using unescaped.induct with
  | case1 c s ih => exact pair c s ih
  | case2 c s hpair ih =>
    by_cases hslash : c = '\\'
    · cases s with
      | nil => exact hslash ▸ lone
      | cons d s => exact (hpair d s hslash rfl).elim
    · exact plain c s hslash ih
  | case3 => exact nil

theorem unescaped_cons (h : c ≠ '\\') : unescaped (c :: s) = c :: unescaped s := by
  rw [unescaped]
  exact fun _ _ hc => absurd hc h

theorem unescaped_escaped (h : Stands Even 0 s) : unescaped (escaped s) = s := by
  induction s using pairInduction with
  | pair c s ih =>
    obtain ⟨hquote, hs⟩ := stands_even_pair.mp h
    rw [escaped_cons (by decide), escaped_cons hquote, unescaped, ih hs, pairText, if_neg hquote]
    rfl
  | plain c s hslash ih =>
    obtain ⟨-, hs⟩ := (stands_cons_of_ne hslash).mp h
    by_cases hquote : c = '"'
    · rw [hquote, escaped_quote, unescaped, ih hs]
      rfl
    · rw [escaped_cons hquote, unescaped_cons hslash, ih hs]
  | lone => exact absurd h not_stands_backslash
  | nil => rfl

theorem escaped_unescaped (h : Stands Odd 0 s) : escaped (unescaped s) = s := by
  induction s using pairInduction with
  | pair c s ih =>
    have hs := ih (stands_odd_pair.mp h)
    rw [unescaped, pairText]
    split_ifs with hquote
    · rw [List.singleton_append, escaped_quote, hs, hquote]
    · rw [List.cons_append, List.singleton_append, escaped_cons (by decide), escaped_cons hquote,
        hs]
  | plain c s hslash ih =>
    obtain ⟨hodd, hs⟩ := (stands_cons_of_ne hslash).mp h
    have hquote : c ≠ '"' := fun hc => Nat.not_odd_zero (hodd hc)
    rw [unescaped_cons hslash, escaped_cons hquote, ih hs]
  | lone => exact absurd h not_stands_backslash
  | nil => rfl

end Escaping

/-! ## Reading -/

section Reading
variable {s t rest text : List Char}

theorem readQuoted_length (h : readQuoted text = some (t, rest)) : rest.length < text.length := by
  fun_induction readQuoted text generalizing t with
  | case1 => cases h
  | case2 => cases h; exact Nat.lt_succ_self _
  | case3 c text ih =>
    obtain ⟨r, hread, hr⟩ := Option.map_eq_some_iff.mp h
    cases hr
    have hshorter := ih hread
    simp only [List.length_cons]
    omega
  | case4 c text _ _ ih =>
    obtain ⟨r, hread, hr⟩ := Option.map_eq_some_iff.mp h
    cases hr
    exact Nat.lt_succ_of_lt (ih hread)

theorem readQuoted_cons {c : Char} (hslash : c ≠ '\\') (hquote : c ≠ '"') :
    readQuoted (c :: text) = (readQuoted text).map fun r => (c :: r.1, r.2) := by
  rw [readQuoted]
  · exact hquote
  · exact fun _ _ h => absurd h hslash

/-- A text between quotes is read up to the second of them exactly if its quotes are escaped. -/
theorem readQuoted_append_iff : readQuoted (s ++ '"' :: rest) = some (t, rest) ↔
    Stands Odd 0 s ∧ t = unescaped s := by
  induction s using pairInduction generalizing t with
  | pair c s ih =>
    rw [List.cons_append, List.cons_append, readQuoted, unescaped, stands_odd_pair,
      Option.map_eq_some_iff]
    constructor
    · rintro ⟨⟨t', rest'⟩, hread, heq⟩
      cases heq
      obtain ⟨hs, rfl⟩ := ih.mp hread
      exact ⟨hs, rfl⟩
    · rintro ⟨hs, rfl⟩
      exact ⟨_, ih.mpr ⟨hs, rfl⟩, rfl⟩
  | plain c s hslash ih =>
    rw [stands_cons_of_ne hslash]
    by_cases hquote : c = '"'
    · -- a quote of the text itself ends the token
      subst hquote
      refine iff_of_false (fun hread => ?_) fun h => Nat.not_odd_zero (h.1.1 rfl)
      rw [List.cons_append, readQuoted] at hread
      have hlength := congrArg (fun r => r.2.length) (Option.some.inj hread)
      simp only [List.length_append, List.length_cons] at hlength
      omega
    · rw [List.cons_append, readQuoted_cons hslash hquote, unescaped_cons hslash,
        Option.map_eq_some_iff]
      constructor
      · rintro ⟨⟨t', rest'⟩, hread, heq⟩
        cases heq
        obtain ⟨hs, rfl⟩ := ih.mp hread
        exact ⟨⟨fun h => absurd h hquote, hs⟩, rfl⟩
      · rintro ⟨⟨-, hs⟩, rfl⟩
        exact ⟨_, ih.mpr ⟨hs, rfl⟩, rfl⟩
  | lone =>
    -- the quote that closes the token is taken for one of the text
    refine iff_of_false (fun hread => ?_) fun h => not_stands_backslash h.1
    rw [List.cons_append, List.nil_append, readQuoted] at hread
    obtain ⟨r, hrest, hr⟩ := Option.map_eq_some_iff.mp hread
    cases hr
    exact absurd (readQuoted_length hrest) (lt_irrefl _)
  | nil => simp [readQuoted, unescaped, stands_nil, eq_comm]

end Reading

/-! ## Texts put together -/

theorem paired_append {a b : String} (h : Paired a) : Paired (a ++ b) ↔ Paired b := by
  rw [Paired, String.toList_append, stands_append h, stands_even_iff h.last]

/-- Neither a quote nor a backslash is in a text. -/
def Plain (s : String) : Prop := ∀ c ∈ s.toList, c ≠ '"' ∧ c ≠ '\\'

instance (s : String) : Decidable (Plain s) := List.decidableBAll _ s.toList

theorem Plain.stands {fits : Nat → Prop} {s : String} (h : Plain s) : Stands fits 0 s.toList := by
  unfold Plain at h
  generalize s.toList = s at h
  induction s with
  | nil => exact stands_nil.mpr Even.zero
  | cons c s ih =>
    obtain ⟨⟨hquote, hslash⟩, hs⟩ := List.forall_mem_cons.mp h
    exact (stands_cons_of_ne hslash).mpr ⟨fun hc => absurd hc hquote, ih hs⟩

theorem Plain.append {a b : String} (ha : Plain a) (hb : Plain b) : Plain (a ++ b) := by
  intro c hc
  rw [String.toList_append, List.mem_append] at hc
  exact hc.elim (ha c) (hb c)

/-! ## Tokens of texts -/

/-- A token whose text is put between quotes as it is ends with the second of them. -/
def EndsWhereClosed (s : String) : Prop :=
  ∃ t, ∀ rest, readQuoted (s.toList ++ '"' :: rest) = some (t, rest)

theorem readQuoted_of_escaped {s : String} (h : Escaped s) (rest : List Char) :
    readQuoted (s.toList ++ '"' :: rest) = some (unescaped s.toList, rest) :=
  readQuoted_append_iff.mpr ⟨h, rfl⟩

theorem endsWhereClosed_iff {s : String} : EndsWhereClosed s ↔ Escaped s := by
  constructor
  · rintro ⟨t, hread⟩
    exact (readQuoted_append_iff.mp (hread [])).1
  · exact fun h => ⟨_, readQuoted_of_escaped h⟩

theorem eq_of_unescaped_eq {a b : String} (ha : Escaped a) (hb : Escaped b)
    (h : unescaped a.toList = unescaped b.toList) : a = b := by
  rw [← String.toList_inj, ← escaped_unescaped ha, ← escaped_unescaped hb, h]

end Workflow.Drawing
