import Workflow.Json.Read
import Workflow.Json.Write

/-!
# Strings in JSON texts

A string is written character by character, some of them as escapes, and read back as it was. The
closing quote ends it, so that two texts that begin with strings begin with the same string only if
they are equal from the first quote to the last.
-/
namespace Workflow.Json

/-! ## Characters -/

theorem hexQuad?_control {n : Nat} (h : n < 32) :
    ∃ a b c d, (hexPadded 4 n).toList = [a, b, c, d] ∧ hexQuad? a b c d = some n := by
  have hcheck : ∀ n < 32, ∃ a b c d,
      List.replicate (4 - (Nat.toDigits 16 n).length) '0' ++ Nat.toDigits 16 n = [a, b, c, d] ∧
        hexQuad? a b c d = some n := by
    intro n hn
    refine ⟨'0', '0', Nat.digitChar (n / 16), Nat.digitChar (n % 16), ?_⟩
    revert n
    decide
  rw [hexPadded, String.toList_ofList]
  exact hcheck n h

/-- A character is written as itself, as an escape of one letter or by its number. -/
theorem stringChar_cases (c : Char) :
    (c ≠ '"' ∧ c ≠ '\\' ∧ ¬ c.toNat < 32 ∧ (stringChar c).toList = [c]) ∨
      (∃ x, x ≠ 'u' ∧ simpleEscape? x = some c ∧ (stringChar c).toList = ['\\', x]) ∨
      ∃ x y z w, hexQuad? x y z w = some c.toNat ∧ c.toNat < 32 ∧
        (stringChar c).toList = ['\\', 'u', x, y, z, w] := by
  unfold stringChar
  split
  · exact .inr (.inl ⟨'"', by decide, rfl, rfl⟩)
  · exact .inr (.inl ⟨'\\', by decide, rfl, rfl⟩)
  · exact .inr (.inl ⟨'b', by decide, rfl, rfl⟩)
  · exact .inr (.inl ⟨'t', by decide, rfl, rfl⟩)
  · exact .inr (.inl ⟨'n', by decide, rfl, rfl⟩)
  · exact .inr (.inl ⟨'f', by decide, rfl, rfl⟩)
  · exact .inr (.inl ⟨'r', by decide, rfl, rfl⟩)
  · rename_i hquote hslash _ _ _ _ _
    split
    · rename_i hlt
      obtain ⟨x, y, z, w, hdigits, hquad⟩ := hexQuad?_control hlt
      exact .inr (.inr ⟨x, y, z, w, hquad, hlt, by rw [String.toList_append, hdigits]; rfl⟩)
    · rename_i hlt
      exact .inl ⟨hquote, hslash, hlt, String.toList_singleton c⟩

/-! ## Reading -/

def escaped (cs : List Char) : List Char := cs.flatMap fun c => (stringChar c).toList

theorem toList_stringText (s : String) :
    (stringText s).toList = '"' :: (escaped s.toList ++ ['"']) := by
  simp [stringText, escaped, String.toList_join, List.flatMap_map]

/-- A number in a text that goes on is followed by no half of a pair that cannot be read. -/
theorem escaped_hexQuad {cs tail : List Char} {e f g h : Char} {rest : List Char}
    (heq : escaped cs ++ '"' :: tail = '\\' :: 'u' :: e :: f :: g :: h :: rest) :
    ∃ n, hexQuad? e f g h = some n := by
  cases cs with
  | nil => simp [escaped] at heq
  | cons c cs =>
    rw [escaped, List.flatMap_cons] at heq
    rcases stringChar_cases c with ⟨-, hslash, -, htext⟩ | ⟨x, hx, -, htext⟩ |
      ⟨x, y, z, w, hquad, -, htext⟩
    · rw [htext] at heq
      exact absurd (List.cons.inj heq).1 hslash
    · rw [htext] at heq
      exact absurd (List.cons.inj (List.cons.inj heq).2).1 hx
    · rw [htext] at heq
      simp only [List.cons_append, List.cons.injEq, true_and] at heq
      obtain ⟨rfl, rfl, rfl, rfl, -⟩ := heq
      exact ⟨_, hquad⟩

theorem readStringRest_quad {seen rest : List Char} {x y z w c : Char}
    (hquad : hexQuad? x y z w = some c.toNat) (hlt : c.toNat < 32)
    (hrest : ∀ e f g h rest', rest = '\\' :: 'u' :: e :: f :: g :: h :: rest' →
      ∃ n, hexQuad? e f g h = some n) :
    readStringRest seen ('\\' :: 'u' :: x :: y :: z :: w :: rest) =
      readStringRest (c :: seen) rest := by
  have hchar : Char.ofNat c.toNat = c := Char.ofNat_toNat c
  by_cases hpair : ∃ e f g h rest', rest = '\\' :: 'u' :: e :: f :: g :: h :: rest'
  · obtain ⟨e, f, g, h, rest', rfl⟩ := hpair
    obtain ⟨m, hm⟩ := hrest e f g h rest' rfl
    rw [readStringRest.eq_3]
    simp only [hquad, hm, hchar]
    rw [if_neg (by omega), if_neg (by omega)]
  · rw [readStringRest.eq_4]
    · simp only [hquad, hchar]
      rw [if_neg (by omega)]
    · intro e f g h rest' heq
      exact hpair ⟨e, f, g, h, rest', heq⟩

theorem readStringRest_escaped (seen cs tail : List Char) :
    readStringRest seen (escaped cs ++ '"' :: tail) =
      some (String.ofList (seen.reverse ++ cs), tail) := by
  induction cs generalizing seen with
  | nil => rw [escaped, List.flatMap_nil, List.nil_append, List.append_nil, readStringRest]
  | cons c cs ih =>
    have hsplit : escaped (c :: cs) ++ '"' :: tail =
        (stringChar c).toList ++ (escaped cs ++ '"' :: tail) := by
      rw [escaped, List.flatMap_cons, List.append_assoc, ← escaped]
    have hnext : readStringRest seen (escaped (c :: cs) ++ '"' :: tail) =
        readStringRest (c :: seen) (escaped cs ++ '"' :: tail) := by
      rw [hsplit]
      rcases stringChar_cases c with ⟨hquote, hslash, hlt, htext⟩ | ⟨x, hx, hescape, htext⟩ |
        ⟨x, y, z, w, hquad, hlt, htext⟩
      · rw [htext, List.singleton_append, readStringRest.eq_6, if_neg hlt]
        · exact hquote
        all_goals
          intros
          contradiction
      · rw [htext, List.cons_append, List.singleton_append, readStringRest.eq_5]
        · simp only [hescape]
        all_goals
          intros
          contradiction
      · rw [htext]
        exact readStringRest_quad hquad hlt fun e f g h rest' heq => escaped_hexQuad heq
    rw [hnext, ih]
    simp

/-- A text that begins with a string tells it from what follows. -/
theorem stringText_append_injective {s s' : String} {rest rest' : List Char}
    (h : (stringText s).toList ++ rest = (stringText s').toList ++ rest') :
    s = s' ∧ rest = rest' := by
  rw [toList_stringText, toList_stringText] at h
  simp only [List.cons_append, List.append_assoc, List.cons.injEq, true_and] at h
  have hread := congrArg (readStringRest []) h
  rw [readStringRest_escaped, readStringRest_escaped] at hread
  simpa using hread

end Workflow.Json
