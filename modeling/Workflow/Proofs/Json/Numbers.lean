import Workflow.Json.Read
import Workflow.Proofs.Number.Text

/-!
# Numbers in JSON texts

A number ends where no character of it can follow: what stands behind it is left as it is. A whole
number is read as the integer that was written.
-/
namespace Workflow.Json

/-! ## Where a number ends -/

/-- A character that can follow a value: a comma, a closing bracket or a blank. -/
def endsValue (c : Char) : Bool := c == ',' || c == ']' || c == '\x7d' || isJsonBlank c

/-- No character of a value follows. -/
def Ends (rest : List Char) : Prop := ∀ c, rest.head? = some c → endsValue c = true

theorem ends_nil : Ends [] := nofun

theorem ends_cons {c : Char} (h : endsValue c = true) (rest : List Char) : Ends (c :: rest) := by
  intro d hd
  cases hd
  exact h

variable {rest : List Char}

theorem Ends.head_ne (h : Ends rest) {c : Char} (hc : endsValue c = false) (tail : List Char) :
    rest ≠ c :: tail := by
  rintro rfl
  rw [h c rfl] at hc
  cases hc

theorem eq_of_endsValue {c : Char} (h : endsValue c = true) :
    c = ',' ∨ c = ']' ∨ c = '\x7d' ∨ c = ' ' ∨ c = '\t' ∨ c = '\n' ∨ c = '\r' := by
  simpa [endsValue, isJsonBlank, or_assoc] using h

theorem isAsciiDigit_of_endsValue {c : Char} (h : endsValue c = true) : isAsciiDigit c = false := by
  rcases eq_of_endsValue h with rfl | rfl | rfl | rfl | rfl | rfl | rfl <;> rfl

theorem isMark_of_endsValue {c : Char} (h : endsValue c = true) :
    (c == '.' || c == 'e' || c == 'E') = false := by
  rcases eq_of_endsValue h with rfl | rfl | rfl | rfl | rfl | rfl | rfl <;> rfl

theorem Ends.takeWhile_append (h : Ends rest) (cs : List Char) :
    (cs ++ rest).takeWhile isAsciiDigit = cs.takeWhile isAsciiDigit := by
  induction cs with
  | nil =>
    cases rest with
    | nil => rfl
    | cons c tail =>
      rw [List.nil_append, List.takeWhile_cons, isAsciiDigit_of_endsValue (h c rfl)]
      rfl
  | cons c cs ih =>
    rw [List.cons_append, List.takeWhile_cons, List.takeWhile_cons, ih]

theorem Ends.dropWhile_append (h : Ends rest) (cs : List Char) :
    (cs ++ rest).dropWhile isAsciiDigit = cs.dropWhile isAsciiDigit ++ rest := by
  induction cs with
  | nil =>
    cases rest with
    | nil => rfl
    | cons c tail =>
      rw [List.nil_append, List.dropWhile_cons, isAsciiDigit_of_endsValue (h c rfl)]
      rfl
  | cons c cs ih =>
    rw [List.cons_append, List.dropWhile_cons, List.dropWhile_cons, ih]
    split <;> rfl

theorem Ends.head?_append (h : Ends rest) {p : Char → Bool}
    (hp : ∀ c, endsValue c = true → p c = false) (cs : List Char) :
    (cs ++ rest).head?.any p = cs.head?.any p := by
  cases cs with
  | cons c cs => rfl
  | nil =>
    cases rest with
    | nil => rfl
    | cons c tail => exact hp c (h c rfl)

/-- What is left over by a reader goes before the rest. -/
def before {α : Type} (rest : List Char) (r : α × List Char) : α × List Char := (r.1, r.2 ++ rest)

theorem Ends.takeDigits_append (h : Ends rest) (significand count : Nat) (cs : List Char) :
    takeDigits significand count (cs ++ rest) =
      ((takeDigits significand count cs).1, (takeDigits significand count cs).2.1,
        (takeDigits significand count cs).2.2 ++ rest) := by
  induction cs generalizing significand count with
  | nil =>
    cases rest with
    | nil => rfl
    | cons c tail => simp [takeDigits, isAsciiDigit_of_endsValue (h c rfl)]
  | cons c cs ih =>
    simp only [List.cons_append, takeDigits]
    split_ifs
    · rfl
    · exact ih _ _
    · rfl

/-! ## The parts of a number -/

def exponentSign (cs : List Char) : Bool × List Char :=
  match cs with
  | '+' :: rest => (false, rest)
  | '-' :: rest => (true, rest)
  | _ => (false, cs)

def readExponentDigits (negative : Bool) (significand : Nat) (start : Int) (below : Bool)
    (cs : List Char) : Option (Binary64 × List Char) :=
  let digits := cs.takeWhile isAsciiDigit
  let rest := cs.dropWhile isAsciiDigit
  if digits.isEmpty then none
  else
    let size : Nat := decimalValue digits
    if significand = 0 then some (Binary64.zero negative, rest)
    else if below then (ofParts negative significand (start - size)).map (·, rest)
    else if 2147483647 < size then none
    else (ofParts negative significand (start + size)).map (·, rest)

theorem readExponent_eq (negative : Bool) (significand : Nat) (start : Int) (cs : List Char) :
    readExponent negative significand start cs =
      readExponentDigits negative significand start (exponentSign cs).1 (exponentSign cs).2 := rfl

def readPower (negative : Bool) (significand : Nat) (exponent : Int) (cs : List Char) :
    Option (Binary64 × List Char) :=
  match cs with
  | 'e' :: rest | 'E' :: rest => readExponent negative significand exponent rest
  | _ => (ofParts negative significand exponent).map (·, cs)

def readFractionDigits (negative : Bool) (significand : Nat) (exponent : Int) (cs : List Char) :
    Option (Binary64 × List Char) :=
  let (significand, count, after) := takeDigits significand 0 cs
  let dropped := after.dropWhile isAsciiDigit
  if count = 0 ∧ dropped.length = after.length then none
  else readPower negative significand (exponent - count) dropped

theorem readFraction_point (negative : Bool) (significand : Nat) (exponent : Int)
    (cs : List Char) : readFraction negative significand exponent ('.' :: cs) =
      readFractionDigits negative significand exponent cs := rfl

theorem readFraction_of_ne {cs : List Char} (h : ∀ rest, cs ≠ '.' :: rest) (negative : Bool)
    (significand : Nat) (exponent : Int) :
    readFraction negative significand exponent cs =
      readPower negative significand exponent cs := by
  unfold readFraction
  split
  · exact absurd rfl (h _)
  · rfl
  · rfl
  · rename_i hsmall hlarge
    unfold readPower
    split
    · exact (hsmall _ rfl).elim
    · exact (hlarge _ rfl).elim
    · rfl

theorem Ends.exponentSign_append (h : Ends rest) (cs : List Char) :
    exponentSign (cs ++ rest) = before rest (exponentSign cs) := by
  unfold exponentSign
  cases cs with
  | nil =>
    rw [List.nil_append]
    split
    · exact absurd rfl (h.head_ne rfl _)
    · exact absurd rfl (h.head_ne rfl _)
    · rfl
  | cons c cs =>
    rw [List.cons_append]
    split
    · rename_i heq
      cases heq
      rfl
    · rename_i heq
      cases heq
      rfl
    · rename_i hplus hminus
      split
      · rename_i heq
        cases heq
        exact (hplus _ rfl).elim
      · rename_i heq
        cases heq
        exact (hminus _ rfl).elim
      · rfl

theorem Ends.readExponent_append (h : Ends rest) (negative : Bool) (significand : Nat)
    (start : Int) (cs : List Char) :
    readExponent negative significand start (cs ++ rest) =
      (readExponent negative significand start cs).map (before rest) := by
  rw [readExponent_eq, readExponent_eq, h.exponentSign_append]
  simp only [readExponentDigits, before, h.takeWhile_append, h.dropWhile_append]
  split_ifs
  · rfl
  · rfl
  · rw [Option.map_map]
    rfl
  · rfl
  · rw [Option.map_map]
    rfl

theorem Ends.readPower_append (h : Ends rest) (negative : Bool) (significand : Nat)
    (exponent : Int) (cs : List Char) :
    readPower negative significand exponent (cs ++ rest) =
      (readPower negative significand exponent cs).map (before rest) := by
  unfold readPower
  cases cs with
  -- what follows the number is none of its characters, and so no mark of an exponent
  | nil =>
    rw [List.nil_append]
    split
    · exact absurd rfl (h.head_ne rfl _)
    · exact absurd rfl (h.head_ne rfl _)
    · rw [Option.map_map]
      rfl
  | cons c cs =>
    rw [List.cons_append]
    split
    · rename_i heq
      cases heq
      exact h.readExponent_append _ _ _ _
    · rename_i heq
      cases heq
      exact h.readExponent_append _ _ _ _
    · rename_i hsmall hlarge
      split
      · rename_i heq
        cases heq
        exact (hsmall _ rfl).elim
      · rename_i heq
        cases heq
        exact (hlarge _ rfl).elim
      · rw [Option.map_map]
        rfl

theorem Ends.readFraction_append (h : Ends rest) (negative : Bool) (significand : Nat)
    (exponent : Int) (cs : List Char) :
    readFraction negative significand exponent (cs ++ rest) =
      (readFraction negative significand exponent cs).map (before rest) := by
  by_cases hpoint : ∃ cs', cs = '.' :: cs'
  · obtain ⟨cs, rfl⟩ := hpoint
    rw [List.cons_append, readFraction_point, readFraction_point]
    simp only [readFractionDigits, h.takeDigits_append, h.dropWhile_append, List.length_append,
      Nat.add_right_cancel_iff]
    split_ifs
    · rfl
    · exact h.readPower_append _ _ _ _
  · have hne : ∀ cs', cs ≠ '.' :: cs' := fun cs' heq => hpoint ⟨cs', heq⟩
    have hne' : ∀ cs', cs ++ rest ≠ '.' :: cs' := by
      cases cs with
      | nil => exact h.head_ne rfl
      | cons c cs =>
        intro cs' heq
        exact hne cs (congrArg (· :: cs) (List.cons.inj heq).1)
    rw [readFraction_of_ne hne, readFraction_of_ne hne', h.readPower_append]

theorem Ends.readNumber_append (h : Ends rest) (negative : Bool) {cs : List Char} (hne : cs ≠ []) :
    readNumber negative (cs ++ rest) = (readNumber negative cs).map (before rest) := by
  cases cs with
  | nil => exact absurd rfl hne
  | cons first tail =>
    have hdigits := h.takeDigits_append 0 0 (first :: tail)
    rw [List.cons_append] at hdigits ⊢
    simp only [readNumber, hdigits, h.takeWhile_append, h.dropWhile_append,
      h.head?_append fun _ => isMark_of_endsValue, h.head?_append fun _ => isAsciiDigit_of_endsValue,
      h.readFraction_append]
    split_ifs
    · rfl
    · rw [Option.map_map, Option.map_map]
      rfl
    · rfl
    · rfl
    · rfl
    · rfl

/-! ## Whole numbers -/

theorem isAsciiDigit_eq (c : Char) : isAsciiDigit c = c.isDigit := rfl

theorem le_ofDigitChars (ds : List Char) (n : Nat) : n ≤ Nat.ofDigitChars 10 ds n := by
  induction ds generalizing n with
  | nil => exact le_rfl
  | cons d ds ih =>
    rw [Nat.ofDigitChars_cons]
    exact le_trans (by omega) (ih _)

theorem takeDigits_of_allDigits {ds : List Char} (hds : AllDigits ds) {significand : Nat}
    (hfits : Nat.ofDigitChars 10 ds significand ≤ Document.greatestNat64) (count : Nat) :
    takeDigits significand count ds =
      (Nat.ofDigitChars 10 ds significand, count + ds.length, []) := by
  induction ds generalizing significand count with
  | nil => rfl
  | cons d ds ih =>
    obtain ⟨hd, hds⟩ := List.forall_mem_cons.mp hds
    have hnext : significand * 10 + (d.toNat - 48) = 10 * significand + (d.toNat - '0'.toNat) := by
      rw [Nat.mul_comm]
      rfl
    rw [Nat.ofDigitChars_cons] at hfits ⊢
    have hle := le_trans (le_ofDigitChars ds _) hfits
    rw [takeDigits, isAsciiDigit_eq, hd]
    simp only [hnext, if_true]
    rw [if_neg (by omega), ih hds hfits, List.length_cons, Nat.add_assoc, Nat.add_comm 1]

theorem head?_toDigits_ne {n : Nat} (h : 0 < n) : (Nat.toDigits 10 n).head? ≠ some '0' := by
  induction n using Nat.strongRecOn with
  | ind n ih =>
    rcases Nat.lt_or_ge n 10 with hlt | hge
    · rw [Nat.toDigits_of_lt_base hlt]
      have hcheck : ∀ n < 10, 0 < n → [Nat.digitChar n].head? ≠ some '0' := by decide
      exact hcheck n hlt h
    · rw [Nat.toDigits_of_base_le (by decide) hge,
        List.head?_append_of_ne_nil _ Nat.toDigits_ne_nil]
      exact ih (n / 10) (by omega) (by omega)

theorem toDigits_leading {n : Nat} {first : Char} {tail : List Char}
    (h : Nat.toDigits 10 n = first :: tail) :
    ¬ (first = '0' ∧ tail.head?.any isAsciiDigit = true) := by
  rintro ⟨rfl, hdigit⟩
  rcases Nat.eq_zero_or_pos n with rfl | hpos
  · cases h
    cases hdigit
  · exact head?_toDigits_ne hpos (h ▸ rfl)

theorem readNumber_toDigits {n : Nat} (h : n ≤ Document.greatestNat64) (negative : Bool) :
    readNumber negative (Nat.toDigits 10 n) =
      if ¬ negative then some (Document.int n, [])
      else if n = 0 ∨ 9223372036854775808 < n then
        some (Document.float (-(Binary64.ofInt n)), [])
      else some (Document.int (-(n : Int)), []) := by
  have hvalue : Nat.ofDigitChars 10 (Nat.toDigits 10 n) 0 = n := Nat.ofDigitChars_ten_toDigits
  have hdigits := allDigits_toDigits n
  have htake := takeDigits_of_allDigits hdigits (hvalue.symm ▸ h) 0
  rw [hvalue] at htake
  cases hcs : Nat.toDigits 10 n with
  | nil => exact absurd hcs Nat.toDigits_ne_nil
  | cons first tail =>
    rw [hcs] at htake hdigits
    have hfirst : isAsciiDigit first = true := hdigits first List.mem_cons_self
    simp only [readNumber, hfirst, toDigits_leading hcs, htake]
    simp

end Workflow.Json
