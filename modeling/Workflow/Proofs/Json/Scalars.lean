import Workflow.Digest.Framing
import Workflow.Proofs.Json.Strings
import Workflow.Proofs.Number.Text

/-!
# Scalars in JSON texts

The written form of a scalar shows its type: a string begins with a quote, a truth value with a
letter, and of the numbers the doubles are those with a point or an exponent. It also shows the
value, except that there is one word for everything that is no finite number.
-/
namespace Workflow

/-- A scalar as the format has it: a double is in the one form of its value. -/
def Scalar.Proper : Scalar → Prop
  | .float x => x.Proper
  | _ => True

instance : DecidablePred Scalar.Proper
  | .float x => inferInstanceAs (Decidable x.Proper)
  | .bool _ | .int _ | .text _ => isTrue trivial

/-- What a JSON text keeps of a scalar: everything, unless it is no finite number. -/
def Scalar.kept : Scalar → Option Scalar
  | .float x => if x.isFinite then some (.float x) else none
  | s => some s

namespace Json

/-! ## Numbers -/

def isNumberChar (c : Char) : Bool := c.isDigit || c == '+' || c == '-' || c == '.' || c == 'e'

theorem isNumberChar_of_mem_numeral {n : Numeral} (h : n.Valid) {c : Char} (hc : c ∈ n.text) :
    isNumberChar c = true := by
  have hdigit (hc : c.isDigit = true) : isNumberChar c = true := by simp [isNumberChar, hc]
  rw [Numeral.text, Numeral.mantissa, List.mem_append, List.mem_append] at hc
  rcases hc with (hc | hc) | hc
  · exact hdigit (h.whole c hc)
  · split_ifs at hc with hnone
    · simp at hc
    · rcases List.mem_cons.mp hc with rfl | hc
      · rfl
      · exact hdigit (h.fraction c hc)
  · cases hpower : n.power with
    | none => simp [hpower] at hc
    | some x =>
      rw [hpower, Option.elim_some] at hc
      rcases List.mem_cons.mp hc with rfl | hc
      · rfl
      · rcases h.power x hpower c hc with hc | rfl | rfl
        · exact hdigit hc
        · rfl
        · rfl

theorem json_numeral_fractional (m : Nat) (e : Int) :
    '.' ∈ (Layout.json.numeral m e).text ∨ 'e' ∈ (Layout.json.numeral m e).text := by
  unfold Layout.numeral Layout.ofDecimal
  split_ifs with hzero hkeep hexp
  · exact .inl (Numeral.point_mem_text nofun)
  · exact absurd rfl hkeep
  · exact .inr (Numeral.letter_mem_text rfl)
  · exact .inl (Numeral.point_mem_text
      (Numeral.fraction_positional_ne Nat.toDigits_ne_nil _))

theorem isNumberChar_of_mem_write {layout : Layout} {negative : Bool} {m : Nat} {e : Int} {c : Char}
    (hc : c ∈ (layout.write (.finite negative m e)).toList) : isNumberChar c = true := by
  rw [Layout.write_finite, List.mem_append] at hc
  rcases hc with hc | hc
  · cases negative <;> simp at hc
    subst hc
    rfl
  · exact isNumberChar_of_mem_numeral (Layout.valid_numeral _ _ _) hc

theorem isNumberChar_of_mem_int {n : Int} {c : Char} (hc : c ∈ (toString n).toList) :
    c = '-' ∨ c.isDigit = true := by
  rw [Numeral.toList_toString_int, List.mem_append] at hc
  rcases hc with hc | hc
  · split_ifs at hc <;> simp_all
  · exact .inr (allDigits_toDigits _ c hc)

/-! ## Types -/

/-- What the text of a scalar shows of its type. -/
inductive Shape where
  | string
  | word
  | fractional
  | whole
  deriving DecidableEq

def shapeOf (cs : List Char) : Shape :=
  if cs.head? = some '"' then .string
  else if cs.head? = some 't' ∨ cs.head? = some 'f' ∨ cs.head? = some 'n' then .word
  else if '.' ∈ cs ∨ 'e' ∈ cs then .fractional
  else .whole

def scalarShape : Scalar → Shape
  | .text _ => .string
  | .bool _ => .word
  | .int _ => .whole
  | .float x => if x.isFinite then .fractional else .word

theorem shapeOf_number {cs : List Char}
    (h : ∀ c, cs.head? = some c → c = '-' ∨ c.isDigit = true) :
    shapeOf cs = if '.' ∈ cs ∨ 'e' ∈ cs then .fractional else .whole := by
  have hne {c : Char} (hsign : c ≠ '-') (hdigit : c.isDigit = false) : cs.head? ≠ some c := by
    intro hc
    rcases h c hc with hc | hc
    · exact hsign hc
    · simp [hdigit] at hc
  have hword : ¬ (cs.head? = some 't' ∨ cs.head? = some 'f' ∨ cs.head? = some 'n') := by
    simp only [not_or]
    exact ⟨hne (by decide) rfl, hne (by decide) rfl, hne (by decide) rfl⟩
  rw [shapeOf, if_neg (hne (by decide) rfl), if_neg hword]

theorem shapeOf_int (n : Int) : shapeOf (toString n).toList = .whole := by
  rw [shapeOf_number fun c hc => isNumberChar_of_mem_int (List.mem_of_mem_head? hc), if_neg]
  rintro (hc | hc)
  · simpa using isNumberChar_of_mem_int hc
  · simpa using isNumberChar_of_mem_int hc

theorem shapeOf_finite (negative : Bool) (m : Nat) (e : Int) :
    shapeOf (Layout.json.write (.finite negative m e)).toList = .fractional := by
  rw [Layout.write_finite, shapeOf_number, if_pos]
  · exact (json_numeral_fractional m e).imp (List.mem_append_right _) (List.mem_append_right _)
  · intro c hc
    cases negative
    · exact .inr (Layout.head_numeral _ m e c hc)
    · exact .inl (by simpa using hc.symm)

theorem shapeOf_atomText (s : Scalar) : shapeOf (atomText s.toAtom).toList = scalarShape s := by
  cases s with
  | bool b => cases b <;> rfl
  | int n => exact shapeOf_int n.toInt
  | float x =>
    cases x with
    | nan => rfl
    | infinite negative => cases negative <;> rfl
    | finite negative m e => exact shapeOf_finite negative m e
  | text s =>
    rw [Scalar.toAtom, atomText, toList_stringText]
    rfl

/-! ## Values -/

theorem toString_int_injective {n m : Int} (h : toString n = toString m) : n = m := by
  have hn := Numeral.signedValue_toString (p := False) (n := n) nofun
  have hm := Numeral.signedValue_toString (p := False) (n := m) nofun
  rw [← hn, h, hm]

theorem write_of_not_finite {x : Binary64} (h : x.isFinite = false) :
    Layout.json.write x = "null" := by
  cases x with
  | nan => rfl
  | infinite negative => cases negative <;> rfl
  | finite => cases h

def keptText : Option Scalar → String
  | none => "null"
  | some s => atomText s.toAtom

theorem atomText_eq_keptText (s : Scalar) : atomText s.toAtom = keptText s.kept := by
  cases s with
  | bool _ | int _ | text _ => rfl
  | float x =>
    rw [Scalar.kept]
    split_ifs with h
    · rfl
    · exact write_of_not_finite (by simpa using h)

theorem kept_float {x : Binary64} (h : x.isFinite = false) : (Scalar.float x).kept = none := by
  simp [Scalar.kept, h]

/-- Two doubles with one text are equal or both no finite numbers. -/
theorem kept_of_write_eq {x y : Binary64} (hx : x.Proper) (hy : y.Proper)
    (h : Layout.json.write x = Layout.json.write y) :
    (Scalar.float x).kept = (Scalar.float y).kept := by
  have hshape : scalarShape (.float x) = scalarShape (.float y) := by
    rw [← shapeOf_atomText, ← shapeOf_atomText]
    exact congrArg (fun t => shapeOf t.toList) h
  cases hfinite : x.isFinite <;> cases hfinite' : y.isFinite <;>
    simp [scalarShape, hfinite, hfinite'] at hshape
  · rw [kept_float hfinite, kept_float hfinite']
  · cases x <;> cases hfinite
    cases y <;> cases hfinite'
    rw [Layout.write_injective _ hx hy h]

theorem word_ne_null (b : Bool) : atomText (.bool b) ≠ "null" := by cases b <;> decide

/-- The text of a scalar belongs to what it keeps of the scalar. -/
theorem atomText_eq_iff {s s' : Scalar} (hs : s.Proper) (hs' : s'.Proper) :
    atomText s.toAtom = atomText s'.toAtom ↔ s.kept = s'.kept := by
  constructor
  · intro h
    have hshape : scalarShape s = scalarShape s' := by
      rw [← shapeOf_atomText, h, shapeOf_atomText]
    match s, s' with
    | .bool b, .bool b' => cases b <;> cases b' <;> first | rfl | exact absurd h (by decide)
    | .int n, .int n' => rw [Int64.toInt_inj.mp (toString_int_injective h)]
    | .text t, .text t' =>
      have htext : (stringText t).toList ++ [] = (stringText t').toList ++ [] :=
        congrArg (fun t => t.toList ++ []) h
      rw [(stringText_append_injective htext).1]
    | .float x, .float y => exact kept_of_write_eq hs hs' h
    | .bool b, .float x =>
      cases hfinite : x.isFinite <;> simp [scalarShape, hfinite] at hshape
      exact absurd (h.trans (write_of_not_finite hfinite)) (word_ne_null b)
    | .float x, .bool b =>
      cases hfinite : x.isFinite <;> simp [scalarShape, hfinite] at hshape
      exact absurd (h.symm.trans (write_of_not_finite hfinite)) (word_ne_null b)
    | .float x, .int _ | .float x, .text _ | .int _, .float x | .text _, .float x =>
      cases hfinite : x.isFinite <;> simp [scalarShape, hfinite] at hshape
    | .bool _, .int _ | .bool _, .text _ | .int _, .bool _ | .int _, .text _ | .text _, .bool _
    | .text _, .int _ => cases hshape
  · intro h
    rw [atomText_eq_keptText, atomText_eq_keptText, h]

/-! ## Where a scalar ends -/

/-- A comma or the brace that closes a mapping. -/
def endsEntry (c : Char) : Bool := c == ',' || c == '\x7d'

theorem endsEntry_of_isNumberChar {c : Char} (h : isNumberChar c = true) :
    endsEntry c = false := by
  by_contra hends
  rw [Bool.not_eq_false, endsEntry, Bool.or_eq_true, beq_iff_eq, beq_iff_eq] at hends
  rcases hends with rfl | rfl <;> simp [isNumberChar] at h

theorem endsEntry_of_mem {s : Scalar} (hs : scalarShape s ≠ .string) {c : Char}
    (hc : c ∈ (atomText s.toAtom).toList) : endsEntry c = false := by
  have hword {w : String} (hw : w.toList.any endsEntry = false) (hc : c ∈ w.toList) :
      endsEntry c = false := Bool.eq_false_iff.mpr (List.any_eq_false.mp hw c hc)
  cases s with
  | bool b => cases b <;> exact hword rfl hc
  | int n =>
    apply endsEntry_of_isNumberChar
    rcases isNumberChar_of_mem_int hc with rfl | hdigit
    · rfl
    · simp [isNumberChar, hdigit]
  | float x =>
    cases x with
    | nan => exact hword (w := "null") rfl hc
    | infinite negative => cases negative <;> exact hword (w := "null") rfl hc
    | finite negative m e => exact endsEntry_of_isNumberChar (isNumberChar_of_mem_write hc)
  | text t => exact absurd rfl hs

theorem shapeOf_eq_string_iff {cs : List Char} : shapeOf cs = .string ↔ cs.head? = some '"' := by
  unfold shapeOf
  split_ifs <;> simp_all

theorem scalarShape_eq_string {s : Scalar} (h : scalarShape s = .string) : ∃ t, s = .text t := by
  cases s with
  | bool _ | int _ => cases h
  | float x => cases hfinite : x.isFinite <;> simp [scalarShape, hfinite] at h
  | text t => exact ⟨t, rfl⟩

/-- Only strings begin with a quote, whatever follows the scalar in its mapping. -/
theorem head?_quote_iff {s : Scalar} {c : Char} (hc : endsEntry c = true) (rest : List Char) :
    ((atomText s.toAtom).toList ++ c :: rest).head? = some '"' ↔ scalarShape s = .string := by
  rw [← shapeOf_atomText, shapeOf_eq_string_iff]
  cases (atomText s.toAtom).toList with
  | nil =>
    have hne : c ≠ '"' := by
      rintro rfl
      cases hc
    simpa using hne
  | cons d ds => rfl

theorem atomText_append_injective {s s' : Scalar} {rest rest' : List Char} {c c' : Char}
    (hc : endsEntry c = true) (hc' : endsEntry c' = true)
    (h : (atomText s.toAtom).toList ++ c :: rest = (atomText s'.toAtom).toList ++ c' :: rest') :
    atomText s.toAtom = atomText s'.toAtom ∧ c :: rest = c' :: rest' := by
  have hquote : scalarShape s = .string ↔ scalarShape s' = .string := by
    rw [← head?_quote_iff hc rest, ← head?_quote_iff hc' rest', h]
  by_cases hstring : scalarShape s = .string
  · have hstring' := hquote.mp hstring
    obtain ⟨t, rfl⟩ := scalarShape_eq_string hstring
    obtain ⟨t', rfl⟩ := scalarShape_eq_string hstring'
    obtain ⟨rfl, hrest⟩ := stringText_append_injective h
    exact ⟨rfl, hrest⟩
  · have hstring' := mt hquote.mpr hstring
    have hspan {s : Scalar} (hs : scalarShape s ≠ .string) {c : Char} (hc : endsEntry c = true)
        (rest : List Char) :
        ((atomText s.toAtom).toList ++ c :: rest).takeWhile (fun c => !endsEntry c) =
            (atomText s.toAtom).toList := by
      rw [List.takeWhile_append_of_pos fun d hd => by simp [endsEntry_of_mem hs hd]]
      simp [hc]
    have htext : (atomText s.toAtom).toList = (atomText s'.toAtom).toList := by
      rw [← hspan hstring hc rest, h, hspan hstring' hc' rest']
    rw [htext] at h
    exact ⟨String.toList_inj.mp htext, List.append_cancel_left h⟩

end Json
end Workflow
