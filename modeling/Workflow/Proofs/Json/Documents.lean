import Workflow.Proofs.Json.Numbers
import Workflow.Proofs.Json.Scalars

/-!
# Reading documents that were written

The text of a document with a line for each part is read as that document, if its doubles are read
as they were written and its brackets are not nested too deeply. What follows the text is left as it
is, so that the parts of a document are read one after another.
-/
namespace Workflow

namespace Json

/-- The text of a double is read as that double. -/
def ReadsBack (x : Binary64) : Prop :=
  readValue 1 1 (Layout.json.write x).toList = some (.float x, [])

instance : DecidablePred ReadsBack := fun _ => inferInstanceAs (Decidable (_ = _))

end Json

namespace Atom

/-- What JSON can hold: integers of 64 bits, and doubles that are read as they were written. -/
def Legible : Atom → Prop
  | .int n => Document.leastInt64 ≤ n ∧ n ≤ Document.greatestNat64
  | .float x => Json.ReadsBack x
  | _ => True

end Atom

namespace Document

mutual

/-- A document that JSON can hold within a number of nested brackets: no spellings, no tags, and
texts for keys. -/
def Legible (depth : Nat) : Document → Prop
  | .atom a spelling => spelling = none ∧ a.Legible
  | .sequence items => 1 < depth ∧ LegibleItems (depth - 1) items
  | .mapping entries => 1 < depth ∧ LegibleEntries (depth - 1) entries
  | .tagged _ _ => False

def LegibleItems (depth : Nat) : List Document → Prop
  | [] => True
  | d :: ds => Legible depth d ∧ LegibleItems depth ds

def LegibleEntries (depth : Nat) : List (Document × Document) → Prop
  | [] => True
  | e :: es => LegibleEntry depth e ∧ LegibleEntries depth es

def LegibleEntry (depth : Nat) : Document × Document → Prop
  | (k, v) => (∃ s, k = .text s) ∧ Legible depth v

end

end Document

namespace Json
open Document

/-! ## Blanks -/

theorem skipBlanks_cons {c : Char} (h : isJsonBlank c = false) (cs : List Char) :
    skipBlanks (c :: cs) = c :: cs := by
  rw [skipBlanks, List.dropWhile_cons, h]
  rfl

theorem skipBlanks_append {blanks : List Char} (h : ∀ c ∈ blanks, isJsonBlank c = true)
    (cs : List Char) : skipBlanks (blanks ++ cs) = skipBlanks cs := by
  rw [skipBlanks, List.dropWhile_append_of_pos h]
  rfl

theorem skipBlanks_idem (cs : List Char) : skipBlanks (skipBlanks cs) = skipBlanks cs := by
  induction cs with
  | nil => rfl
  | cons c cs ih =>
    cases hc : isJsonBlank c with
    | true =>
      have hskip : skipBlanks (c :: cs) = skipBlanks cs := List.dropWhile_cons_of_pos hc
      rw [hskip, ih]
    | false => rw [skipBlanks_cons hc, skipBlanks_cons hc]

theorem readValue_skipBlanks (fuel depth : Nat) (cs : List Char) :
    readValue fuel depth (skipBlanks cs) = readValue fuel depth cs := by
  cases fuel with
  | zero => rfl
  | succ fuel => rw [readValue, readValue, skipBlanks_idem]

theorem readItems_skipBlanks (fuel depth : Nat) (seen : List Document) (cs : List Char) :
    readItems fuel depth seen (skipBlanks cs) = readItems fuel depth seen cs := by
  cases fuel with
  | zero => rfl
  | succ fuel => rw [readItems, readItems, readValue_skipBlanks]

theorem readEntries_skipBlanks (fuel depth : Nat) (seen : List (Document × Document))
    (cs : List Char) :
    readEntries fuel depth seen (skipBlanks cs) = readEntries fuel depth seen cs := by
  cases fuel with
  | zero => rfl
  | succ fuel => rw [readEntries, readEntries, skipBlanks_idem]

/-! ## Atoms -/

theorem isJsonBlank_of_digit {c : Char} (h : isAsciiDigit c = true) : isJsonBlank c = false := by
  by_contra hblank
  have hends : endsValue c = true := by simp [endsValue, Bool.not_eq_false _ ▸ hblank]
  rw [isAsciiDigit_of_endsValue hends] at h
  cases h

theorem readValue_digit {c : Char} (h : isAsciiDigit c = true) (fuel depth : Nat)
    (cs : List Char) : readValue (fuel + 1) depth (c :: cs) = readNumber false (c :: cs) := by
  rw [readValue, skipBlanks_cons (isJsonBlank_of_digit h)]
  split <;> first | rfl | (rename_i heq; cases heq; cases h)

theorem readValue_minus (fuel depth : Nat) (cs : List Char) :
    readValue (fuel + 1) depth ('-' :: cs) = readNumber true cs := rfl

theorem readValue_number {cs : List Char} (hcs : ∀ c, cs.head? = some c → c.isDigit = true)
    (hne : cs ≠ []) {d : Document} (h : readNumber false cs = some (d, [])) {rest : List Char}
    (hrest : Ends rest) (fuel depth : Nat) :
    readValue (fuel + 1) depth (cs ++ rest) = some (d, rest) := by
  have hread := hrest.readNumber_append false hne
  rw [h] at hread
  cases cs with
  | nil => exact absurd rfl hne
  | cons c cs =>
    rw [List.cons_append] at hread ⊢
    rw [readValue_digit (hcs c rfl), hread]
    rfl

theorem readValue_negative {cs : List Char} (hne : cs ≠ []) {d : Document}
    (h : readNumber true cs = some (d, [])) {rest : List Char} (hrest : Ends rest)
    (fuel depth : Nat) : readValue (fuel + 1) depth ('-' :: cs ++ rest) = some (d, rest) := by
  rw [List.cons_append, readValue_minus, hrest.readNumber_append true hne, h]
  rfl

theorem readValue_int {n : Int} (hleast : leastInt64 ≤ n) (hgreatest : n ≤ greatestNat64)
    {rest : List Char} (hrest : Ends rest) (fuel depth : Nat) :
    readValue (fuel + 1) depth ((toString n).toList ++ rest) = some (.int n, rest) := by
  have hle : n.natAbs ≤ greatestNat64 := by
    simp only [leastInt64, greatestNat64] at *
    omega
  have hdigits := allDigits_toDigits n.natAbs
  rw [Numeral.toList_toString_int]
  rcases lt_or_ge n 0 with hneg | hpos
  · rw [if_pos hneg, List.singleton_append]
    refine readValue_negative Nat.toDigits_ne_nil ?_ hrest fuel depth
    rw [readNumber_toDigits hle, if_neg (by decide), if_neg]
    · rw [show -(n.natAbs : Int) = n by omega]
    · simp only [leastInt64] at hleast
      omega
  · rw [if_neg (by omega), List.nil_append]
    refine readValue_number (fun c hc => hdigits c (List.mem_of_mem_head? hc))
      Nat.toDigits_ne_nil ?_ hrest fuel depth
    rw [readNumber_toDigits hle, if_pos (by decide), show (n.natAbs : Int) = n by omega]

theorem readValue_float {x : Binary64} (h : ReadsBack x) {rest : List Char} (hrest : Ends rest)
    (fuel depth : Nat) :
    readValue (fuel + 1) depth ((Layout.json.write x).toList ++ rest) =
      some (.float x, rest) := by
  unfold ReadsBack at h
  cases x with
  | nan => cases h
  | infinite negative => cases negative <;> cases h
  | finite negative m e =>
    have hhead := Layout.head_numeral Layout.json m e
    have hne := (Layout.valid_numeral Layout.json m e).text_ne
    rw [Layout.write_finite] at h ⊢
    generalize (Layout.json.numeral m e).text = cs at h hhead hne ⊢
    cases negative with
    | true => exact readValue_negative hne h hrest fuel depth
    | false =>
      cases cs with
      | nil => exact absurd rfl hne
      | cons c cs =>
        have hnumber : readNumber false (c :: cs) = some (.float (.finite false m e), []) :=
          readValue_digit (hhead c rfl) 0 1 cs ▸ h
        exact readValue_number hhead hne hnumber hrest fuel depth

theorem readValue_text (s : String) (rest : List Char) (fuel depth : Nat) :
    readValue (fuel + 1) depth ((stringText s).toList ++ rest) = some (.text s, rest) := by
  have hstring := readStringRest_escaped [] s.toList rest
  rw [List.reverse_nil, List.nil_append, String.ofList_toList] at hstring
  rw [toList_stringText, List.cons_append, List.append_assoc, List.singleton_append, readValue,
    skipBlanks_cons (by decide)]
  simp only [hstring, Option.map_some]

theorem readValue_atom {a : Atom} (h : a.Legible) {rest : List Char} (hrest : Ends rest)
    (fuel depth : Nat) :
    readValue (fuel + 1) depth ((atomText a).toList ++ rest) = some (.atom a none, rest) := by
  cases a with
  | null => rfl
  | bool b => cases b <;> rfl
  | int n => exact readValue_int h.1 h.2 hrest fuel depth
  | float x => exact readValue_float h hrest fuel depth
  | text s => exact readValue_text s rest fuel depth

/-! ## Parts between brackets -/

theorem toList_lineBreak (level : Nat) :
    (lineBreak level).toList = '\n' :: List.replicate (2 * level) ' ' := by
  rw [lineBreak, String.toList_append]
  exact congrArg (['\n'] ++ ·) String.toList_ofList

theorem skipBlanks_lineBreak (level : Nat) (cs : List Char) :
    skipBlanks ((lineBreak level).toList ++ cs) = skipBlanks cs := by
  refine skipBlanks_append (fun c hc => ?_) cs
  rw [toList_lineBreak] at hc
  rcases List.mem_cons.mp hc with rfl | hc
  · rfl
  · obtain rfl : c = ' ' := List.eq_of_mem_replicate hc
    rfl

/-- What stands behind the first of the parts between brackets, up to the closing one. -/
def tailText (closing : Char) (level : Nat) : List String → List Char
  | [] => (lineBreak level).toList ++ [closing]
  | p :: ps => ',' :: ((lineBreak (level + 1)).toList ++ p.toList ++ tailText closing level ps)

def partsText (closing : Char) (level : Nat) : List String → List Char
  | [] => []
  | p :: ps => p.toList ++ tailText closing level ps

def bracketText (opening closing : Char) (level : Nat) : List String → List Char
  | [] => [opening, closing]
  | p :: ps => opening :: ((lineBreak (level + 1)).toList ++ partsText closing level (p :: ps))

theorem toList_bracketed {o c : String} {opening closing : Char} (ho : o.toList = [opening])
    (hc : c.toList = [closing]) (level : Nat) (ps : List String) :
    (bracketed o c level ps).toList = bracketText opening closing level ps := by
  have htail (p : String) (ps : List String) :
      (("," ++ lineBreak (level + 1)).intercalate (p :: ps)).toList ++
        ((lineBreak level).toList ++ [closing]) = p.toList ++ tailText closing level ps := by
    induction ps generalizing p with
    | nil => rw [String.intercalate_singleton, tailText]
    | cons q ps ih =>
      have hcomma : ",".toList = [','] := rfl
      rw [String.intercalate_cons_cons, tailText]
      simp only [String.toList_append, List.append_assoc, ih, hcomma]
      rfl
  cases ps with
  | nil =>
    rw [bracketed, List.isEmpty_nil, if_pos rfl, String.toList_append, ho, hc]
    rfl
  | cons p ps =>
    rw [bracketed, if_neg (by simp)]
    simp only [String.toList_append, ho, hc, List.append_assoc, htail]
    rfl

theorem toList_brackets (level : Nat) (ps : List String) :
    (bracketed "[" "]" level ps).toList = bracketText '[' ']' level ps :=
  toList_bracketed rfl rfl level ps

theorem toList_braces (level : Nat) (ps : List String) :
    (bracketed "\x7b" "\x7d" level ps).toList = bracketText '\x7b' '\x7d' level ps :=
  toList_bracketed rfl rfl level ps

theorem length_tailText_pos (closing : Char) (level : Nat) (ps : List String) :
    0 < (tailText closing level ps).length := by
  cases ps with
  | nil =>
    rw [tailText, List.length_append, List.length_singleton]
    omega
  | cons p ps => exact Nat.zero_lt_succ _

theorem length_partsText_lt (closing : Char) (level : Nat) (p : String) (ps : List String) :
    (partsText closing level (p :: ps)).length < (tailText closing level (p :: ps)).length := by
  rw [partsText, tailText, List.length_cons, List.append_assoc]
  generalize p.toList ++ tailText closing level ps = parts
  rw [List.length_append]
  omega

theorem length_partsText_lt_bracketText (opening closing : Char) (level : Nat)
    (ps : List String) :
    (partsText closing level ps).length < (bracketText opening closing level ps).length := by
  cases ps with
  | nil => exact Nat.zero_lt_succ _
  | cons p ps =>
    rw [bracketText, List.length_cons, List.length_append]
    omega

theorem skipBlanks_tailText_nil {closing : Char} (h : isJsonBlank closing = false) (level : Nat)
    (rest : List Char) : skipBlanks (tailText closing level [] ++ rest) = closing :: rest := by
  rw [tailText, List.append_assoc, skipBlanks_lineBreak]
  exact skipBlanks_cons h rest

theorem skipBlanks_tailText_cons (closing : Char) (level : Nat) (p : String) (ps : List String)
    (rest : List Char) : skipBlanks (tailText closing level (p :: ps) ++ rest) =
      ',' :: ((lineBreak (level + 1)).toList ++
        (partsText closing level (p :: ps) ++ rest)) := by
  rw [tailText, partsText, List.append_assoc, List.cons_append, List.append_assoc]
  exact skipBlanks_cons (by decide) _

theorem ends_tailText (closing : Char) (level : Nat) (ps : List String) (rest : List Char) :
    Ends (tailText closing level ps ++ rest) := by
  cases ps with
  | nil =>
    rw [tailText, toList_lineBreak]
    exact ends_cons rfl _
  | cons p ps => exact ends_cons (c := ',') rfl _

/-! ## Where a value begins -/

/-- A value begins with neither a blank nor a closing bracket. -/
def Opens (cs : List Char) : Prop :=
  ∃ c tail, cs = c :: tail ∧ isJsonBlank c = false ∧ c ≠ ']'

theorem opens_digit {cs : List Char} (hne : cs ≠ [])
    (h : ∀ c, cs.head? = some c → c.isDigit = true) : Opens cs := by
  cases cs with
  | nil => exact absurd rfl hne
  | cons c tail =>
    have hc : isAsciiDigit c = true := h c rfl
    refine ⟨c, tail, rfl, isJsonBlank_of_digit hc, ?_⟩
    rintro rfl
    cases hc

theorem opens_atomText (a : Atom) : Opens (atomText a).toList := by
  cases a with
  | null => exact ⟨'n', _, rfl, rfl, by decide⟩
  | bool b => cases b <;> exact ⟨_, _, rfl, rfl, by decide⟩
  | int n =>
    rw [atomText, Numeral.toList_toString_int]
    split_ifs
    · exact ⟨'-', _, rfl, rfl, by decide⟩
    · exact opens_digit Nat.toDigits_ne_nil fun c hc =>
        allDigits_toDigits _ c (List.mem_of_mem_head? hc)
  | float x =>
    cases x with
    | nan => exact ⟨'n', _, rfl, rfl, by decide⟩
    | infinite negative => cases negative <;> exact ⟨'n', _, rfl, rfl, by decide⟩
    | finite negative m e =>
      rw [atomText, Layout.write_finite]
      cases negative with
      | true => exact ⟨'-', _, rfl, rfl, by decide⟩
      | false =>
        exact opens_digit (Layout.valid_numeral Layout.json m e).text_ne
          (Layout.head_numeral Layout.json m e)
  | text s =>
    rw [atomText, toList_stringText]
    exact ⟨'"', _, rfl, rfl, by decide⟩

theorem opens_bracketText {opening : Char} (hblank : isJsonBlank opening = false)
    (hne : opening ≠ ']') (closing : Char) (level : Nat) (ps : List String) :
    Opens (bracketText opening closing level ps) := by
  cases ps <;> exact ⟨opening, _, rfl, hblank, hne⟩

theorem opens_prettyAt (level : Nat) : (d : Document) → Opens (prettyAt level d).toList
  | .atom a _ => by
    rw [prettyAt]
    exact opens_atomText a
  | .sequence items => by
    rw [prettyAt, toList_brackets]
    exact opens_bracketText rfl (by decide) _ level _
  | .mapping entries => by
    rw [prettyAt, toList_braces]
    exact opens_bracketText rfl (by decide) _ level _
  | .tagged _ inner => by
    rw [prettyAt]
    exact opens_prettyAt level inner

/-! ## Steps of the reader -/

section
variable {fuel depth : Nat} {cs rest after : List Char} {d : Document}

theorem readItems_last (hvalue : readValue fuel depth cs = some (d, rest))
    (hrest : skipBlanks rest = ']' :: after) (seen : List Document) :
    readItems (fuel + 1) depth seen cs = some (.sequence (seen.reverse ++ [d]), after) := by
  rw [readItems, hvalue]
  simp only [hrest, List.reverse_cons]

theorem readItems_next (hvalue : readValue fuel depth cs = some (d, rest))
    (hrest : skipBlanks rest = ',' :: after) (seen : List Document) :
    readItems (fuel + 1) depth seen cs = readItems fuel depth (d :: seen) after := by
  rw [readItems, hvalue]
  simp only [hrest]

theorem entry_value (s : String) (hvalue : readValue fuel depth cs = some (d, rest)) :
    skipBlanks ((stringText s).toList ++ ':' :: ' ' :: cs) =
        '"' :: (escaped s.toList ++ '"' :: ':' :: ' ' :: cs) ∧
      readStringRest [] (escaped s.toList ++ '"' :: ':' :: ' ' :: cs) =
        some (s, ':' :: ' ' :: cs) ∧
      skipBlanks (':' :: ' ' :: cs) = ':' :: ' ' :: cs ∧
      readValue fuel depth (' ' :: cs) = some (d, rest) := by
  have hstring := readStringRest_escaped [] s.toList (':' :: ' ' :: cs)
  rw [List.reverse_nil, List.nil_append, String.ofList_toList] at hstring
  refine ⟨?_, hstring, skipBlanks_cons (by decide) _, ?_⟩
  · rw [toList_stringText, List.cons_append, List.append_assoc, List.singleton_append]
    exact skipBlanks_cons (by decide) _
  · rw [← readValue_skipBlanks] at hvalue ⊢
    exact hvalue

theorem readEntries_last (s : String) (hvalue : readValue fuel depth cs = some (d, rest))
    (hrest : skipBlanks rest = '\x7d' :: after) (seen : List (Document × Document)) :
    readEntries (fuel + 1) depth seen ((stringText s).toList ++ ':' :: ' ' :: cs) =
      some (.mapping (seen.reverse ++ [(.text s, d)]), after) := by
  obtain ⟨hquote, hstring, hcolon, hspace⟩ := entry_value s hvalue
  rw [readEntries, hquote]
  simp only [hstring, hcolon, hspace, hrest, List.reverse_cons]

theorem readEntries_next (s : String) (hvalue : readValue fuel depth cs = some (d, rest))
    (hrest : skipBlanks rest = ',' :: after) (seen : List (Document × Document)) :
    readEntries (fuel + 1) depth seen ((stringText s).toList ++ ':' :: ' ' :: cs) =
      readEntries fuel depth ((.text s, d) :: seen) after := by
  obtain ⟨hquote, hstring, hcolon, hspace⟩ := entry_value s hvalue
  rw [readEntries, hquote]
  simp only [hstring, hcolon, hspace, hrest]

theorem readValue_items {ps : List String} (hdepth : 1 < depth) (level : Nat)
    (hopens : ∀ p qs, ps = p :: qs → Opens p.toList) (hempty : ps = [] → d = .sequence [])
    (hread : ps ≠ [] →
      readItems fuel (depth - 1) [] (partsText ']' level ps ++ rest) = some (d, rest)) :
    readValue (fuel + 1) depth (bracketText '[' ']' level ps ++ rest) = some (d, rest) := by
  cases ps with
  | nil =>
    rw [hempty rfl, bracketText, List.cons_append, readValue, skipBlanks_cons (by decide)]
    simp only [if_neg (Nat.not_le_of_lt hdepth)]
    rfl
  | cons p ps =>
    obtain ⟨c, tail, htext, hblank, hne⟩ := hopens p ps rfl
    have hread := hread nofun
    rw [partsText, htext, List.cons_append, List.cons_append] at hread
    rw [bracketText, partsText, htext, List.cons_append, readValue, skipBlanks_cons (by decide)]
    simp only [if_neg (Nat.not_le_of_lt hdepth), List.append_assoc, skipBlanks_lineBreak,
      List.cons_append, skipBlanks_cons hblank]
    split
    · rename_i heq
      exact absurd (List.cons.inj heq).1 hne
    · rw [← List.append_assoc]
      exact hread

theorem readValue_entries {ps : List String} (hdepth : 1 < depth) (level : Nat)
    (hquote : ∀ p qs, ps = p :: qs → ∃ tail, p.toList = '"' :: tail)
    (hempty : ps = [] → d = .mapping [])
    (hread : ps ≠ [] →
      readEntries fuel (depth - 1) [] (partsText '\x7d' level ps ++ rest) = some (d, rest)) :
    readValue (fuel + 1) depth (bracketText '\x7b' '\x7d' level ps ++ rest) = some (d, rest) := by
  cases ps with
  | nil =>
    rw [hempty rfl, bracketText, List.cons_append, readValue, skipBlanks_cons (by decide)]
    simp only [if_neg (Nat.not_le_of_lt hdepth)]
    rfl
  | cons p ps =>
    obtain ⟨tail, htext⟩ := hquote p ps rfl
    have hread := hread nofun
    rw [partsText, htext, List.cons_append, List.cons_append] at hread
    rw [bracketText, partsText, htext, List.cons_append, readValue, skipBlanks_cons (by decide)]
    simp only [if_neg (Nat.not_le_of_lt hdepth), List.append_assoc, skipBlanks_lineBreak,
      List.cons_append, skipBlanks_cons (show isJsonBlank '"' = false by decide)]
    rw [← List.append_assoc]
    exact hread

end

/-! ## Documents -/

theorem toList_prettyEntry (level : Nat) (s : String) (d : Document) :
    (prettyEntry level (.text s, d)).toList =
      (stringText s).toList ++ ':' :: ' ' :: (prettyAt level d).toList := by
  rw [prettyEntry, String.toList_append, String.toList_append, List.append_assoc]
  rfl

mutual

/-- The text of a document is read as the document, and what follows it is left. -/
theorem readValue_prettyAt : (d : Document) → ∀ {depth : Nat}, d.Legible depth →
    ∀ (level : Nat) {fuel : Nat} {rest : List Char}, (prettyAt level d).toList.length ≤ fuel →
      Ends rest → readValue fuel depth ((prettyAt level d).toList ++ rest) = some (d, rest)
  -- by recursion on the document, together with items and entries; the length of the text bounds
  -- the fuel, and the parts are shorter
  | .atom a spelling, depth, h, level, fuel, rest, hfuel, hrest => by
    obtain ⟨rfl, ha⟩ := h
    rw [prettyAt] at hfuel ⊢
    obtain ⟨c, tail, htext, -⟩ := opens_atomText a
    rw [htext, List.length_cons] at hfuel
    obtain ⟨fuel, rfl⟩ := Nat.exists_eq_add_of_le' (Nat.le_of_add_left_le hfuel)
    exact readValue_atom ha hrest fuel depth
  | .sequence items, depth, h, level, fuel, rest, hfuel, hrest => by
    obtain ⟨hdepth, hitems⟩ := h
    have hread := @readItems_pretty items (depth - 1) hitems level
    rw [prettyAt, toList_brackets] at hfuel ⊢
    have hlength := length_partsText_lt_bracketText '[' ']' level (prettyItems (level + 1) items)
    obtain ⟨fuel, rfl⟩ := Nat.exists_eq_add_of_le' (show 1 ≤ fuel by omega)
    refine readValue_items hdepth level ?_ ?_ fun hne => hread ?_ (by omega)
    · intro p ps hps
      cases items with
      | nil => cases hps
      | cons d ds =>
        cases hps
        exact opens_prettyAt (level + 1) d
    · intro hps
      cases items with
      | nil => rfl
      | cons d ds => cases hps
    · rintro rfl
      exact hne rfl
  | .mapping entries, depth, h, level, fuel, rest, hfuel, hrest => by
    obtain ⟨hdepth, hentries⟩ := h
    have hread := @readEntries_pretty entries (depth - 1) hentries level
    rw [prettyAt, toList_braces] at hfuel ⊢
    have hlength :=
      length_partsText_lt_bracketText '\x7b' '\x7d' level (prettyEntries (level + 1) entries)
    obtain ⟨fuel, rfl⟩ := Nat.exists_eq_add_of_le' (show 1 ≤ fuel by omega)
    refine readValue_entries hdepth level ?_ ?_ fun hne => hread ?_ (by omega)
    · intro p ps hps
      cases entries with
      | nil => cases hps
      | cons e es =>
        obtain ⟨k, v⟩ := e
        obtain ⟨⟨⟨s, rfl⟩, -⟩, -⟩ := hentries
        cases hps
        rw [toList_prettyEntry, toList_stringText]
        exact ⟨_, rfl⟩
    · intro hps
      cases entries with
      | nil => rfl
      | cons e es => cases hps
    · rintro rfl
      exact hne rfl
  | .tagged _ _, _, h, _, _, _, _, _ => h.elim

theorem readItems_pretty : (items : List Document) → ∀ {depth : Nat}, LegibleItems depth items →
    ∀ (level : Nat) {fuel : Nat} {rest : List Char} {seen : List Document}, items ≠ [] →
    (partsText ']' level (prettyItems (level + 1) items)).length ≤ fuel →
      readItems fuel depth seen (partsText ']' level (prettyItems (level + 1) items) ++ rest) =
        some (.sequence (seen.reverse ++ items), rest)
  | [], _, _, _, _, _, _, hne, _ => absurd rfl hne
  | d :: ds, depth, h, level, fuel, rest, seen, _, hfuel => by
    obtain ⟨hd, hds⟩ := h
    have hnext := @readItems_pretty ds depth hds level
    rw [prettyItems, partsText] at hfuel ⊢
    have hpos := length_tailText_pos ']' level (prettyItems (level + 1) ds)
    rw [List.length_append] at hfuel
    obtain ⟨fuel, rfl⟩ := Nat.exists_eq_add_of_le' (show 1 ≤ fuel by omega)
    have hvalue := readValue_prettyAt d hd (level + 1) (show _ ≤ fuel by omega)
      (ends_tailText ']' level (prettyItems (level + 1) ds) rest)
    rw [List.append_assoc]
    cases ds with
    | nil => exact readItems_last hvalue (skipBlanks_tailText_nil (by decide) level rest) seen
    | cons d' ds =>
      have hlength := length_partsText_lt ']' level (prettyAt (level + 1) d')
        (prettyItems (level + 1) ds)
      rw [prettyItems] at hfuel hnext hvalue ⊢
      rw [readItems_next hvalue (skipBlanks_tailText_cons _ _ _ _ rest), ← readItems_skipBlanks,
        skipBlanks_lineBreak, readItems_skipBlanks, hnext nofun (by omega), List.reverse_cons,
        List.append_assoc]
      rfl

theorem readEntries_pretty : (entries : List (Document × Document)) → ∀ {depth : Nat},
    LegibleEntries depth entries → ∀ (level : Nat) {fuel : Nat} {rest : List Char}
    {seen : List (Document × Document)}, entries ≠ [] →
    (partsText '\x7d' level (prettyEntries (level + 1) entries)).length ≤ fuel →
      readEntries fuel depth seen
          (partsText '\x7d' level (prettyEntries (level + 1) entries) ++ rest) =
        some (.mapping (seen.reverse ++ entries), rest)
  | [], _, _, _, _, _, _, hne, _ => absurd rfl hne
  | (k, d) :: es, depth, h, level, fuel, rest, seen, _, hfuel => by
    obtain ⟨⟨⟨s, rfl⟩, hd⟩, hes⟩ := h
    have hnext := @readEntries_pretty es depth hes level
    rw [prettyEntries, partsText, toList_prettyEntry] at hfuel ⊢
    have hpos := length_tailText_pos '\x7d' level (prettyEntries (level + 1) es)
    simp only [List.length_append, List.length_cons] at hfuel
    obtain ⟨fuel, rfl⟩ := Nat.exists_eq_add_of_le' (show 1 ≤ fuel by omega)
    have hvalue := readValue_prettyAt d hd (level + 1) (show _ ≤ fuel by omega)
      (ends_tailText '\x7d' level (prettyEntries (level + 1) es) rest)
    rw [List.append_assoc, List.append_assoc]
    cases es with
    | nil =>
      exact readEntries_last s hvalue (skipBlanks_tailText_nil (by decide) level rest) seen
    | cons e es =>
      have hlength := length_partsText_lt '\x7d' level (prettyEntry (level + 1) e)
        (prettyEntries (level + 1) es)
      rw [prettyEntries] at hfuel hnext hvalue ⊢
      have hstep := readEntries_next s hvalue (skipBlanks_tailText_cons _ _ _ _ rest) seen
      rw [List.cons_append, List.cons_append, hstep, ← readEntries_skipBlanks,
        skipBlanks_lineBreak, readEntries_skipBlanks, hnext nofun (by omega), List.reverse_cons,
        List.append_assoc]
      rfl

end

/-- What is written with a line for each part is read as it was. -/
theorem read?_pretty {d : Document} (h : d.Legible 128) : read? (pretty d) = some d := by
  have hfuel : (prettyAt 0 d).toList.length ≤ 2 * (pretty d).toList.length + 2 := by
    rw [pretty]
    omega
  have hread := readValue_prettyAt d h 0 hfuel ends_nil
  rw [List.append_nil, ← pretty] at hread
  rw [read?]
  simp only [hread]
  rfl

end Json
end Workflow
