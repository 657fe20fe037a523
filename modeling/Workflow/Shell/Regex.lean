import Workflow.Shell.Pattern
import Workflow.Text.Digits

/-!
# Regular expressions

The basic and the extended form. In the basic form groups are written with backward slashes, in the
extended form without. A search finds the first place that fits, and repetitions take as much as
they can.
-/
namespace Workflow.Shell

inductive Regex where
  | nothing
  | char (c : Char)
  | anyChar
  | oneOf (s : CharSet)
  | lineStart
  | lineEnd
  | both (a b : Regex)
  | either (a b : Regex)
  /-- At least `least` times, and at most `most` times if there is a limit. -/
  | repeated (a : Regex) (least : Nat) (most : Option Nat)
  | group (index : Nat) (a : Regex)
  | back (index : Nat)
  deriving Repr

namespace Regex

/-- How far a search has got: what is ahead, what has been passed, and the groups found. -/
structure Cursor where
  ahead : List Char
  passed : Nat
  groups : List (Nat × List Char)

/-- The expression at a cursor, followed by the rest of a search. -/
def run : Nat → Regex → Cursor → (Cursor → Option Cursor) → Option Cursor
  | 0, _, _, _ => none
  | fuel + 1, r, c, next =>
    let one (accepted : Char → Bool) : Option Cursor :=
      match c.ahead with
      | [] => none
      | d :: rest => if accepted d then next ⟨rest, c.passed + 1, c.groups⟩ else none
    match r with
    | nothing => next c
    | char d => one (· == d)
    | anyChar => one fun _ => true
    | oneOf s => one s.contains
    | lineStart => if c.passed = 0 then next c else none
    | lineEnd => if c.ahead.isEmpty then next c else none
    | both a b => run fuel a c fun c => run fuel b c next
    | either a b => run fuel a c next <|> run fuel b c next
    | repeated a least most =>
      let more : Option Cursor :=
        if most = some 0 then none
        else
          run fuel a c fun d =>
            -- a turn that takes nothing would be repeated for ever
            if d.passed = c.passed then none
            else run fuel (.repeated a (least - 1) (most.map (· - 1))) d next
      if least = 0 then more <|> next c else more
    | group i a =>
      run fuel a c fun d =>
        next { d with groups := (i, c.ahead.take (d.passed - c.passed)) :: d.groups }
    | back i =>
      let text := (c.groups.lookup i).getD []
      if text.isPrefixOf c.ahead then
        next ⟨c.ahead.drop text.length, c.passed + text.length, c.groups⟩
      else none

def size : Regex → Nat
  | both a b | either a b => a.size + b.size + 1
  | repeated a _ _ | group _ a => a.size + 1
  | _ => 1

/-- The length and the groups of what fits at the beginning of a text. -/
def matchAt (r : Regex) (passed : Nat) (cs : List Char) : Option (Nat × List (Nat × List Char)) :=
  let fuel := (cs.length + 2) * (r.size + 2)
  (run fuel r ⟨cs, passed, []⟩ some).map fun c => (c.passed - passed, c.groups)

/-- The first place in a text that fits: what is before it, its length and its groups. -/
def search (r : Regex) : Nat → List Char → List Char →
    Option (List Char × Nat × List (Nat × List Char))
  | passed, before, cs =>
    match r.matchAt passed cs with
    | some (n, groups) => some (before.reverse, n, groups)
    | none =>
      match cs with
      | [] => none
      | c :: rest => search r (passed + 1) (c :: before) rest

/-! ## Reading -/

/-- A repetition that follows an expression. -/
def repetition? (extended : Bool) : List Char → Option ((Nat × Option Nat) × List Char)
  | '*' :: rest => some ((0, none), rest)
  | cs =>
    let counted (rest : List Char) (closing : List Char) :
        Option ((Nat × Option Nat) × List Char) :=
      let low := rest.takeWhile isAsciiDigit
      let after := rest.drop low.length
      let ending (most : Option Nat) (cs : List Char) : Option ((Nat × Option Nat) × List Char) :=
        if closing.isPrefixOf cs then some ((decimalValue low, most), cs.drop closing.length)
        else none
      match after with
      | ',' :: after =>
        let high := after.takeWhile isAsciiDigit
        ending (if high.isEmpty then none else some (decimalValue high)) (after.drop high.length)
      | after => ending (some (decimalValue low)) after
    match extended, cs with
    | true, '+' :: rest => some ((1, none), rest)
    | true, '?' :: rest => some ((0, some 1), rest)
    | true, '\x7b' :: rest => counted rest ['\x7d']
    | false, '\\' :: '+' :: rest => some ((1, none), rest)
    | false, '\\' :: '?' :: rest => some ((0, some 1), rest)
    | false, '\\' :: '\x7b' :: rest => counted rest ['\\', '\x7d']
    | _, _ => none

/-- The opening or closing of a group, or the bar between alternatives, in either form. -/
def mark? (extended : Bool) (c : Char) (cs : List Char) : Option (List Char) :=
  match extended, cs with
  | true, d :: rest => if d = c then some rest else none
  | false, '\\' :: d :: rest => if d = c then some rest else none
  | _, _ => none

/-- A character that stands for itself after a backward slash, or something special. -/
def escaped (c : Char) : Regex :=
  match c with
  | 'n' => .char '\n'
  | 't' => .char '\t'
  | 's' => .oneOf ⟨false, CharSet.namedClass "space"⟩
  | 'w' => .oneOf ⟨false, ('_', '_') :: CharSet.namedClass "alnum"⟩
  | c => if '1' ≤ c && c ≤ '9' then .back (c.toNat - 48) else .char c

mutual

def readAlternatives (extended : Bool) :
    Nat → Nat → List Char → Option (Regex × Nat × List Char)
  | 0, _, _ => none
  | fuel + 1, opened, cs => do
    let (a, opened, rest) ← readSequence extended fuel opened .nothing cs
    match mark? extended '|' rest with
    | none => return (a, opened, rest)
    | some rest =>
      let (b, opened, rest) ← readAlternatives extended fuel opened rest
      return (.either a b, opened, rest)

def readSequence (extended : Bool) :
    Nat → Nat → Regex → List Char → Option (Regex × Nat × List Char)
  | 0, _, _, _ => none
  | fuel + 1, opened, before, cs =>
    if cs.isEmpty || (mark? extended '|' cs).isSome || (mark? extended ')' cs).isSome then
      some (before, opened, cs)
    else do
      let (a, opened, rest) ← readItem extended fuel opened cs
      let (a, rest) := readRepetitions extended rest.length a rest
      readSequence extended fuel opened (.both before a) rest

def readItem (extended : Bool) : Nat → Nat → List Char → Option (Regex × Nat × List Char)
  | 0, _, _ => none
  | fuel + 1, opened, cs =>
    match mark? extended '(' cs with
    | some rest => do
      let (a, opened', rest) ← readAlternatives extended fuel (opened + 1) rest
      let rest ← mark? extended ')' rest
      return (.group (opened + 1) a, opened', rest)
    | none =>
      match cs with
      | [] => none
      | '.' :: rest => some (.anyChar, opened, rest)
      | '^' :: rest => some (.lineStart, opened, rest)
      | '$' :: rest =>
        some (if extended || rest.isEmpty || (mark? false ')' rest).isSome then .lineEnd
          else .char '$', opened, rest)
      | '[' :: rest => (CharSet.read? rest).map fun (s, rest) => (.oneOf s, opened, rest)
      | '\\' :: c :: rest => some (escaped c, opened, rest)
      | c :: rest => some (.char c, opened, rest)

def readRepetitions (extended : Bool) : Nat → Regex → List Char → Regex × List Char
  | 0, a, cs => (a, cs)
  | fuel + 1, a, cs =>
    match repetition? extended cs with
    | some ((least, most), rest) => readRepetitions extended fuel (.repeated a least most) rest
    | none => (a, cs)

end

def ofChars? (extended : Bool) (cs : List Char) : Option Regex := do
  let (r, _, rest) ← readAlternatives extended (4 * cs.length + 4) 0 cs
  if rest.isEmpty then return r else none

end Regex
end Workflow.Shell
