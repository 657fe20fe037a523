/-!
# Patterns

A pattern describes whole texts: `*` stands for any text, `?` for any character, and brackets for
one of several characters. Quoted characters stand for themselves.
-/
namespace Workflow.Shell

/-- Characters in brackets, as ranges. -/
structure CharSet where
  negated : Bool
  ranges : List (Char × Char)
  deriving DecidableEq, Repr

namespace CharSet

def contains (s : CharSet) (c : Char) : Bool :=
  (s.ranges.any fun r => r.1 ≤ c && c ≤ r.2) != s.negated

def namedClass (name : String) : List (Char × Char) :=
  match name with
  | "digit" => [('0', '9')]
  | "lower" => [('a', 'z')]
  | "upper" => [('A', 'Z')]
  | "alpha" => [('a', 'z'), ('A', 'Z')]
  | "alnum" => [('a', 'z'), ('A', 'Z'), ('0', '9')]
  | "space" => [(' ', ' '), ('\t', '\x0d')]
  | "blank" => [(' ', ' '), ('\t', '\t')]
  | "punct" => [('!', '/'), (':', '@'), ('[', '\x60'), ('\x7b', '~')]
  | "xdigit" => [('0', '9'), ('a', 'f'), ('A', 'F')]
  | _ => []

/-- Read the ranges up to the closing bracket. -/
def readRanges : Nat → List Char → Option (List (Char × Char) × List Char)
  | 0, _ => none
  | fuel + 1, cs =>
    match cs with
    | [] => none
    | ']' :: rest => some ([], rest)
    | '[' :: ':' :: rest =>
      let name := rest.takeWhile (· ≠ ':')
      match rest.drop name.length with
      | ':' :: ']' :: rest => do
        let (rs, rest) ← readRanges fuel rest
        return (namedClass (String.ofList name) ++ rs, rest)
      | _ => none
    | a :: '-' :: b :: rest =>
      if b = ']' then (readRanges fuel ('-' :: b :: rest)).map fun r => ((a, a) :: r.1, r.2)
      else (readRanges fuel rest).map fun r => ((a, b) :: r.1, r.2)
    | a :: rest => (readRanges fuel rest).map fun r => ((a, a) :: r.1, r.2)

/-- Read a set whose opening bracket has been read. A closing bracket in first place is a member. -/
def read? (cs : List Char) : Option (CharSet × List Char) :=
  let (negated, cs) :=
    match cs with
    | '!' :: rest | '^' :: rest => (true, rest)
    | cs => (false, cs)
  match cs with
  | ']' :: rest =>
    (readRanges (rest.length + 1) rest).map fun r => (⟨negated, (']', ']') :: r.1⟩, r.2)
  | cs => (readRanges (cs.length + 1) cs).map fun r => (⟨negated, r.1⟩, r.2)

end CharSet

inductive PatternItem where
  | char (c : Char)
  | anyChar
  | anyText
  | oneOf (s : CharSet)
  deriving DecidableEq, Repr

abbrev Pattern := List PatternItem

namespace Pattern

/-- The pattern of characters of which some are quoted. -/
def ofChars : Nat → List (Char × Bool) → Pattern
  | 0, _ | _, [] => []
  | fuel + 1, (c, quoted) :: rest =>
    if quoted then .char c :: ofChars fuel rest
    else if c = '*' then .anyText :: ofChars fuel rest
    else if c = '?' then .anyChar :: ofChars fuel rest
    else if c = '[' then
      match CharSet.read? (rest.map (·.1)) with
      | some (s, after) => .oneOf s :: ofChars fuel (rest.drop (rest.length - after.length))
      | none => .char c :: ofChars fuel rest
    else .char c :: ofChars fuel rest

def accepts : PatternItem → Char → Bool
  | .char d, c => c == d
  | .oneOf s, c => s.contains c
  | _, _ => true

def matches? : Pattern → List Char → Bool
  | [], cs => cs.isEmpty
  | .anyText :: p, [] => matches? p []
  | .anyText :: p, c :: cs => matches? p (c :: cs) || matches? (.anyText :: p) cs
  | _ :: _, [] => false
  | i :: p, c :: cs => accepts i c && matches? p cs
termination_by p cs => p.length + cs.length

/-- The shortest or longest beginning of a text that a pattern describes, by its length. -/
def startLength? (p : Pattern) (longest : Bool) (cs : List Char) : Option Nat :=
  let lengths := List.range (cs.length + 1)
  (if longest then lengths.reverse else lengths).find? fun n => matches? p (cs.take n)

/-- The shortest or longest end of a text that a pattern describes, by its length. -/
def endLength? (p : Pattern) (longest : Bool) (cs : List Char) : Option Nat :=
  let lengths := List.range (cs.length + 1)
  (if longest then lengths.reverse else lengths).find? fun n => matches? p (cs.drop (cs.length - n))

end Pattern
end Workflow.Shell
