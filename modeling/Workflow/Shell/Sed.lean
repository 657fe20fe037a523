import Workflow.Shell.TextTools

/-!
# Editing lines

A script is a list of commands, each for some lines. Every line is edited by all of them in their
order and then written.
-/
namespace Workflow.Shell

inductive Replacement where
  | text (s : String)
  /-- What has been found: all of it, or a group. -/
  | found (group : Nat)
  deriving Repr

/-- A line by its number, the last one, or those that an expression fits. -/
inductive Address where
  | number (n : Nat)
  | last
  | fitting (r : Regex)
  deriving Repr

inductive Edit where
  /-- Replace what fits, from an occurrence on, once or wherever it fits. -/
  | substitute (r : Regex) (replacement : List Replacement) (occurrence : Nat) (all print : Bool)
  | transliterate (source target : List Char)
  | print
  | delete
  | quit
  deriving Repr

/-- A command with the lines to which it applies. -/
structure EditCommand where
  first : Option Address
  last : Option Address
  negated : Bool
  edit : Edit
  deriving Repr

namespace Edit

/-- The text up to a delimiter. A delimiter after a backward slash belongs to the text. -/
def upTo (delimiter : Char) : List Char → Option (List Char × List Char)
  | [] => none
  | '\\' :: c :: rest =>
    (upTo delimiter rest).map fun (cs, rest) =>
      (if c = delimiter then c :: cs else '\\' :: c :: cs, rest)
  | c :: rest =>
    if c = delimiter then some ([], rest)
    else (upTo delimiter rest).map fun (cs, rest) => (c :: cs, rest)

def replacementOf : List Char → List Replacement
  | [] => []
  | '&' :: rest => .found 0 :: replacementOf rest
  | '\\' :: 'n' :: rest => .text "\n" :: replacementOf rest
  | '\\' :: 't' :: rest => .text "\t" :: replacementOf rest
  | '\\' :: c :: rest =>
    (if isAsciiDigit c then .found (c.toNat - 48) else .text (String.singleton c)) ::
      replacementOf rest
  | c :: rest => .text (String.singleton c) :: replacementOf rest

/-- A text with what has been found put in. -/
def fill (found : List Char) (groups : List (Nat × List Char)) (parts : List Replacement) :
    List Char :=
  parts.flatMap fun p =>
    match p with
    | .text s => s.toList
    | .found 0 => found
    | .found i => (groups.lookup i).getD []

/-- Replace what fits; `passed` characters and `count` occurrences are behind. -/
def replaceIn (r : Regex) (parts : List Replacement) (occurrence : Nat) (all : Bool) :
    Nat → Nat → Nat → List Char → List Char × Bool
  | 0, _, _, cs => (cs, false)
  | fuel + 1, passed, count, cs =>
    match r.search passed [] cs with
    | none => (cs, false)
    | some (before, n, groups) =>
      let here := cs.drop before.length
      let found := here.take n
      let rest := here.drop n
      let hit := occurrence ≤ count + 1
      let now := if hit then fill found groups parts else found
      if hit && ! all then (before ++ now ++ rest, true)
      else
        let (kept, rest) := if n = 0 then (rest.take 1, rest.drop 1) else ([], rest)
        let passed := passed + before.length + n + kept.length
        if n = 0 && rest.isEmpty && kept.isEmpty then (before ++ now, hit)
        else
          let (after, changed) := replaceIn r parts occurrence all fuel passed (count + 1) rest
          (before ++ now ++ kept ++ after, hit || changed)

/-! ## Reading scripts -/

def readAddress (extended : Bool) : List Char → Option (Option Address × List Char)
  | '$' :: rest => some (some .last, rest)
  | '/' :: rest => do
    let (cs, rest) ← upTo '/' rest
    return (some (.fitting (← Regex.ofChars? extended cs)), rest)
  | cs =>
    let digits := cs.takeWhile isAsciiDigit
    if digits.isEmpty then some (none, cs)
    else some (some (.number (decimalValue digits)), cs.drop digits.length)

def read? (extended : Bool) : List Char → Option (Edit × List Char)
  | 's' :: delimiter :: rest => do
    let (pattern, rest) ← upTo delimiter rest
    let (replacement, rest) ← upTo delimiter rest
    let flags := rest.takeWhile fun c => isAsciiDigit c || "gp".toList.contains c
    let r ← Regex.ofChars? extended pattern
    let digits := flags.filter isAsciiDigit
    let occurrence := if digits.isEmpty then 1 else decimalValue digits
    return (.substitute r (replacementOf replacement) occurrence (flags.contains 'g')
      (flags.contains 'p'), rest.drop flags.length)
  | 'y' :: delimiter :: rest => do
    let (source, rest) ← upTo delimiter rest
    let (target, rest) ← upTo delimiter rest
    return (.transliterate source target, rest)
  | 'p' :: rest => some (.print, rest)
  | 'd' :: rest => some (.delete, rest)
  | 'q' :: rest => some (.quit, rest)
  | _ => none

def readScript (extended : Bool) : Nat → List Char → Option (List EditCommand)
  | 0, _ => some []
  | fuel + 1, cs => do
    let cs := cs.dropWhile fun c => c.isWhitespace || c == ';'
    if cs.isEmpty then return []
    let (first, cs) ← readAddress extended cs
    let (last, cs) ←
      match cs with
      | ',' :: rest => readAddress extended rest
      | cs => some (none, cs)
    let cs := cs.dropWhile Char.isWhitespace
    let negated := cs.head? = some '!'
    let (edit, cs) ← read? extended (if negated then cs.tail else cs)
    return ⟨first, last, negated, edit⟩ :: (← readScript extended fuel cs)

end Edit

structure Editing where
  line : List Char
  written : List String
  deleted : Bool
  quitting : Bool
  /-- The commands whose ranges are open, by their place in the script. -/
  openRanges : List Nat

def Address.fits (a : Address) (number : Nat) (isLast : Bool) (line : List Char) : Bool :=
  match a with
  | .number n => n == number
  | .last => isLast
  | .fitting r => (r.search 0 [] line).isSome

/-- Does a command apply to a line? A range is open from a line that its first address fits up to
one that its last address fits. -/
def EditCommand.selects (c : EditCommand) (index number : Nat) (isLast : Bool) (e : Editing) :
    Bool × List Nat :=
  let fits (a : Address) : Bool := a.fits number isLast e.line
  let (selected, ranges) :=
    match c.first, c.last with
    | none, _ => (true, e.openRanges)
    | some a, none => (fits a, e.openRanges)
    | some a, some b =>
      if e.openRanges.contains index then
        let ends : Bool :=
          match b with
          | .number n => n ≤ number
          | b => fits b
        (true, if ends then e.openRanges.erase index else e.openRanges)
      else if fits a then
        let single : Bool :=
          match b with
          | .number n => n ≤ number
          | .last => isLast
          | .fitting _ => false
        (true, if single then e.openRanges else index :: e.openRanges)
      else (false, e.openRanges)
  (selected != c.negated, ranges)

def EditCommand.apply (number : Nat) (isLast : Bool) (e : Editing) (c : Nat × EditCommand) :
    Editing :=
  if e.deleted || e.quitting then e
  else
    let (selected, openRanges) := c.2.selects c.1 number isLast e
    let e := { e with openRanges }
    if ! selected then e
    else
      match c.2.edit with
      | .print => { e with written := e.written ++ [String.ofList e.line] }
      | .delete => { e with deleted := true }
      | .quit => { e with quitting := true }
      | .transliterate source target =>
        { e with line := e.line.map fun ch =>
            ((source.findIdx? (· == ch)).bind fun i => target[i]?).getD ch }
      | .substitute r parts occurrence all print =>
        let (line, changed) := Edit.replaceIn r parts occurrence all (e.line.length + 2) 0 0 e.line
        { e with
          line
          written := if changed && print then e.written ++ [String.ofList line] else e.written }

def editLines (commands : List (Nat × EditCommand)) (quiet : Bool) :
    Nat → List Nat → List String → List String
  | _, _, [] => []
  | number, openRanges, line :: rest =>
    let e := commands.foldl (EditCommand.apply number rest.isEmpty)
      (⟨line.toList, [], false, false, openRanges⟩ : Editing)
    let shown := e.written ++ if quiet || e.deleted then [] else [String.ofList e.line]
    if e.quitting then shown else shown ++ editLines commands quiet (number + 1) e.openRanges rest

/-- The scripts of the arguments, and the other arguments. -/
def scriptsOf : List String → List String × List String
  | "-e" :: script :: rest =>
    let (scripts, rest) := scriptsOf rest
    (script :: scripts, rest)
  | a :: rest =>
    let (scripts, rest) := scriptsOf rest
    (scripts, a :: rest)
  | [] => ([], [])

def sed : Tool := fun arguments => do
  let (scripts, rest) := scriptsOf arguments
  let (options, rest) := splitOptions rest
  let (script, paths) :=
    if scripts.isEmpty then (rest.headD "", rest.tail) else ("\n".intercalate scripts, rest)
  let extended := options.contains 'E' || options.contains 'r'
  match Edit.readScript extended (script.length + 1) script.toList with
  | none => failWith 1 "sed: -e expression #1, char 0: malformed script"
  | some commands =>
    let (status, texts) ← readAll "sed" paths
    let text := String.join texts
    let edited := editLines ((List.range commands.length).zip commands) (options.contains 'n') 1 []
      (linesOf text)
    let ending := if text.endsWith "\n" || edited.isEmpty then "" else "\n"
    put ((joinLines edited).dropEnd ending.length).toString
    return status

end Workflow.Shell
