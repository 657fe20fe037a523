import Workflow.Text.Digits

/-!
# Tokens of YAML texts

A YAML text is cut into tokens: indicators, scalars and properties. Changes of indentation show as
tokens that open and close block collections, so that the rest of the reader does not look at
columns. A text without a place for some character, with a misplaced indentation, or with an open
quote has no tokens.
-/
namespace Workflow.Yaml

inductive Token where
  | versionDirective (major minor : Nat)
  | tagDirective (handle start : String)
  | documentStart
  | documentEnd
  | blockSequenceStart
  | blockMappingStart
  | blockEnd
  | flowSequenceStart
  | flowSequenceEnd
  | flowMappingStart
  | flowMappingEnd
  | blockEntry
  | flowEntry
  | key
  | value
  | alias (name : String)
  | anchor (name : String)
  | tag (handle suffix : String)
  | scalar (text : String) (plain : Bool)
  | streamEnd
  deriving DecidableEq, Repr

/-! ## Characters -/

def isLineBreak (c : Char) : Bool :=
  c == '\n' || c == '\r' || c == '\x85' || c == '\u2028' || c == '\u2029'

def isGap (c : Char) : Bool := c == ' ' || c == '\t'

/-- Letters, digits, hyphens and underscores, of which names consist. -/
def isNameChar (c : Char) : Bool := c.isAlphanum || c == '-' || c == '_'

/-- The characters that a YAML text may contain. -/
def isAllowed (c : Char) : Bool :=
  let n := c.toNat
  n == 9 || n == 10 || n == 13 || (0x20 ≤ n && n ≤ 0x7E) || n == 0x85 || (0xA0 ≤ n && n ≤ 0xD7FF) ||
    (0xE000 ≤ n && n ≤ 0xFFFD) || 0x10000 ≤ n

/-! ## Cursors -/

/-- A place in a text: what is left of it, and where that stands. -/
structure Cursor where
  rest : List Char
  line : Nat
  column : Nat
  index : Nat
  deriving Repr

namespace Cursor

def ofText (s : String) : Cursor := ⟨s.toList, 0, 0, 0⟩

def head? (c : Cursor) : Option Char := c.rest.head?

/-- The character after the next one. -/
def second? (c : Cursor) : Option Char := (c.rest.drop 1).head?

def startsWith (c : Cursor) (p : Char → Bool) : Bool := c.head?.any p

/-- A gap, a line break or the end of the text. -/
def blankOrEnd (o : Option Char) : Bool := o.all fun ch => isGap ch || isLineBreak ch

def atBlankOrEnd (c : Cursor) : Bool := blankOrEnd c.head?

/-- A line break or the end of the text. -/
def atBreakOrEnd (c : Cursor) : Bool := c.head?.all isLineBreak

def step (c : Cursor) : Cursor := ⟨c.rest.drop 1, c.line, c.column + 1, c.index + 1⟩

def steps : Nat → Cursor → Cursor
  | 0, c => c
  | n + 1, c => steps n c.step

/-- Step over a line break, which reads as a line feed or one of the two Unicode separators. -/
def stepBreak (c : Cursor) : List Char × Cursor :=
  match c.rest with
  | '\r' :: '\n' :: rest => (['\n'], ⟨rest, c.line + 1, 0, c.index + 2⟩)
  | ch :: rest =>
    (if ch == '\u2028' || ch == '\u2029' then [ch] else ['\n'], ⟨rest, c.line + 1, 0, c.index + 1⟩)
  | [] => ([], c)

/-- Take characters of a line while they satisfy `p`. -/
def takeWhile (p : Char → Bool) (c : Cursor) : List Char × Cursor :=
  let taken := c.rest.takeWhile p
  (taken, ⟨c.rest.drop taken.length, c.line, c.column + taken.length, c.index + taken.length⟩)

def skipWhile (p : Char → Bool) (c : Cursor) : Cursor := (c.takeWhile p).2

/-- Three hyphens or three points alone at the beginning of a line part documents. -/
def atDocumentMark (c : Cursor) : Bool :=
  c.column == 0 &&
    match c.rest with
    | '-' :: '-' :: '-' :: rest => blankOrEnd rest.head?
    | '.' :: '.' :: '.' :: rest => blankOrEnd rest.head?
    | _ => false

end Cursor

/-! ## Scalars without quotes -/

/-- The line breaks and gaps since the last word of a scalar, and what has been read before them.
Lists of characters are kept last first. -/
structure Folding where
  text : List Char
  /-- Gaps within a line. -/
  gap : List Char
  /-- The first line break after a word, and the ones after it. -/
  firstBreak : List Char
  laterBreaks : List Char
  /-- A line break has been passed since the last word. -/
  broken : Bool

namespace Folding

def empty : Folding := ⟨[], [], [], [], false⟩

/-- Settle what stood between two words: a single line break folds to a blank. -/
def join (f : Folding) : Folding :=
  let between :=
    if f.broken then
      if f.firstBreak == ['\n'] then
        if f.laterBreaks.isEmpty then [' '] else f.laterBreaks
      else f.laterBreaks ++ f.firstBreak
    else f.gap
  ⟨between ++ f.text, [], [], [], false⟩

def push (f : Folding) (c : Char) : Folding := { f with text := c :: f.text }

def pushGap (f : Folding) (c : Char) : Folding :=
  if f.broken then f else { f with gap := c :: f.gap }

def pushBreak (f : Folding) (b : List Char) : Folding :=
  if f.broken then { f with laterBreaks := b ++ f.laterBreaks }
  else { f with gap := [], firstBreak := b, broken := true }

def result (f : Folding) : String := String.ofList f.text.reverse

end Folding

def isFlowMark (c : Char) : Bool := c == ',' || c == '[' || c == ']' || c == '\x7b' || c == '\x7d'

/-- Take the characters of a word up to a gap or an indicator that ends the scalar. -/
def plainWord (inFlow : Bool) : Nat → Cursor → Folding → Option (Cursor × Folding)
  | 0, c, f => some (c, f)
  | fuel + 1, c, f =>
    match c.head? with
    | none => some (c, f)
    | some ch =>
      if isGap ch || isLineBreak ch then some (c, f)
      else if inFlow && ch == ':' && c.second?.any (fun d => isFlowMark d || d == '?') then none
      else if ch == ':' && Cursor.blankOrEnd c.second? then some (c, f)
      else if inFlow && isFlowMark ch then some (c, f)
      else plainWord inFlow fuel c.step (f.join.push ch)

/-- Take gaps and line breaks. A tab may not stand where indentation is due. -/
def plainGap (indent : Int) : Nat → Cursor → Folding → Option (Cursor × Folding)
  | 0, c, f => some (c, f)
  | fuel + 1, c, f =>
    match c.head? with
    | none => some (c, f)
    | some ch =>
      if isGap ch then
        if f.broken && ch == '\t' && (c.column : Int) < indent then none
        else plainGap indent fuel c.step (f.pushGap ch)
      else if isLineBreak ch then
        let (b, c) := c.stepBreak
        plainGap indent fuel c (f.pushBreak b)
      else some (c, f)

/-- A scalar without quotes: words and what is between them. -/
def plainScalar (inFlow : Bool) (indent : Int) : Nat → Cursor → Folding → Option (Cursor × Folding)
  | 0, c, f => some (c, f)
  | fuel + 1, c, f =>
    if c.atDocumentMark || c.startsWith (· == '#') then some (c, f)
    else
      match plainWord inFlow c.rest.length c f with
      | none => none
      | some (c, f) =>
        if ¬ c.startsWith (fun ch => isGap ch || isLineBreak ch) then some (c, f)
        else
          match plainGap indent c.rest.length c f with
          | none => none
          | some (c, f) =>
            if ¬ inFlow && (c.column : Int) < indent then some (c, f)
            else plainScalar inFlow indent fuel c f

/-! ## Quoted scalars -/

/-- The characters that stand for others after a backslash. -/
def escapedChar? : Char → Option Char
  | '0' => some '\x00'
  | 'a' => some '\x07'
  | 'b' => some '\x08'
  | 't' => some '\t'
  | '\t' => some '\t'
  | 'n' => some '\n'
  | 'v' => some '\x0b'
  | 'f' => some '\x0c'
  | 'r' => some '\r'
  | 'e' => some '\x1b'
  | ' ' => some ' '
  | '"' => some '"'
  | '/' => some '/'
  | '\\' => some '\\'
  | 'N' => some '\x85'
  | '_' => some '\xa0'
  | 'L' => some '\u2028'
  | 'P' => some '\u2029'
  | _ => none

/-- The number of digits of a character given by its code. -/
def codeLength? : Char → Option Nat
  | 'x' => some 2
  | 'u' => some 4
  | 'U' => some 8
  | _ => none

/-- The character with a hexadecimal code, if there is one. -/
def charOfCode? (digits : List Char) : Option Char := do
  let values ← digits.mapM hexDigitValue?
  let n := values.foldl (fun n d => 16 * n + d) 0
  if (0xD800 ≤ n ∧ n ≤ 0xDFFF) ∨ 0x10FFFF < n then none else some (Char.ofNat n)

/-- Take quoted characters up to the closing quote, a gap, or a line break. -/
def quotedWord (single : Bool) : Nat → Cursor → Folding → Option (Cursor × Folding)
  | 0, c, f => some (c, f)
  | fuel + 1, c, f =>
    match c.head? with
    | none => some (c, f)
    | some ch =>
      if isGap ch || isLineBreak ch then some (c, f)
      else if single then
        if ch == '\'' then
          if c.second? == some '\'' then quotedWord single fuel (Cursor.steps 2 c) (f.push '\'')
          else some (c, f)
        else quotedWord single fuel c.step (f.push ch)
      else if ch == '"' then some (c, f)
      else if ch == '\\' then
        match c.second? with
        | none => none
        | some e =>
          if isLineBreak e then
            -- an escaped line break counts as broken, but leaves nothing to fold
            let (_, c) := c.step.stepBreak
            some (c, { f with broken := true })
          else
            match escapedChar? e, codeLength? e with
            | some x, _ => quotedWord single fuel (Cursor.steps 2 c) (f.push x)
            | none, some n =>
              let digits := (c.rest.drop 2).take n
              if digits.length < n then none
              else
                match charOfCode? digits with
                | some x => quotedWord single fuel (Cursor.steps (2 + n) c) (f.push x)
                | none => none
            | none, none => none
      else quotedWord single fuel c.step (f.push ch)

/-- Take gaps and line breaks between quoted words. -/
def quotedGap : Nat → Cursor → Folding → Cursor × Folding
  | 0, c, f => (c, f)
  | fuel + 1, c, f =>
    match c.head? with
    | none => (c, f)
    | some ch =>
      if isGap ch then quotedGap fuel c.step (f.pushGap ch)
      else if isLineBreak ch then
        let (b, c) := c.stepBreak
        quotedGap fuel c (f.pushBreak b)
      else (c, f)

/-- A quoted scalar after its opening quote. -/
def quotedScalar (single : Bool) : Nat → Cursor → Folding → Option (Cursor × Folding)
  | 0, _, _ => none
  | fuel + 1, c, f =>
    if c.atDocumentMark then none
    else
      match quotedWord single c.rest.length c f with
      | none => none
      | some (c, f) =>
        match c.head? with
        | none => none
        | some ch =>
          if ch == (if single then '\'' else '"') then some (c.step, f)
          else
            let (c, f) := quotedGap c.rest.length c f
            quotedScalar single fuel c f.join

/-! ## Block scalars -/

/-- How the line breaks at the end of a block scalar are treated. -/
inductive Chomping where
  | strip
  | clip
  | keep
  deriving DecidableEq, Repr

def chomping? : Char → Option Chomping
  | '+' => some .keep
  | '-' => some .strip
  | _ => none

/-- The increment that a digit in a header asks for; zero is refused. -/
def increment? (c : Char) : Option Nat :=
  if isAsciiDigit c && c != '0' then some (c.toNat - 48) else none

/-- The header of a block scalar after its indicator: chomping and increment in either order. -/
def blockHeader (c : Cursor) : Option (Chomping × Option Nat × Cursor) :=
  match c.head? with
  | none => some (.clip, none, c)
  | some a =>
    match chomping? a with
    | some ch =>
      let c := c.step
      match c.head? with
      | none => some (ch, none, c)
      | some b =>
        if b == '0' then none
        else
          match increment? b with
          | some n => some (ch, some n, c.step)
          | none => some (ch, none, c)
    | none =>
      if a == '0' then none
      else
        match increment? a with
        | some n =>
          let c := c.step
          match c.head?.bind chomping? with
          | some ch => some (ch, some n, c.step)
          | none => some (.clip, some n, c)
        | none => some (.clip, none, c)

/-- Skip indentation and empty lines. Before the indentation is known, `indent` is zero and the
widest column is noted. -/
def blockBreaks (indent : Nat) : Nat → Cursor → List Char → Nat → Option (Cursor × List Char × Nat)
  | 0, c, breaks, widest => some (c, breaks, widest)
  | fuel + 1, c, breaks, widest =>
    let blanks := (c.rest.takeWhile (· == ' ')).length
    let room := if indent = 0 then blanks else min blanks (indent - c.column)
    let c := Cursor.steps room c
    let widest := max widest c.column
    if (indent = 0 || c.column < indent) && c.startsWith (· == '\t') then none
    else if c.startsWith isLineBreak then
      let (b, c) := c.stepBreak
      blockBreaks indent fuel c (b ++ breaks) widest
    else some (c, breaks, widest)

/-- The lines of a block scalar; all character lists are kept last first. -/
def blockLines (literal : Bool) (indent : Nat) :
    Nat → Cursor → List Char → List Char → List Char → Bool →
    Option (Cursor × List Char × List Char × List Char)
  | 0, c, text, lead, trail, _ => some (c, text, lead, trail)
  | fuel + 1, c, text, lead, trail, leadingBlank =>
    if c.column ≠ indent || c.head?.isNone then some (c, text, lead, trail)
    else
      let blank := c.startsWith isGap
      let folds := ¬ literal && lead == ['\n'] && ¬ leadingBlank && ¬ blank
      let between := if folds then (if trail.isEmpty then [' '] else []) else lead
      let text := trail ++ between ++ text
      let (line, c) := c.takeWhile fun ch => ¬ isLineBreak ch
      let text := line.reverse ++ text
      let (b, c) := c.stepBreak
      match blockBreaks indent (c.rest.length + 1) c [] 0 with
      | none => none
      | some (c, trail, _) => blockLines literal indent fuel c text b trail blank

/-- A block scalar after its indicator, inside a block with indentation `parent`. -/
def blockScalar (literal : Bool) (parent : Int) (c : Cursor) : Option (Cursor × String) := do
  let (chomping, increment, c) ← blockHeader c
  let c := c.skipWhile isGap
  let c := if c.startsWith (· == '#') then c.skipWhile fun ch => ¬ isLineBreak ch else c
  if ¬ c.atBreakOrEnd then none
  else
    let (_, c) := c.stepBreak
    let given : Nat :=
      match increment with
      | none => 0
      | some n => if 0 ≤ parent then parent.toNat + n else n
    let (c, trail, widest) ← blockBreaks given (c.rest.length + 1) c [] 0
    let indent := if given = 0 then max (max widest (parent + 1).toNat) 1 else given
    let (c, text, lead, trail) ←
      blockLines literal indent (c.rest.length + 1) c [] [] trail false
    let text := if chomping = .strip then text else lead ++ text
    let text := if chomping = .keep then trail ++ text else text
    return (c, String.ofList text.reverse)

/-! ## Properties and directives -/

def anchorName (c : Cursor) : Option (Cursor × String) :=
  let (name, c) := c.takeWhile isNameChar
  let ends := c.atBlankOrEnd ||
    c.startsWith fun ch => ch == '?' || ch == ':' || ch == ',' || ch == ']' || ch == '\x7d' ||
      ch == '%' || ch == '@' || ch == '\x60'
  if name.isEmpty || ¬ ends then none else some (c, String.ofList name)

def isUriChar (verbatim : Bool) (c : Char) : Bool :=
  isNameChar c || ";/?:@&=+$.%!~*'()".toList.contains c ||
    (verbatim && (c == ',' || c == '[' || c == ']'))

/-- Replace codes with a percent sign by the bytes they stand for. -/
def decodeUri : List Char → Option (List UInt8)
  | [] => some []
  | '%' :: a :: b :: rest => do
    let high ← hexDigitValue? a
    let low ← hexDigitValue? b
    return UInt8.ofNat (16 * high + low) :: (← decodeUri rest)
  | '%' :: _ => none
  | c :: rest => do return (String.singleton c).toUTF8.toList ++ (← decodeUri rest)

/-- The characters of a tag's address. -/
def tagUri (verbatim : Bool) (c : Cursor) : Option (Cursor × String) := do
  let (chars, c) := c.takeWhile (isUriChar verbatim)
  let bytes ← decodeUri chars
  let text ← String.fromUTF8? (ByteArray.mk bytes.toArray)
  return (c, text)

/-- A tag after its first exclamation mark. -/
def tagProperty (inFlow : Bool) (c : Cursor) : Option (Cursor × Token) := do
  let (c, token) ←
    if c.startsWith (· == '<') then do
      let (c, uri) ← tagUri true c.step
      if uri.isEmpty || ¬ c.startsWith (· == '>') then none else some (c.step, Token.tag "" uri)
    else do
      let (name, after) := c.takeWhile isNameChar
      if after.startsWith (· == '!') then do
        let (c, suffix) ← tagUri false after.step
        if suffix.isEmpty then none
        else some (c, Token.tag ("!" ++ String.ofList name ++ "!") suffix)
      else do
        let (c, suffix) ← tagUri false c
        some (c, if suffix.isEmpty then Token.tag "" "!" else Token.tag "!" suffix)
  if c.atBlankOrEnd || (inFlow && c.startsWith (· == ',')) then some (c, token) else none

def versionNumber (c : Cursor) : Option (Nat × Cursor) :=
  let (digits, c) := c.takeWhile isAsciiDigit
  if digits.isEmpty || 9 < digits.length then none else some (decimalValue digits, c)

/-- The arguments of a directive. -/
def directiveToken (name : String) (c : Cursor) : Option (Token × Cursor) :=
  match name with
  | "YAML" => do
    let (major, c) ← versionNumber (c.skipWhile isGap)
    if ¬ c.startsWith (· == '.') then none
    else
      let (minor, c) ← versionNumber c.step
      return (.versionDirective major minor, c)
  | "TAG" => do
    let c := c.skipWhile isGap
    if ¬ c.startsWith (· == '!') then none
    else
      let (inner, c) := c.step.takeWhile isNameChar
      let closed := c.startsWith (· == '!')
      if ¬ closed && ¬ inner.isEmpty then none
      else
        let handle := "!" ++ String.ofList inner ++ (if closed then "!" else "")
        let c := if closed then c.step else c
        if ¬ c.startsWith isGap then none
        else
          let (c, uri) ← tagUri true (c.skipWhile isGap)
          if uri.isEmpty || ¬ c.atBlankOrEnd then none else return (.tagDirective handle uri, c)
  | _ => none

/-- A directive after its percent sign, up to the end of the line. -/
def directive (c : Cursor) : Option (Cursor × Token) := do
  let (name, c) := c.takeWhile isNameChar
  if name.isEmpty || ¬ c.atBlankOrEnd then none
  else
    let (token, c) ← directiveToken (String.ofList name) c
    let c := c.skipWhile isGap
    let c := if c.startsWith (· == '#') then c.skipWhile fun ch => ¬ isLineBreak ch else c
    if c.atBreakOrEnd then some (if c.rest.isEmpty then c else c.stepBreak.2, token) else none

/-! ## The whole text -/

/-- A place where a key without an indicator may begin. -/
structure KeyPlace where
  possible : Bool
  /-- Nothing but a key may stand there. -/
  required : Bool
  tokenCount : Nat
  line : Nat
  column : Nat
  index : Nat
  deriving Repr

namespace KeyPlace

def nowhere : KeyPlace := ⟨false, false, 0, 0, 0, 0⟩

end KeyPlace

/-- The state of cutting a text into tokens. -/
structure Lexer where
  cursor : Cursor
  tokens : List Token
  flowLevel : Nat
  /-- The indentation of the block that is open, and of the blocks around it. -/
  indent : Int
  indents : List Int
  keyAllowed : Bool
  /-- A possible key for every flow level, the innermost first. -/
  keys : List KeyPlace

namespace Lexer

def start (s : String) : Lexer :=
  { cursor := .ofText s, tokens := [], flowLevel := 0, indent := -1, indents := []
    keyAllowed := true, keys := [.nowhere] }

def inFlow (x : Lexer) : Bool := 0 < x.flowLevel

def emit (x : Lexer) (t : Token) : Lexer := { x with tokens := t :: x.tokens }

/-- Put a token behind the first `count` ones. -/
def insertAt (x : Lexer) (count : Nat) (t : Token) : Lexer :=
  { x with tokens := x.tokens.insertIdx (x.tokens.length - count) t }

/-- Close the blocks that are indented more than a column. -/
def unroll (x : Lexer) (column : Int) : Nat → Lexer
  | 0 => x
  | fuel + 1 =>
    if x.inFlow || x.indent ≤ column then x
    else
      unroll { x with tokens := .blockEnd :: x.tokens, indent := x.indents.headD (-1)
                      indents := x.indents.tail } column fuel

def unrollTo (x : Lexer) (column : Int) : Lexer := x.unroll column (x.indents.length + 1)

/-- Open a block at a column that is indented more than the one around it. -/
def roll (x : Lexer) (column : Nat) (place : Option Nat) (t : Token) : Lexer :=
  if x.inFlow || (column : Int) ≤ x.indent then x
  else
    let x := { x with indent := column, indents := x.indent :: x.indents }
    match place with
    | some count => x.insertAt count t
    | none => x.emit t

/-- A key can no longer begin at the last possible place; if one had to, the text is malformed. -/
def dropKey (x : Lexer) : Option Lexer :=
  match x.keys with
  | [] => some x
  | k :: rest =>
    if k.possible && k.required then none
    else some { x with keys := { k with possible := false } :: rest }

/-- A key may begin here. -/
def saveKey (x : Lexer) : Option Lexer :=
  if x.keyAllowed then do
    let x ← x.dropKey
    let c := x.cursor
    let place : KeyPlace :=
      { possible := true, required := ¬ x.inFlow && x.indent == (c.column : Int)
        tokenCount := x.tokens.length, line := c.line, column := c.column, index := c.index }
    return { x with keys := place :: x.keys.tail }
  else some x

/-- A key without an indicator ends on its line and within 1024 characters. -/
def dropStaleKeys (x : Lexer) : Option Lexer := do
  let keys ← x.keys.mapM fun k =>
    if k.possible && (k.line < x.cursor.line || k.index + 1024 < x.cursor.index) then
      if k.required then none else some { k with possible := false }
    else some k
  return { x with keys }

/-- Skip gaps, comments and line breaks before a token. A byte order mark at the very beginning
takes a column. -/
def skipToToken : Nat → Lexer → Lexer
  | 0, x => x
  | fuel + 1, x =>
    let c := x.cursor
    let c := if c.index = 0 && c.startsWith (· == '\uFEFF') then c.step else c
    let tabs := x.inFlow || ¬ x.keyAllowed
    let c := c.skipWhile fun ch => ch == ' ' || (tabs && ch == '\t')
    let c := if c.startsWith (· == '#') then c.skipWhile fun ch => ¬ isLineBreak ch else c
    if c.startsWith isLineBreak then
      let keyAllowed := x.keyAllowed || ¬ x.inFlow
      skipToToken fuel { x with cursor := c.stepBreak.2, keyAllowed }
    else { x with cursor := c }

/-- Step over some characters that make a token. -/
def emitSteps (x : Lexer) (n : Nat) (t : Token) : Lexer :=
  { x.emit t with cursor := Cursor.steps n x.cursor }

def openFlow (x : Lexer) (t : Token) : Option Lexer := do
  let x ← x.saveKey
  return { x.emitSteps 1 t with
    keys := .nowhere :: x.keys, flowLevel := x.flowLevel + 1, keyAllowed := true }

def closeFlow (x : Lexer) (t : Token) : Option Lexer := do
  let x ← x.dropKey
  let x := if x.inFlow then { x with flowLevel := x.flowLevel - 1, keys := x.keys.tail } else x
  return { x.emitSteps 1 t with keyAllowed := false }

def documentMark (x : Lexer) (t : Token) : Option Lexer := do
  let x ← (x.unrollTo (-1)).dropKey
  return { x.emitSteps 3 t with keyAllowed := false }

/-- Open a block for an indicator at the cursor, where a key could stand too. -/
def rollHere (x : Lexer) (t : Token) : Option Lexer :=
  if x.inFlow then some x
  else if x.keyAllowed then some (x.roll x.cursor.column none t)
  else none

def blockEntry (x : Lexer) : Option Lexer := do
  let x ← (← x.rollHere .blockSequenceStart).dropKey
  return { x.emitSteps 1 .blockEntry with keyAllowed := true }

def keyMark (x : Lexer) : Option Lexer := do
  let x ← (← x.rollHere .blockMappingStart).dropKey
  return { x.emitSteps 1 .key with keyAllowed := ¬ x.inFlow }

/-- A colon: what stood at the last possible place was a key, or the value has none. -/
def valueMark (x : Lexer) : Option Lexer :=
  match x.keys with
  | k :: rest =>
    if k.possible then
      let x := x.insertAt k.tokenCount .key
      let x := x.roll k.column (some k.tokenCount) .blockMappingStart
      let x := { x with keys := { k with possible := false } :: rest, keyAllowed := false }
      some (x.emitSteps 1 .value)
    else do
      let x ← x.rollHere .blockMappingStart
      return { x.emitSteps 1 .value with keyAllowed := ¬ x.inFlow }
  | [] => none

/-- Put a scalar or a property in place of the characters up to a new cursor. -/
def finish (x : Lexer) (c : Cursor) (t : Token) : Lexer := { x.emit t with cursor := c }

def anchorLike (x : Lexer) (make : String → Token) : Option Lexer := do
  let x ← x.saveKey
  let (c, name) ← anchorName x.cursor.step
  return { x with keyAllowed := false }.finish c (make name)

def tagMark (x : Lexer) : Option Lexer := do
  let x ← x.saveKey
  let (c, token) ← tagProperty x.inFlow x.cursor.step
  return { x with keyAllowed := false }.finish c token

def blockText (x : Lexer) (literal : Bool) : Option Lexer := do
  let x ← x.dropKey
  let (c, text) ← blockScalar literal x.indent x.cursor.step
  return { x with keyAllowed := true }.finish c (.scalar text false)

def quotedText (x : Lexer) (single : Bool) : Option Lexer := do
  let x ← x.saveKey
  let c := x.cursor.step
  let (c, f) ← quotedScalar single (c.rest.length + 1) c .empty
  return { x with keyAllowed := false }.finish c (.scalar f.result false)

def plainText (x : Lexer) : Option Lexer := do
  let x ← x.saveKey
  let c := x.cursor
  let (c, f) ← plainScalar x.inFlow (x.indent + 1) (c.rest.length + 1) c .empty
  return { x with keyAllowed := f.broken }.finish c (.scalar f.result true)

def directiveLine (x : Lexer) : Option Lexer := do
  let x ← (x.unrollTo (-1)).dropKey
  let (c, token) ← directive x.cursor.step
  return { x with keyAllowed := false }.finish c token

/-- Characters with which a scalar without quotes cannot begin. -/
def isIndicator (c : Char) : Bool := "-?:,[]\x7b\x7d#&*!|>'\"%@\x60".toList.contains c

/-- Can a scalar without quotes begin here? -/
def atPlain (x : Lexer) (ch : Char) : Bool :=
  let next := x.cursor.second?
  (¬ isIndicator ch && ¬ isGap ch && ¬ isLineBreak ch) ||
  (ch == '-' && ¬ next.any isGap) ||
  (¬ x.inFlow && (ch == '?' || ch == ':') && ¬ Cursor.blankOrEnd next)

/-- Take the token that begins with a character. -/
def takeToken (x : Lexer) (ch : Char) : Option Lexer :=
  let c := x.cursor
  let spaced := Cursor.blankOrEnd c.second?
  if c.column == 0 && ch == '%' then x.directiveLine
  else if c.atDocumentMark then
    x.documentMark (if ch == '-' then .documentStart else .documentEnd)
  else if ch == '[' then x.openFlow .flowSequenceStart
  else if ch == '\x7b' then x.openFlow .flowMappingStart
  else if ch == ']' then x.closeFlow .flowSequenceEnd
  else if ch == '\x7d' then x.closeFlow .flowMappingEnd
  else if ch == ',' then do
    let x ← x.dropKey
    return { x.emitSteps 1 .flowEntry with keyAllowed := true }
  -- outside of brackets these marks need a gap behind them
  else if ch == '-' && spaced then x.blockEntry
  else if ch == '?' && (x.inFlow || spaced) then x.keyMark
  else if ch == ':' && (x.inFlow || spaced) then x.valueMark
  else if ch == '*' then x.anchorLike .alias
  else if ch == '&' then x.anchorLike .anchor
  else if ch == '!' then x.tagMark
  else if ch == '|' && ¬ x.inFlow then x.blockText true
  else if ch == '>' && ¬ x.inFlow then x.blockText false
  else if ch == '\'' then x.quotedText true
  else if ch == '"' then x.quotedText false
  else if x.atPlain ch then x.plainText
  else none

/-- Close everything at the end of the text. -/
def close (x : Lexer) : Option (List Token) := do
  let x ← (x.unrollTo (-1)).dropKey
  return (x.emit .streamEnd).tokens.reverse

/-- Take tokens up to the end of the text. -/
def run : Nat → Lexer → Option (List Token)
  | 0, _ => none
  | fuel + 1, x => do
    let x := skipToToken (x.cursor.rest.length + 1) x
    let x ← x.dropStaleKeys
    let x := x.unrollTo x.cursor.column
    match x.cursor.head? with
    | none => x.close
    | some ch => run fuel (← x.takeToken ch)

end Lexer

def tokens? (s : String) : Option (List Token) :=
  if s.toList.all isAllowed then (Lexer.start s).run (s.length + 2) else none

end Workflow.Yaml
