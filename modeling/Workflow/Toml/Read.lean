import Workflow.Toml.Scalar
import Workflow.Toml.Table

/-!
# Reading TOML texts

`read?` gives the document of a TOML text, or nothing when the text is malformed or defines a key
twice. Brackets of values may be nested 79 levels deep, and a dotted key has at most 79 parts.
-/
namespace Workflow.Toml

def isTomlBlank (c : Char) : Bool := c == ' ' || c == '\t'

def skipBlanks (cs : List Char) : List Char := cs.dropWhile isTomlBlank

/-- May a character stand in a comment or, with the exception of the quote, in a literal text? -/
def isLineChar (c : Char) : Bool := c == '\t' || (0x20 ≤ c.toNat && c != '\x7f')

def afterBreak? : List Char → Option (List Char)
  | '\n' :: rest => some rest
  | '\r' :: '\n' :: rest => some rest
  | _ => none

def skipComment : List Char → List Char
  | '#' :: rest => rest.dropWhile isLineChar
  | cs => cs

/-- The end of a line: blanks, a comment and a line break or the end of the text. -/
def afterLine? (cs : List Char) : Option (List Char) :=
  match skipComment (skipBlanks cs) with
  | [] => some []
  | rest => afterBreak? rest

/-- Skip blanks, comments and line breaks. -/
def skipSpace : Nat → List Char → List Char
  | 0, cs => cs
  | fuel + 1, cs =>
    let rest := skipComment (skipBlanks cs)
    match afterBreak? rest with
    | some rest => skipSpace fuel rest
    | none => rest

/-- Skip blanks and line breaks. -/
def skipBreaks : Nat → List Char → List Char
  | 0, cs => cs
  | fuel + 1, cs =>
    let rest := skipBlanks cs
    match afterBreak? rest with
    | some rest => skipBreaks fuel rest
    | none => rest

/-! ## Texts in quotes -/

def simpleEscape? : Char → Option Char
  | 'b' => some '\x08'
  | 'f' => some '\x0c'
  | 'n' => some '\n'
  | 'r' => some '\r'
  | 't' => some '\t'
  | '"' => some '"'
  | '\\' => some '\\'
  | _ => none

/-- The character with a hexadecimal number; halves of pairs and numbers beyond are none. -/
def charOfHex? (digits : List Char) : Option Char := do
  let ds ← digits.mapM hexDigitValue?
  let n := ds.foldl (fun n d => 16 * n + d) 0
  if h : n.isValidChar then some (Char.ofNatAux n h) else none

/-- An escaped character, after its backslash. -/
def escape? : List Char → Option (Char × List Char)
  | 'u' :: a :: b :: c :: d :: rest => (charOfHex? [a, b, c, d]).map (·, rest)
  | 'U' :: a :: b :: c :: d :: e :: f :: g :: h :: rest =>
    (charOfHex? [a, b, c, d, e, f, g, h]).map (·, rest)
  | c :: rest => (simpleEscape? c).map (·, rest)
  | [] => none

/-- The rest of a text in double quotes; `seen` holds its characters, last first. -/
def basicRest : Nat → List Char → List Char → Option (String × List Char)
  | 0, _, _ => none
  | fuel + 1, seen, cs =>
    match cs with
    | '"' :: rest => some (String.ofList seen.reverse, rest)
    | '\\' :: rest =>
      match escape? rest with
      | some (c, rest) => basicRest fuel (c :: seen) rest
      | none => none
    | c :: rest => if isLineChar c then basicRest fuel (c :: seen) rest else none
    | [] => none

/-- The end of a text in three quotes, from the first quote of a run: up to two quotes of the run
may belong to the text. -/
def closingRun? (quote : Char) (cs : List Char) : Option (List Char × List Char) :=
  let run := cs.takeWhile (· == quote)
  if 3 ≤ run.length && run.length ≤ 5 then some (run.drop 3, cs.drop run.length) else none

/-- The rest of a text in three double quotes. A backslash at the end of a line joins it with the
next line that is not blank. -/
def longBasicRest : Nat → List Char → List Char → Option (String × List Char)
  | 0, _, _ => none
  | fuel + 1, seen, cs =>
    match cs with
    | '"' :: rest =>
      match closingRun? '"' cs with
      | some (quotes, rest) => some (String.ofList (quotes ++ seen).reverse, rest)
      | none =>
        if cs.take 3 == ['"', '"', '"'] then none else longBasicRest fuel ('"' :: seen) rest
    | '\\' :: rest =>
      match afterBreak? (skipBlanks rest) with
      | some after => longBasicRest fuel seen (skipBreaks after.length after)
      | none =>
        match escape? rest with
        | some (c, rest) => longBasicRest fuel (c :: seen) rest
        | none => none
    | '\r' :: '\n' :: rest => longBasicRest fuel ('\n' :: seen) rest
    | c :: rest => if c == '\n' || isLineChar c then longBasicRest fuel (c :: seen) rest else none
    | [] => none

def literalRest (cs : List Char) : Option (String × List Char) :=
  let inner := cs.takeWhile fun c => c != '\'' && isLineChar c
  match cs.drop inner.length with
  | '\'' :: rest => some (String.ofList inner, rest)
  | _ => none

def longLiteralRest : Nat → List Char → List Char → Option (String × List Char)
  | 0, _, _ => none
  | fuel + 1, seen, cs =>
    match cs with
    | '\'' :: rest =>
      match closingRun? '\'' cs with
      | some (quotes, rest) => some (String.ofList (quotes ++ seen).reverse, rest)
      | none =>
        if cs.take 3 == ['\'', '\'', '\''] then none else longLiteralRest fuel ('\'' :: seen) rest
    | '\r' :: '\n' :: rest => longLiteralRest fuel ('\n' :: seen) rest
    | c :: rest => if c == '\n' || isLineChar c then longLiteralRest fuel (c :: seen) rest else none
    | [] => none

/-- Drop a line break that follows three quotes. -/
def afterOpening (cs : List Char) : List Char := (afterBreak? cs).getD cs

/-- A text in quotes of any kind. -/
def quotedText? (cs : List Char) : Option (String × List Char) :=
  match cs with
  | '"' :: '"' :: '"' :: rest => longBasicRest cs.length [] (afterOpening rest)
  | '"' :: rest => basicRest cs.length [] rest
  | '\'' :: '\'' :: '\'' :: rest => longLiteralRest cs.length [] (afterOpening rest)
  | '\'' :: rest => literalRest rest
  | _ => none

/-! ## Keys -/

def isKeyChar (c : Char) : Bool :=
  isAsciiDigit c || ('a' ≤ c && c ≤ 'z') || ('A' ≤ c && c ≤ 'Z') || c == '-' || c == '_'

/-- One part of a key; quotes of three do not open one. -/
def keyPart? (cs : List Char) : Option (String × List Char) :=
  match cs with
  | '"' :: rest => basicRest cs.length [] rest
  | '\'' :: rest => literalRest rest
  | _ =>
    let name := cs.takeWhile isKeyChar
    if name.isEmpty then none else some (String.ofList name, cs.drop name.length)

/-- A key of parts with points between them, and blanks around each. -/
def keyParts? : Nat → List Char → Option (List String × List Char)
  | 0, _ => none
  | fuel + 1, cs => do
    let (name, rest) ← keyPart? (skipBlanks cs)
    match skipBlanks rest with
    | '.' :: rest => do
      let (names, rest) ← keyParts? fuel rest
      return (name :: names, rest)
    | rest => return ([name], rest)

/-- A key as the path before its last part, and that part. -/
def key? (cs : List Char) : Option (List String × String × List Char) := do
  let (names, rest) ← keyParts? 79 cs
  let last ← names.getLast?
  return (names.dropLast, last, rest)

/-! ## Values -/

def isBareChar (c : Char) : Bool := isKeyChar c || c == '+' || c == '.' || c == ':'

/-- A value without quotes. A time may follow a date after a blank. -/
def bare? (cs : List Char) : Option (Document × List Char) :=
  let first := cs.takeWhile isBareChar
  let rest := cs.drop first.length
  let joined :=
    match rest with
    | ' ' :: d :: _ =>
      if afterDate? first = some [] && isAsciiDigit d then
        first ++ ' ' :: (rest.drop 1).takeWhile isBareChar
      else first
    | _ => first
  (bareValue? joined).map (·, cs.drop joined.length)

mutual

/-- A value; `depth` counts the brackets that may still be opened. -/
def value? : Nat → Nat → List Char → Option (Document × List Char)
  | 0, _, _ => none
  | fuel + 1, depth, cs =>
    match cs with
    | '"' :: _ | '\'' :: _ => (quotedText? cs).map fun (s, rest) => (Document.text s, rest)
    | '[' :: rest => if depth = 0 then none else items? fuel (depth - 1) [] rest
    | '\x7b' :: rest =>
      if depth = 0 then none
      else
        match skipBlanks rest with
        | '\x7d' :: rest => some (.mapping [], rest)
        | rest => pairs? fuel (depth - 1) [] rest
    | _ => bare? cs

/-- The items of an array up to its closing bracket; a comma may follow the last one. -/
def items? : Nat → Nat → List Document → List Char → Option (Document × List Char)
  | 0, _, _, _ => none
  | fuel + 1, depth, seen, cs =>
    match skipSpace cs.length cs with
    | ']' :: rest => some (.sequence seen.reverse, rest)
    | start =>
      match value? fuel depth start with
      | none => none
      | some (item, rest) =>
        match skipSpace rest.length rest with
        | ',' :: rest => items? fuel depth (item :: seen) rest
        | ']' :: rest => some (.sequence (item :: seen).reverse, rest)
        | _ => none

/-- The pairs of an inline table up to its closing brace. -/
def pairs? : Nat → Nat → Entries → List Char → Option (Document × List Char)
  | 0, _, _, _ => none
  | fuel + 1, depth, seen, cs =>
    match key? cs with
    | some (path, name, '=' :: rest) =>
      match value? fuel depth (skipBlanks rest) with
      | none => none
      | some (value, rest) =>
        match Entries.addDotted? path name value .header seen with
        | none => none
        | some seen =>
          match skipBlanks rest with
          | ',' :: rest => pairs? fuel depth seen rest
          | '\x7d' :: rest => some (.mapping (entriesDocuments seen), rest)
          | _ => none
    | _ => none

end

/-! ## Texts -/

/-- The lines of a text; `header` is the path of the table that takes the keys. -/
def lines? : Nat → List String → Entries → List Char → Option Entries
  | 0, _, entries, cs => if cs.isEmpty then some entries else none
  | fuel + 1, header, entries, cs =>
    match skipBlanks cs with
    | [] => some entries
    | '#' :: rest => do lines? fuel header entries (← afterLine? ('#' :: rest))
    | '\n' :: rest => lines? fuel header entries rest
    | '\r' :: rest => do lines? fuel header entries (← afterBreak? ('\r' :: rest))
    | '[' :: '[' :: rest =>
      match key? rest with
      | some (path, name, ']' :: ']' :: rest) => do
        let entries ← Entries.openNext? path name entries
        lines? fuel (path ++ [name]) entries (← afterLine? rest)
      | _ => none
    | '[' :: rest =>
      match key? rest with
      | some (path, name, ']' :: rest) => do
        let entries ← Entries.openTable? path name entries
        lines? fuel (path ++ [name]) entries (← afterLine? rest)
      | _ => none
    | start =>
      match key? start with
      | some (path, name, '=' :: rest) => do
        let (value, rest) ← value? (2 * rest.length + 2) 79 (skipBlanks rest)
        let entries ← Entries.addUnder? header path name value entries
        lines? fuel header entries (← afterLine? rest)
      | _ => none

/-- The document of a TOML text. -/
def read? (text : String) : Option Document :=
  let cs :=
    match text.toList with
    | '\ufeff' :: rest => rest
    | cs => cs
  (lines? (cs.length + 1) [] [] cs).map fun entries => .mapping (entriesDocuments entries)

end Workflow.Toml
