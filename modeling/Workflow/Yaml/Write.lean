import Workflow.Document.Basic
import Workflow.Yaml.Scalar

/-!
# YAML texts of documents

Mappings are written one entry a line. A sequence inside a mapping is not indented; a collection
inside a sequence begins on the line of its hyphen. A text stands without quotes when it can, in
single quotes when it would read as something else, as a literal block when it has several lines,
and in double quotes otherwise. Lines are never folded.
-/
namespace Workflow.Yaml

/-! ## What a text consists of -/

/-- Characters that need no escape. -/
def isPrintable (c : Char) : Bool :=
  let n := c.toNat
  n == 10 || (0x20 ≤ n && n ≤ 0x7E) || (0xA0 ≤ n && n ≤ 0xD7FF) ||
    (0xE000 ≤ n && n ≤ 0xFFFD && n ≠ 0xFEFF) || 0x10000 ≤ n

def isBreakChar (c : Char) : Bool :=
  c == '\n' || c == '\r' || c == '\x85' || c == '\u2028' || c == '\u2029'

/-- A blank, a tab, a line break, or the end. -/
def isSpaceOrEnd (o : Option Char) : Bool := o.all fun c => c == ' ' || c == '\t' || isBreakChar c

/-- Characters that may not begin a text without quotes. -/
def isLeadingMark (c : Char) : Bool := "#,[]\x7b\x7d&*!|>'\"%@\x60".toList.contains c

/-- An indicator inside a text: at its place it would not be read as part of the text. -/
def hasInnerMark : Option Char → List Char → Bool
  | _, [] => false
  | before, c :: rest =>
    (c == ':' && isSpaceOrEnd rest.head?) || (c == '#' && isSpaceOrEnd before) ||
      hasInnerMark (some c) rest

/-- An indicator somewhere in a text. -/
def hasMark (cs : List Char) : Bool :=
  match cs with
  | [] => false
  | c :: rest =>
    cs.take 3 == ['-', '-', '-'] || cs.take 3 == ['.', '.', '.'] || isLeadingMark c ||
      ((c == '?' || c == ':' || c == '-') && isSpaceOrEnd rest.head?) || hasInnerMark (some c) rest

/-- A character that satisfies `p` directly before one that satisfies `q`. -/
def hasPair (p q : Char → Bool) : List Char → Bool
  | a :: b :: rest => (p a && q b) || hasPair p q (b :: rest)
  | _ => false

/-- What decides in which ways a text can be written. -/
structure TextTraits where
  multiline : Bool
  /-- Without quotes. -/
  plainAllowed : Bool
  singleAllowed : Bool
  literalAllowed : Bool
  deriving DecidableEq, Repr

def TextTraits.of (cs : List Char) : TextTraits :=
  let isSpace (c : Char) : Bool := c == ' '
  let breaks := cs.any isBreakChar
  let edges := cs.head?.any (fun c => isSpace c || isBreakChar c) ||
    cs.getLast?.any (fun c => isSpace c || isBreakChar c)
  let afterBreak := hasPair isBreakChar isSpace cs
  let beforeBreak := hasPair isSpace isBreakChar cs
  let special := cs.any fun c => ¬ isPrintable c
  let spoiled := beforeBreak || special
  { multiline := breaks
    plainAllowed := ¬ (breaks || edges || spoiled || hasMark cs)
    singleAllowed := ¬ (afterBreak || spoiled)
    literalAllowed := ¬ (cs.isEmpty || cs.getLast?.any isSpace || spoiled) }

/-! ## Scalars -/

/-- Two or four digits for the code of a character; the characters beyond four need no escape. -/
def codeEscape (n : Nat) : String :=
  if n ≤ 0xFF then "\\x" ++ (hexPadded 2 n).toUpper else "\\u" ++ (hexPadded 4 n).toUpper

/-- A character between double quotes. -/
def doubleChar (c : Char) : String :=
  match c with
  | '"' => "\\\""
  | '\\' => "\\\\"
  | '\x00' => "\\0"
  | '\x07' => "\\a"
  | '\x08' => "\\b"
  | '\t' => "\\t"
  | '\n' => "\\n"
  | '\x0b' => "\\v"
  | '\x0c' => "\\f"
  | '\r' => "\\r"
  | '\x1b' => "\\e"
  | '\x85' => "\\N"
  | '\u2028' => "\\L"
  | '\u2029' => "\\P"
  | _ => if isPrintable c then String.singleton c else codeEscape c.toNat

def doubleQuoted (s : String) : String := "\"" ++ String.join (s.toList.map doubleChar) ++ "\""

def pad (n : Nat) : String := String.ofList (List.replicate n ' ')

def endsInBreak (cs : List Char) : Bool := cs.getLast?.any isBreakChar

/-- Indent every line that has content; `atStart` tells whether the text begins a line. -/
def indentLines (indent : Nat) : Bool → List Char → List Char
  | _, [] => []
  | atStart, c :: rest =>
    if isBreakChar c then c :: indentLines indent true rest
    else if atStart then List.replicate indent ' ' ++ c :: indentLines indent false rest
    else c :: indentLines indent false rest

/-- A text between single quotes, its own quotes doubled; lines after the first are indented. -/
def singleQuoted (indent : Nat) (s : String) : String :=
  let doubled := s.toList.flatMap fun c => if c == '\'' then ['\'', '\''] else [c]
  "'" ++ String.ofList (indentLines indent false doubled) ++
    (if endsInBreak doubled then pad indent else "") ++ "'"

/-- The header of a literal block: an indentation digit when the text begins with a blank or a line
break, and how the line breaks at its end are kept. -/
def literalHeader (cs : List Char) : String :=
  let digit := if cs.head?.any (fun c => c == ' ' || isBreakChar c) then "2" else ""
  let chomp :=
    match cs.reverse with
    | [_] => if cs.any isBreakChar then "+" else "-"
    | last :: before :: _ =>
      if ¬ isBreakChar last then "-" else if isBreakChar before then "+" else ""
    | [] => "-"
  "|" ++ digit ++ chomp

def literalBlock (indent : Nat) (s : String) : String :=
  literalHeader s.toList ++ "\n" ++ String.ofList (indentLines indent true s.toList)

/-- Would a text without quotes be read as something other than a text? -/
def readsOtherwise (s : String) : Bool :=
  match plainAtom s with
  | .text _ => hasLeadingZero s.toList
  | _ => true

/-- A text; `asKey` tells that it stands before a colon on the same line. -/
def textScalar (indent : Nat) (asKey : Bool) (s : String) : String :=
  let traits := TextTraits.of s.toList
  let quotedSingle := if traits.singleAllowed && ¬ (asKey && traits.multiline)
    then singleQuoted indent s else doubleQuoted s
  if s.toList.contains '\n' then
    if traits.literalAllowed && ¬ asKey then literalBlock indent s else doubleQuoted s
  else if readsOtherwise s then quotedSingle
  else if traits.plainAllowed then s
  else quotedSingle

def scalarText (indent : Nat) (asKey : Bool) : Atom → String
  | .null => "null"
  | .bool b => if b then "true" else "false"
  | .int n => toString n
  | .float x => Layout.yaml.write x
  | .text s => textScalar indent asKey s

/-- A scalar and the end of its line. A literal block may have ended it already. -/
def scalarLine (indent : Nat) (a : Atom) : String :=
  let written := scalarText indent false a
  if endsInBreak written.toList then written else written ++ "\n"

/-! ## Collections

Every part ends its last line. -/

/-- The longest key, in bytes, that stands before its colon on one line. -/
def longestKey : Nat := 128

/-- A key that has to be introduced by a question mark. -/
def isLongKey (a : Atom) : Bool :=
  match a with
  | .text s => longestKey < s.utf8ByteSize || s.toList.any isBreakChar
  | _ => false

/-- A key with its colon, at an indentation. -/
def keyText (indent : Nat) (key : Document) : String :=
  match key with
  | .atom a _ =>
    if isLongKey a then "? " ++ scalarLine (indent + 2) a ++ pad indent ++ ":"
    else scalarText indent true a ++ ":"
  | _ => "? :"

/-- Does the key's colon begin a line? -/
def startsLine (key : Document) : Bool :=
  match key with
  | .atom a _ => isLongKey a
  | _ => true

/-- Where a part stands: after a colon, or after a mark that begins a line. -/
inductive Position where
  | afterKey
  | afterMark
  deriving DecidableEq, Repr

mutual

/-- What follows a colon or a hyphen that stands at an indentation. -/
def partText (indent : Nat) (position : Position) : Document → String
  | .atom a _ => " " ++ scalarLine (indent + 2) a
  | .sequence [] => " []\n"
  | .mapping [] => " \x7b\x7d\n"
  | .sequence (item :: items) =>
    if position = .afterKey then
      "\n" ++ pad indent ++ itemsText indent (item :: items)
    else " " ++ itemsText (indent + 2) (item :: items)
  | .mapping (entry :: entries) =>
    (if position = .afterKey then "\n" ++ pad (indent + 2) else " ") ++
      entriesText (indent + 2) (entry :: entries)
  | .tagged _ inner => partText indent position inner

/-- The items of a sequence at an indentation, the first without it. -/
def itemsText (indent : Nat) : List Document → String
  | [] => ""
  | [d] => "-" ++ partText indent .afterMark d
  | d :: ds => "-" ++ partText indent .afterMark d ++ pad indent ++ itemsText indent ds

/-- The entries of a mapping at an indentation, the first without it. -/
def entriesText (indent : Nat) : List (Document × Document) → String
  | [] => ""
  | [e] => entryText indent e
  | e :: es => entryText indent e ++ pad indent ++ entriesText indent es

def entryText (indent : Nat) : Document × Document → String
  | (k, v) =>
    keyText indent k ++ partText indent (if startsLine k then .afterMark else .afterKey) v

end

def write : Document → String
  | .atom a _ => scalarLine 2 a
  | .sequence [] => "[]\n"
  | .mapping [] => "\x7b\x7d\n"
  | .sequence items => itemsText 0 items
  | .mapping entries => entriesText 0 entries
  | .tagged _ inner => ((partText 0 .afterMark inner).drop 1).toString

end Workflow.Yaml
