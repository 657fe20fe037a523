import Workflow.Document.Basic
import Workflow.Text.Digits

/-!
# JSON texts of documents

Two written forms: `compact` has no blanks at all, `pretty` puts every part on a line of its own,
indented by two blanks a level. Characters beyond ASCII are written as they are.
-/
namespace Workflow.Json

def stringChar (c : Char) : String :=
  match c with
  | '"' => "\\\""
  | '\\' => "\\\\"
  | '\x08' => "\\b"
  | '\t' => "\\t"
  | '\n' => "\\n"
  | '\x0c' => "\\f"
  | '\r' => "\\r"
  | _ => if c.toNat < 0x20 then "\\u" ++ hexPadded 4 c.toNat else String.singleton c

def stringText (s : String) : String := "\"" ++ String.join (s.toList.map stringChar) ++ "\""

def atomText : Atom → String
  | .null => "null"
  | .bool b => if b then "true" else "false"
  | .int n => toString n
  | .float x => Layout.json.write x
  | .text s => stringText s

/-- A key is always a string, whatever atom it is. -/
def keyText : Document → String
  | .atom (.text s) _ => stringText s
  | .atom a _ => "\"" ++ atomText a ++ "\""
  | _ => "\"\""

mutual

def compact : Document → String
  | .atom a _ => atomText a
  | .sequence items => "[" ++ ",".intercalate (compactItems items) ++ "]"
  | .mapping entries => "\x7b" ++ ",".intercalate (compactEntries entries) ++ "\x7d"
  | .tagged _ inner => compact inner

def compactItems : List Document → List String
  | [] => []
  | d :: ds => compact d :: compactItems ds

def compactEntries : List (Document × Document) → List String
  | [] => []
  | e :: es => compactEntry e :: compactEntries es

def compactEntry : Document × Document → String
  | (k, v) => keyText k ++ ":" ++ compact v

end

/-- A line break followed by the indentation of a level. -/
def lineBreak (level : Nat) : String := "\n" ++ String.ofList (List.replicate (2 * level) ' ')

/-- Parts between brackets, one a line; no parts leave the brackets together. -/
def bracketed (opening closing : String) (level : Nat) (parts : List String) : String :=
  if parts.isEmpty then opening ++ closing
  else
    opening ++ lineBreak (level + 1) ++ ("," ++ lineBreak (level + 1)).intercalate parts ++
      lineBreak level ++ closing

mutual

/-- The JSON text with a line for each part, for a document that stands `level` levels deep. -/
def prettyAt (level : Nat) : Document → String
  | .atom a _ => atomText a
  | .sequence items => bracketed "[" "]" level (prettyItems (level + 1) items)
  | .mapping entries => bracketed "\x7b" "\x7d" level (prettyEntries (level + 1) entries)
  | .tagged _ inner => prettyAt level inner

def prettyItems (level : Nat) : List Document → List String
  | [] => []
  | d :: ds => prettyAt level d :: prettyItems level ds

def prettyEntries (level : Nat) : List (Document × Document) → List String
  | [] => []
  | e :: es => prettyEntry level e :: prettyEntries level es

def prettyEntry (level : Nat) : Document × Document → String
  | (k, v) => keyText k ++ ": " ++ prettyAt level v

end

def pretty (d : Document) : String := prettyAt 0 d

end Workflow.Json
