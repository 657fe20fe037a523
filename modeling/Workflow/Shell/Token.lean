import Workflow.Shell.Syntax
import Workflow.Text.Digits

/-!
# Tokens of a command text

A command text is split into words and operators. Quotes and expansions are recognised on the way,
and the text of a here-document is read as soon as its line is over.
-/
namespace Workflow.Shell

/-- A token of a command text. -/
inductive Token where
  | word (w : Word)
  | operator (s : String)
  /-- A number directly before a redirection. -/
  | stream (n : Nat)
  /-- The here-document with a number. -/
  | here (index : Nat)
  | newline
  /-- What follows is no token. -/
  | broken (f : SyntaxFault)

structure Placed where
  token : Token
  line : Nat

def isNameStart (c : Char) : Bool := c.isAlpha || c == '_'

def isNameChar (c : Char) : Bool := c.isAlphanum || c == '_'

def isName (s : String) : Bool :=
  match s.toList with
  | [] => false
  | c :: rest => isNameStart c && rest.all isNameChar

/-- Characters that end a word. -/
def endsWord (c : Char) : Bool := " \t\n;&|<>()".toList.contains c

/-- The parts of a word that is being read, the last one first, with one more character. -/
def addChar (c : Char) (quoted : Bool) : List WordPart → List WordPart
  | .text s q :: rest =>
    if q = quoted then .text (s.push c) q :: rest
    else .text (String.singleton c) quoted :: .text s q :: rest
  | parts => .text (String.singleton c) quoted :: parts

def addChars (cs : List Char) (quoted : Bool) (parts : List WordPart) : List WordPart :=
  cs.foldl (fun parts c => addChar c quoted parts) parts

/-- The characters up to a quote. -/
def upToQuote (quote : Char) : List Char → Option (List Char × List Char)
  | [] => none
  | c :: rest =>
    if c = quote then some ([], rest)
    else (upToQuote quote rest).map fun (cs, rest) => (c :: cs, rest)

/-- The characters up to the bracket that closes, those of brackets and quotes within included.
`quote` is the quote that is open. -/
def upToClosing : Nat → Option Char → List Char → Option (List Char × List Char)
  | _, _, [] => none
  | depth, some q, '\\' :: c :: rest =>
    if q = '"' then
      (upToClosing depth (some q) rest).map fun (cs, rest) => ('\\' :: c :: cs, rest)
    else
      (upToClosing depth (if c = q then none else some q) rest).map fun (cs, rest) =>
        ('\\' :: c :: cs, rest)
  | depth, none, '\\' :: c :: rest =>
    (upToClosing depth none rest).map fun (cs, rest) => ('\\' :: c :: cs, rest)
  | depth, some q, c :: rest =>
    (upToClosing depth (if c = q then none else some q) rest).map fun (cs, rest) => (c :: cs, rest)
  | depth, none, c :: rest =>
    let go (depth : Nat) (quote : Option Char) : Option (List Char × List Char) :=
      (upToClosing depth quote rest).map fun (cs, rest) => (c :: cs, rest)
    if c = ')' then
      match depth with
      | 0 => some ([], rest)
      | depth + 1 => go depth none
    else if c = '(' then go (depth + 1) none
    else if c = '"' || c = '\'' then go depth (some c)
    else go depth none

/-- The text of a command between backward quotes, which may stand in double quotes. -/
def upToBackquote (quoted : Bool) : List Char → Option (List Char × List Char)
  | [] => none
  | '\x60' :: rest => some ([], rest)
  | '\\' :: c :: rest =>
    (upToBackquote quoted rest).map fun (cs, rest) =>
      if c = '\x60' || c = '\\' || c = '$' || (quoted && c = '"') then (c :: cs, rest)
      else ('\\' :: c :: cs, rest)
  | c :: rest => (upToBackquote quoted rest).map fun (cs, rest) => (c :: cs, rest)

/-- Where a word stands, which decides how it ends. -/
inductive Place where
  | bare
  | doubleQuotes
  | braces (quoted : Bool)
  /-- A here-document or an arithmetic expression. -/
  | whole
  deriving DecidableEq

namespace Place

/-- Are single characters and expansions taken as quoted? -/
def quotes : Place → Bool
  | bare | braces false => false
  | _ => true

/-- Does a character end the word? -/
def isEnd (p : Place) (c : Char) : Bool :=
  match p with
  | bare => endsWord c
  | doubleQuotes => c == '"'
  | braces _ => c == '}'
  | whole => false

/-- Characters that lose their meaning after a backward slash. -/
def escapes (p : Place) (c : Char) : Bool :=
  match p with
  | bare | braces false => true
  | whole => "$\x60\\".toList.contains c
  | _ => "$\x60\\\"".toList.contains c || p.isEnd c

end Place

/-- The treatment that an operator in braces stands for. -/
def treatment? : List Char → Option (Treatment × List Char)
  | ':' :: '-' :: rest => some (.orElse true, rest)
  | ':' :: '=' :: rest => some (.orAssign true, rest)
  | ':' :: '?' :: rest => some (.orFail true, rest)
  | ':' :: '+' :: rest => some (.ifPresent true, rest)
  | '-' :: rest => some (.orElse false, rest)
  | '=' :: rest => some (.orAssign false, rest)
  | '?' :: rest => some (.orFail false, rest)
  | '+' :: rest => some (.ifPresent false, rest)
  | '#' :: '#' :: rest => some (.withoutStart true, rest)
  | '#' :: rest => some (.withoutStart false, rest)
  | '%' :: '%' :: rest => some (.withoutEnd true, rest)
  | '%' :: rest => some (.withoutEnd false, rest)
  | _ => none

/-- The name of a parameter: a name, a number or a special character. -/
def parameterName? (inBraces : Bool) : List Char → Option (String × List Char)
  | [] => none
  | c :: rest =>
    if isNameStart c then
      some (String.ofList (c :: rest.takeWhile isNameChar), rest.dropWhile isNameChar)
    else if isAsciiDigit c then
      if inBraces then
        some (String.ofList (c :: rest.takeWhile isAsciiDigit), rest.dropWhile isAsciiDigit)
      else some (String.singleton c, rest)
    else if "?#@*$!-".toList.contains c then some (String.singleton c, rest)
    else none

mutual

/-- Read the parts of a word up to its end. The result leaves the character that ends it. -/
def readParts : Nat → Place → List WordPart → List Char → Except SyntaxFault (Word × List Char)
  | 0, _, _, _ => .error (.atEnd none)
  | _ + 1, p, parts, [] =>
    match p with
    | .bare | .whole => .ok (parts.reverse, [])
    | .braces _ => .error (.missing "\x7d")
    | .doubleQuotes => .error .unterminatedQuote
  | fuel + 1, p, parts, c :: rest =>
    if p.isEnd c then .ok (parts.reverse, c :: rest)
    else if c = '\\' then
      match rest with
      | [] => readParts fuel p (addChar c p.quotes parts) []
      | '\n' :: rest => readParts fuel p parts rest
      | e :: rest' =>
        if p.escapes e then readParts fuel p (addChar e true parts) rest'
        else readParts fuel p (addChar c p.quotes parts) rest
    else if c = '$' then do
      let (part, rest) ← readExpansion fuel p.quotes rest
      match part with
      | some part => readParts fuel p (part :: parts) rest
      | none => readParts fuel p (addChar c p.quotes parts) rest
    else if c = '\x60' then
      match upToBackquote (p = .doubleQuotes) rest with
      | none => .error .unterminatedBackquote
      | some (cs, rest) => readParts fuel p (.output (String.ofList cs) p.quotes :: parts) rest
    else if c = '\'' && !p.quotes then
      match upToQuote c rest with
      | none => .error .unterminatedQuote
      | some (cs, rest) => readParts fuel p (addChars cs true (.text "" true :: parts)) rest
    else if c = '"' && p ≠ .whole then do
      let (inner, rest) ← readParts fuel .doubleQuotes [] rest
      readParts fuel p (inner.reverse ++ .text "" true :: parts) rest.tail
    else readParts fuel p (addChar c p.quotes parts) rest

/-- Read what follows a dollar sign. Without a meaning the sign stands for itself. -/
def readExpansion : Nat → Bool → List Char → Except SyntaxFault (Option WordPart × List Char)
  | 0, _, _ => .error (.atEnd none)
  | fuel + 1, quoted, '(' :: '(' :: rest =>
    match upToClosing 1 none rest with
    | none => .error (.missing "))")
    | some (cs, rest) => do
      let (w, _) ← readParts fuel .whole [] cs.dropLast
      return (some (.arithmetic w quoted), rest)
  | _ + 1, quoted, '(' :: rest =>
    match upToClosing 0 none rest with
    | none => .error (.atEnd (some "\")\""))
    | some (cs, rest) => .ok (some (.output (String.ofList cs) quoted), rest)
  | fuel + 1, quoted, '{' :: rest => readBraces fuel quoted rest
  | _ + 1, quoted, cs =>
    match parameterName? false cs with
    | some (name, rest) => .ok (some (.parameter name quoted), rest)
    | none => .ok (none, cs)

/-- Read an expansion in braces. -/
def readBraces : Nat → Bool → List Char → Except SyntaxFault (Option WordPart × List Char)
  | 0, _, _ => .error (.atEnd none)
  | fuel + 1, quoted, cs =>
    let length? : Option WordPart × List Char :=
      match cs with
      | '#' :: cs' =>
        match parameterName? true cs' with
        | some (name, '}' :: rest) => (some (.lengthOf name quoted), rest)
        | _ => (none, cs)
      | _ => (none, cs)
    match length? with
    | (some part, rest) => .ok (some part, rest)
    | (none, cs) =>
      match parameterName? true cs with
      | none => .error (if cs.isEmpty then .missing "\x7d" else .badSubstitution)
      | some (name, '}' :: rest) => .ok (some (.parameter name quoted), rest)
      | some (name, rest) =>
        match treatment? rest with
        | none => .error (if rest.isEmpty then .missing "\x7d" else .badSubstitution)
        | some (t, rest) => do
          let (w, rest) ← readParts fuel (.braces quoted) [] rest
          return (some (.treated name t w quoted), rest.tail)

end

/-- A word of the whole of a text, as in a here-document. -/
def Word.ofText (cs : List Char) : Except SyntaxFault Word := do
  return (← readParts (2 * cs.length + 1) .whole [] cs).1

/-- The text of a word without expansions, and whether a part of it is quoted. -/
def Word.literal (w : Word) : String × Bool :=
  (String.join (w.map fun p =>
    match p with
    | .text s _ => s
    | _ => ""), w.any fun p =>
    match p with
    | .text _ q => q
    | _ => false)

/-- The text of a word that is not quoted at all. -/
def Word.bare? : Word → Option String
  | [.text s false] => some s
  | _ => none

/-- A here-document whose text follows the line. -/
structure Pending where
  delimiter : String
  literal : Bool
  withoutTabs : Bool

/-- The lines up to a delimiter, and what follows it. -/
def upToLine (p : Pending) : Nat → List Char → List Char × List Char
  | 0, cs => (cs, [])
  | _ + 1, [] => ([], [])
  | fuel + 1, cs =>
    let line := cs.takeWhile (· ≠ '\n')
    let line := if p.withoutTabs then line.dropWhile (· = '\t') else line
    let ending := (cs.dropWhile (· ≠ '\n')).take 1
    let rest := (cs.dropWhile (· ≠ '\n')).tail
    if String.ofList line = p.delimiter then ([], rest)
    else
      let (body, rest) := upToLine p fuel rest
      (line ++ ending ++ body, rest)

/-- Read the here-documents that are pending at the end of a line. -/
def readPending : List Pending → List Char → Except SyntaxFault (List Word × List Char)
  | [], cs => .ok ([], cs)
  | p :: more, cs => do
    let (body, rest) := upToLine p cs.length cs
    let w ← if p.literal then pure [WordPart.text (String.ofList body) true] else Word.ofText body
    let (ws, rest) ← readPending more rest
    return (w :: ws, rest)

/-- The operators, longer ones before those with which they begin. -/
def operators : List String :=
  ["&&", "||", ";;", "<<-", "<<", ">>", ">&", "<&", ">|", ";", "&", "|", "(", ")", "<", ">"]

def operator? (cs : List Char) : Option (String × List Char) :=
  (operators.find? fun s => s.toList.isPrefixOf cs).map fun s => (s, cs.drop s.length)

/-- The tokens of a text with its here-documents. -/
structure Tokens where
  tokens : List Placed
  documents : List Word

/-- Digits directly before a redirection. -/
def stream? (cs : List Char) : Option (Nat × List Char) :=
  let digits := cs.takeWhile isAsciiDigit
  let rest := cs.drop digits.length
  match digits, rest with
  | _ :: _, '<' :: _ | _ :: _, '>' :: _ => some (decimalValue digits, rest)
  | _, _ => none

/-- Read all tokens. `total` is the number of line ends in the whole text. What is no token comes
last and stands at the end. -/
def readTokens (total : Nat) : Nat → List Pending → Tokens → List Char → Tokens
  | 0, _, done, _ => done
  | fuel + 1, pending, done, cs =>
    let line := total - cs.count '\n' + 1
    let add (t : Token) : Tokens := { done with tokens := ⟨t, line⟩ :: done.tokens }
    let broken (f : SyntaxFault) : Tokens :=
      { done with tokens := ⟨.broken f, total + 1⟩ :: done.tokens }
    match cs with
    | [] => done
    | ' ' :: rest | '\t' :: rest | '\\' :: '\n' :: rest => readTokens total fuel pending done rest
    | '#' :: rest => readTokens total fuel pending done (rest.dropWhile (· ≠ '\n'))
    | '\n' :: rest =>
      match readPending pending rest with
      | .error f => broken f
      | .ok (ws, rest) =>
        let done := add .newline
        readTokens total fuel [] { done with documents := done.documents ++ ws } rest
    | _ =>
      match stream? cs, operator? cs with
      | some (n, rest), _ => readTokens total fuel pending (add (.stream n)) rest
      | none, some (op, rest) =>
        if op = "<<" || op = "<<-" then
          match readParts (2 * rest.length + 1) .bare []
            (rest.dropWhile fun c => c == ' ' || c == '\t') with
          | .error f => broken f
          | .ok (w, rest) =>
            let (delimiter, literal) := w.literal
            let index := done.documents.length + pending.length
            readTokens total fuel (pending ++ [⟨delimiter, literal, op = "<<-"⟩])
              (add (.here index)) rest
        else readTokens total fuel pending (add (.operator op)) rest
      | none, none =>
        match readParts (2 * cs.length + 1) .bare [] cs with
        | .error f => broken f
        | .ok (w, rest) => readTokens total fuel pending (add (.word w)) rest

def Tokens.ofText (text : String) : Tokens :=
  let cs := text.toList
  let done := readTokens (cs.count '\n') (cs.length + 1) [] ⟨[], []⟩ cs
  { done with tokens := done.tokens.reverse }

end Workflow.Shell
