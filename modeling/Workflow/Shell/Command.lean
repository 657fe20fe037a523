import Workflow.Shell.Token

/-!
# Reading commands

Tokens are put together to a command by recursive descent. A reserved word is one only where a
command may begin and where no part of it is quoted.
-/
namespace Workflow.Shell

/-- Commands being read: the tokens ahead are part of the result. -/
abbrev Ahead := List Placed

/-- What is read, or the fault with the number of tokens that are left at it. -/
abbrev Reading (α : Type) := Except (SyntaxFault × Nat) α

/-- Words with a meaning of their own where a command may begin. -/
def reservedWords : List String :=
  ["!", "\x7b", "\x7d", "case", "do", "done", "elif", "else", "esac", "fi", "for", "if", "in",
    "then", "until", "while"]

/-- Words that end a list of commands. -/
def closers : List String := ["then", "do", "done", "fi", "else", "elif", "\x7d", "esac"]

/-- The reserved word or operator that is next. -/
def next? : Ahead → Option String
  | ⟨.word w, _⟩ :: _ => w.bare?
  | ⟨.operator s, _⟩ :: _ => some s
  | _ => none

def quotedSign (s : String) : String := "\"" ++ s ++ "\""

/-- The fault at a token that cannot stand where it does. -/
def unexpectedFor {α : Type} (expected : Option String) (ts : Ahead) : Reading α :=
  let fault : SyntaxFault :=
    match ts with
    | [] => .atEnd expected
    | ⟨.broken f, _⟩ :: _ => f
    | ⟨.newline, _⟩ :: _ => .unexpected "newline" expected
    | ⟨.stream _, _⟩ :: _ | ⟨.here _, _⟩ :: _ => .unexpected "redirection" expected
    | ⟨.operator s, _⟩ :: _ =>
      .unexpected (if ["<", ">", ">>", ">&", "<&", ">|"].contains s then "redirection"
        else quotedSign s) expected
    | ⟨.word w, _⟩ :: _ =>
      .unexpected ((w.bare?.filter reservedWords.contains).elim "word" quotedSign) expected
  .error (fault, ts.length)

def unexpected {α : Type} (ts : Ahead) : Reading α := unexpectedFor none ts

def skipNewlines : Ahead → Ahead
  | ⟨.newline, _⟩ :: rest => skipNewlines rest
  | ts => ts

def expect (s : String) (ts : Ahead) : Reading Ahead :=
  if next? ts = some s then .ok ts.tail else unexpectedFor (some (quotedSign s)) ts

/-- Does a list of commands end here? -/
def endsList (ts : Ahead) : Bool :=
  match ts with
  | [] => true
  | ⟨.operator s, _⟩ :: _ => s == ")" || s == ";;"
  | _ => (next? ts).any closers.contains

/-- The redirection that an operator and a word make. -/
def redirection (stream : Option Nat) (op : String) (w : Word) : Redirection :=
  let output := stream.getD 1
  match op with
  | "<" => .read (stream.getD 0) w
  | ">>" => .write output w true
  | ">&" =>
    match w.bare?.bind (·.toNat?) with
    | some source => .duplicate output source
    | none => .write output w false
  | "<&" => .duplicate (stream.getD 0) ((w.bare?.bind (·.toNat?)).getD 0)
  | _ => .write output w false

def redirection? (documents : List Word) :
    Ahead → Option (Reading (Redirection × Ahead))
  | ts =>
    let (stream, ts) : Option Nat × Ahead :=
      match ts with
      | ⟨.stream n, _⟩ :: rest => (some n, rest)
      | ts => (none, ts)
    match ts with
    | ⟨.here i, _⟩ :: rest => some (.ok (.here (stream.getD 0) (documents.getD i []), rest))
    | ⟨.operator op, _⟩ :: rest =>
      if ["<", ">", ">>", ">&", "<&", ">|"].contains op then
        match rest with
        | ⟨.word w, _⟩ :: rest => some (.ok (redirection stream op w, rest))
        | rest => some (unexpected rest)
      else none
    | _ => none

def readRedirections (documents : List Word) :
    Nat → Ahead → Reading (List Redirection × Ahead)
  | 0, ts => .ok ([], ts)
  | fuel + 1, ts =>
    match redirection? documents ts with
    | none => .ok ([], ts)
    | some (.error e) => .error e
    | some (.ok (r, ts)) => do
      let (rs, ts) ← readRedirections documents fuel ts
      return (r :: rs, ts)

/-- The assignment that a word is. -/
def assignment? : Word → Option (String × Word)
  | .text s false :: rest =>
    let name := String.ofList (s.toList.takeWhile (· ≠ '='))
    if isName name && name.length < s.length then
      let value := (s.drop (name.length + 1)).toString
      some (name, if value.isEmpty then rest else .text value false :: rest)
    else none
  | _ => none

def readSimple (documents : List Word) (line : Nat) : Nat → List (String × Word) → List Word →
    List Redirection → Ahead → Reading (Command × Ahead)
  | 0, _, _, _, ts => unexpected ts
  | fuel + 1, assignments, words, redirections, ts =>
    match redirection? documents ts with
    | some (.error e) => .error e
    | some (.ok (r, ts)) =>
      readSimple documents line fuel assignments words (redirections ++ [r]) ts
    | none =>
      match ts with
      | ⟨.word w, _⟩ :: rest =>
        match if words.isEmpty then assignment? w else none with
        | some a => readSimple documents line fuel (assignments ++ [a]) words redirections rest
        | none => readSimple documents line fuel assignments (words ++ [w]) redirections rest
      | _ =>
        if assignments.isEmpty && words.isEmpty && redirections.isEmpty then
          unexpected ts
        else .ok (.simple line assignments words redirections, ts)

/-- The words up to the end of a list. -/
def readWords : Ahead → List Word × Ahead
  | ⟨.word w, _⟩ :: rest =>
    let (ws, rest) := readWords rest
    (w :: ws, rest)
  | ts => ([], ts)

def readPatterns : Ahead → Reading (List Word × Ahead)
  | ⟨.word w, _⟩ :: ⟨.operator "|", _⟩ :: rest => do
    let (ws, rest) ← readPatterns rest
    return (w :: ws, rest)
  | ⟨.word w, _⟩ :: ⟨.operator ")", _⟩ :: rest => .ok ([w], rest)
  | ts => unexpectedFor (some (quotedSign ")")) (ts.drop 1)

mutual

/-- Commands up to the end of a list. Only some lists may be empty. -/
def readList (documents : List Word) : Nat → Bool → Ahead → Reading (List Command × Ahead)
  | 0, _, ts => unexpected ts
  | fuel + 1, mayEnd, ts =>
    let ts := skipNewlines ts
    if ts.isEmpty || mayEnd && endsList ts then .ok ([], ts)
    else do
      let (c, ts) ← readAndOr documents fuel ts
      match ts with
      | ⟨.newline, _⟩ :: rest | ⟨.operator ";", _⟩ :: rest | ⟨.operator "&", _⟩ :: rest => do
        let (cs, ts) ← readList documents fuel true rest
        return (c :: cs, ts)
      | ts => if endsList ts then return ([c], ts) else unexpected ts

/-- Pipelines that depend on the success or the failure of those before them. -/
def readAndOr (documents : List Word) : Nat → Ahead → Reading (Command × Ahead)
  | 0, ts => unexpected ts
  | fuel + 1, ts => do
    let (first, ts) ← readPipeline documents fuel ts
    readAndOrRest documents fuel first ts

def readAndOrRest (documents : List Word) :
    Nat → Command → Ahead → Reading (Command × Ahead)
  | 0, _, ts => unexpected ts
  | fuel + 1, first, ts =>
    match next? ts with
    | some "&&" => do
      let (second, ts) ← readPipeline documents fuel (skipNewlines ts.tail)
      readAndOrRest documents fuel (.both first second) ts
    | some "||" => do
      let (second, ts) ← readPipeline documents fuel (skipNewlines ts.tail)
      readAndOrRest documents fuel (.either first second) ts
    | _ => .ok (first, ts)

def readPipeline (documents : List Word) : Nat → Ahead → Reading (Command × Ahead)
  | 0, ts => unexpected ts
  | fuel + 1, ts => do
    if next? ts = some "!" then
      let (stages, ts) ← readStages documents fuel ts.tail
      return (.pipeline true stages, ts)
    else
      let (stages, ts) ← readStages documents fuel ts
      match stages with
      | [c] => return (c, ts)
      | _ => return (.pipeline false stages, ts)

def readStages (documents : List Word) : Nat → Ahead → Reading (List Command × Ahead)
  | 0, ts => unexpected ts
  | fuel + 1, ts => do
    let (c, ts) ← readCommand documents fuel ts
    if next? ts = some "|" then
      let (cs, ts) ← readStages documents fuel (skipNewlines ts.tail)
      return (c :: cs, ts)
    else return ([c], ts)

def readBody (documents : List Word) (opener closer : String) :
    Nat → Ahead → Reading (Command × Ahead)
  | 0, ts => unexpected ts
  | fuel + 1, ts => do
    let ts ← expect opener ts
    let (cs, ts) ← readList documents fuel false ts
    let ts ← expect closer ts
    return (.sequence cs, ts)

/-- What follows a condition that has been met or not. -/
def readBranch (documents : List Word) : Nat → Ahead → Reading (Command × Ahead)
  | 0, ts => unexpected ts
  | fuel + 1, ts => do
    let (condition, ts) ← readList documents fuel false ts
    let ts ← expect "then" ts
    let (yes, ts) ← readList documents fuel false ts
    let (no, ts) ← match next? ts with
      | some "elif" => readBranch documents fuel ts.tail
      | some "else" => do
        let (cs, ts) ← readList documents fuel false ts.tail
        pure (.sequence cs, ← expect "fi" ts)
      | _ => pure (.nothing, ← expect "fi" ts)
    return (.branch (.sequence condition) (.sequence yes) no, ts)

def readArms (documents : List Word) :
    Nat → Ahead → Reading (List (List Word × Command) × Ahead)
  | 0, ts => unexpected ts
  | fuel + 1, ts => do
    let ts := skipNewlines ts
    if next? ts = some "esac" then return ([], ts.tail)
    let ts := if next? ts = some "(" then ts.tail else ts
    let (patterns, ts) ← readPatterns ts
    let (cs, ts) ← readList documents fuel true ts
    let ts ← if next? ts = some "esac" then pure ts else expect ";;" ts
    let (arms, ts) ← readArms documents fuel ts
    return ((patterns, .sequence cs) :: arms, ts)

def readCommand (documents : List Word) : Nat → Ahead → Reading (Command × Ahead)
  | 0, ts => unexpected ts
  | fuel + 1, ts => do
    let compound (apart : Bool) (c : Command × Ahead) : Reading (Command × Ahead) := do
      let (redirections, ts) ← readRedirections documents fuel c.2
      return (.block apart c.1 redirections, ts)
    match next? ts with
    | some "(" => compound true (← readBody documents "(" ")" fuel ts)
    | some "\x7b" => compound false (← readBody documents "\x7b" "\x7d" fuel ts)
    | some "if" => compound false (← readBranch documents fuel ts.tail)
    | some "while" | some "until" => do
      let (condition, ts') ← readList documents fuel false ts.tail
      let (body, ts') ← readBody documents "do" "done" fuel ts'
      compound false (.loop (next? ts = some "until") (.sequence condition) body, ts')
    | some "for" =>
      match ts.tail with
      | ⟨.word w, _⟩ :: rest => do
        let name := w.bare?.getD ""
        if ! isName name then throw (.badLoopVariable, rest.length + 1)
        let rest := skipNewlines rest
        let (items, rest) : Option (List Word) × Ahead :=
          if next? rest = some "in" then
            let (ws, rest) := readWords rest.tail
            (some ws, rest)
          else (none, rest)
        let rest ← match rest with
          | ⟨.operator ";", _⟩ :: rest => pure rest
          | ⟨.newline, _⟩ :: rest => pure rest
          | rest => if items.isSome then unexpected rest else pure rest
        let (body, rest) ← readBody documents "do" "done" fuel (skipNewlines rest)
        compound false (.each name items body, rest)
      | rest => throw (.badLoopVariable, rest.length)
    | some "case" =>
      match ts.tail with
      | ⟨.word w, _⟩ :: rest => do
        let rest ← expect "in" (skipNewlines rest)
        let (arms, rest) ← readArms documents fuel rest
        compound false (.choice w arms, rest)
      | rest => unexpectedFor (some "word") rest
    | some name =>
      if reservedWords.contains name || endsList ts then unexpected ts
      else
        match ts.tail with
        | ⟨.operator "(", _⟩ :: rest => do
          if ! isName name then unexpected ts.tail
          let rest ← expect ")" rest
          let (body, rest) ← readCommand documents fuel (skipNewlines rest)
          return (.define name body, rest)
        | _ => readSimple documents (ts.head?.elim 1 (·.line)) (ts.length + 1) [] [] [] ts
    | none =>
      if ts.isEmpty then unexpected ts
      else readSimple documents (ts.head?.elim 1 (·.line)) (ts.length + 1) [] [] [] ts

end

/-- The commands of one line, which may go on over more lines. -/
def readLineOf (documents : List Word) (fuel : Nat) :
    Nat → Ahead → Reading (List Command × Ahead)
  | 0, ts => unexpected ts
  | lines + 1, ts => do
    let (c, ts) ← readAndOr documents fuel ts
    match ts with
    | [] => return ([c], [])
    | ⟨.newline, _⟩ :: rest => return ([c], rest)
    | ⟨.operator ";", _⟩ :: rest | ⟨.operator "&", _⟩ :: rest =>
      match rest with
      | [] => return ([c], [])
      | ⟨.newline, _⟩ :: rest => return ([c], rest)
      | rest => do
        let (cs, ts) ← readLineOf documents fuel lines rest
        return (c :: cs, ts)
    | ts => unexpected ts

/-- The commands line by line. -/
def readLines (documents : List Word) (fuel : Nat) :
    Nat → List Command → Ahead → List Command × Option (SyntaxFault × Nat)
  | 0, done, _ => (done, none)
  | lines + 1, done, ts =>
    match skipNewlines ts with
    | [] => (done, none)
    | ts =>
      match readLineOf documents fuel (ts.length + 1) ts with
      | .ok (cs, ts) => readLines documents fuel lines (done ++ [.sequence cs]) ts
      | .error e => (done, some e)

def Script.ofText (text : String) : Script :=
  let t := Tokens.ofText text
  let fuel := 12 * t.tokens.length + 12
  let (commands, fault) := readLines t.documents fuel (t.tokens.length + 1) [] t.tokens
  let lineAt (left : Nat) : Nat :=
    match t.tokens[t.tokens.length - left]? with
    | some ⟨.newline, line⟩ => line + 1
    | some ⟨_, line⟩ => line
    | none => text.toList.count '\n' + 1
  ⟨commands, fault.map fun (f, left) => (f, lineAt left)⟩

end Workflow.Shell
