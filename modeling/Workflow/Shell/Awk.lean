import Workflow.Shell.Printf
import Workflow.Shell.Regex

/-!
# Programs on records

A program is a list of rules. Rules run before all lines, for each line that their pattern fits, and
after all lines. Values are numbers and texts; texts from outside that look like numbers are both.
-/
namespace Workflow.Shell.Awk

inductive Datum where
  | number (x : Binary64)
  | text (s : String)
  /-- A text from outside, which may look like a number. -/
  | given (s : String)
  deriving Repr

namespace Datum

/-- The number with which a text begins. -/
def leadingNumber (s : String) : Binary64 :=
  let cs := s.toList.dropWhile Char.isWhitespace
  let (negative, cs) :=
    match cs with
    | '-' :: rest => (true, rest)
    | '+' :: rest => (false, rest)
    | cs => (false, cs)
  let whole := cs.takeWhile isAsciiDigit
  let rest := cs.drop whole.length
  let fraction :=
    match rest with
    | '.' :: rest => rest.takeWhile isAsciiDigit
    | _ => []
  let rest := if rest.head? = some '.' then rest.drop (fraction.length + 1) else rest
  let exponent : Int :=
    match rest with
    | 'e' :: rest | 'E' :: rest =>
      match rest with
      | '-' :: digits => -(decimalValue (digits.takeWhile isAsciiDigit) : Int)
      | '+' :: digits => decimalValue (digits.takeWhile isAsciiDigit)
      | digits => decimalValue (digits.takeWhile isAsciiDigit)
    | _ => 0
  .ofDecimal negative (decimalValue (whole ++ fraction)) (exponent - fraction.length)

/-- Does a text from outside look like a number? -/
def looksNumeric (s : String) : Bool :=
  ! s.trimAscii.isEmpty && ((Scalar.ofLooseText s.trimAscii.toString).toBinary64?).isSome

def toNumber : Datum → Binary64
  | number x => x
  | text s | given s => leadingNumber s

def toText : Datum → String
  | number x => if x.isIntegral then x.fixedText 0 else x.generalText 6
  | text s | given s => s

def isNumeric : Datum → Bool
  | number _ => true
  | given s => looksNumeric s
  | text _ => false

def isTrue : Datum → Bool
  | number x => ! x.numEq (.zero false)
  | text s => ! s.isEmpty
  | given s => if looksNumeric s then ! (leadingNumber s).numEq (.zero false) else ! s.isEmpty

/-- Numbers are compared as numbers, all else as texts. -/
def compare (op : String) (a b : Datum) : Bool :=
  if a.isNumeric && b.isNumeric then
    let (x, y) := (a.toNumber, b.toNumber)
    match op with
    | "<" => x.numLt y
    | "<=" => x.numLe y
    | ">" => y.numLt x
    | ">=" => y.numLe x
    | "==" => x.numEq y
    | _ => ! x.numEq y
  else
    let (s, t) := (a.toText, b.toText)
    match op with
    | "<" => s < t
    | "<=" => s ≤ t
    | ">" => t < s
    | ">=" => t ≤ s
    | "==" => s == t
    | _ => s != t

def ofBool (b : Bool) : Datum := .number (.ofInt (if b then 1 else 0))

end Datum

inductive Expression where
  | number (x : Binary64)
  | text (s : String)
  | regex (r : Regex)
  | variable (name : String)
  | field (index : Expression)
  /-- An assignment; the operator combines the old value with the new one. -/
  | assign (name : String) (op : Option String) (value : Expression)
  /-- Change a variable by one; the value is that before or after. -/
  | step (name : String) (op : String) (before : Bool)
  | unary (op : String) (a : Expression)
  | binary (op : String) (a b : Expression)
  | choice (condition yes no : Expression)
  | call (name : String) (arguments : List Expression)

inductive Statement where
  | print (items : List Expression)
  | printf (items : List Expression)
  | evaluate (e : Expression)
  | branch (condition : Expression) (yes : Statement) (no : Option Statement)
  | loop (condition : Expression) (body : Statement)
  | block (statements : List Statement)
  | next
  | exit (status : Option Expression)

inductive Occasion where
  | before
  | after
  | always
  | when (e : Expression)

structure Rule where
  occasion : Occasion
  action : Statement

/-! ## Symbols -/

inductive Symbol where
  | number (x : Binary64)
  | text (s : String)
  | regex (r : Regex)
  | name (s : String)
  | operator (s : String)

namespace Symbol

def operators : List String :=
  ["&&", "||", "==", "!=", "<=", ">=", "++", "--", "+=", "-=", "*=", "/=", "%=", "+", "-", "*",
    "/", "%", "<", ">", "!", "~", "?", ":", "(", ")", "\x7b", "\x7d", ";", ",", "$", "=", "^"]

/-- After these symbols a slash divides. -/
def endsOperand : Option Symbol → Bool
  | some (.number _) | some (.text _) | some (.name _) => true
  | some (.operator s) => s == ")" || s == "$"
  | _ => false

/-- The text up to a closing character that has no backward slash before it. -/
def quotedText (closing : Char) : List Char → Option (List Char × List Char)
  | [] => none
  | '\\' :: c :: rest => (quotedText closing rest).map fun (cs, rest) =>
      ((if c = closing then [c] else ['\\', c]) ++ cs, rest)
  | c :: rest =>
    if c = closing then some ([], rest)
    else (quotedText closing rest).map fun (cs, rest) => (c :: cs, rest)

/-- The text that a quoted text with escapes stands for. -/
def unescaped (cs : List Char) : String := textOfBytes (unescape false (cs.length + 1) cs).1

/-- The length of the exponent in front. -/
def exponentLength : List Char → Nat
  | e :: rest =>
    let signs := match rest with
      | '-' :: _ | '+' :: _ => 1
      | _ => 0
    let digits := (rest.drop signs).takeWhile isAsciiDigit
    if (e = 'e' || e = 'E') && ! digits.isEmpty then 1 + signs + digits.length else 0
  | [] => 0

/-- The symbols of a program. The end of a line is a semicolon. -/
def read? : Nat → Option Symbol → List Char → Option (List Symbol)
  | 0, _, _ => none
  | fuel + 1, last, cs =>
    let go (s : Symbol) (rest : List Char) : Option (List Symbol) :=
      (read? fuel (some s) rest).map (s :: ·)
    match cs with
    | [] => some []
    | '\n' :: rest => go (.operator ";") rest
    | '\\' :: '\n' :: rest => read? fuel last rest
    | '#' :: rest => read? fuel last (rest.dropWhile (· ≠ '\n'))
    | '"' :: rest => do
      let (inner, rest) ← quotedText '"' rest
      go (.text (unescaped inner)) rest
    | c :: rest =>
      if c.isWhitespace then read? fuel last rest
      else if c = '/' && ! endsOperand last then do
        let (inner, rest) ← quotedText '/' rest
        go (.regex (← Regex.ofChars? true inner)) rest
      else if c.isAlpha || c = '_' then
        let isWord (c : Char) : Bool := c.isAlphanum || c == '_'
        go (.name (String.ofList (c :: rest.takeWhile isWord))) (rest.dropWhile isWord)
      else if isAsciiDigit c || (c = '.' && rest.head?.any isAsciiDigit) then
        let digits := cs.takeWhile fun c => isAsciiDigit c || c = '.'
        let length := digits.length + exponentLength (cs.drop digits.length)
        go (.number (Datum.leadingNumber (String.ofList (cs.take length)))) (cs.drop length)
      else
        match operators.find? fun s => s.toList.isPrefixOf cs with
        | some op => go (.operator op) (cs.drop op.length)
        | none => none

end Symbol

/-! ## Reading -/

abbrev Symbols := List Symbol

def skipEnds : Symbols → Symbols
  | .operator ";" :: rest => skipEnds rest
  | ss => ss

/-- Does an operand begin here, so that two operands in a row are put together? -/
def beginsOperand : Symbols → Bool
  | .number _ :: _ | .text _ :: _ | .regex _ :: _ => true
  | .name s :: _ => s != "in"
  | .operator s :: _ => ["(", "$", "!", "-", "+", "++", "--"].contains s
  | [] => false

/-- The operators of each level, those that bind least first. The empty operator puts texts
together. -/
def levels : List (List String) :=
  [["||"], ["&&"], ["~", "!~"], ["<", "<=", "==", "!=", ">", ">="], [""], ["+", "-"],
    ["*", "/", "%"]]

/-- The operator of a level that is next. `plain` tells that a greater-than sign is none. -/
def operatorOf? (plain : Bool) (level : List String) (ss : Symbols) : Option (String × Symbols) :=
  match ss with
  | .operator "!" :: .operator "~" :: rest =>
    if level.contains "!~" then some ("!~", rest) else none
  | .operator s :: rest =>
    if level.contains s && ! (plain && s = ">") then some (s, rest)
    else if level = [""] && beginsOperand ss && ! ["+", "-", "!"].contains s then some ("", ss)
    else none
  | ss => if level = [""] && beginsOperand ss then some ("", ss) else none

mutual

def readExpression? (plain : Bool) : Nat → Symbols → Option (Expression × Symbols)
  | 0, _ => none
  | fuel + 1, ss => do
    match ss with
    | .name x :: .operator "=" :: rest =>
      let (e, rest) ← readExpression? plain fuel rest
      return (.assign x none e, rest)
    | .name x :: .operator op :: rest =>
      if ["+=", "-=", "*=", "/=", "%="].contains op then
        let (e, rest) ← readExpression? plain fuel rest
        return (.assign x (some (op.dropEnd 1).toString) e, rest)
      else readChoice? plain fuel ss
    | ss => readChoice? plain fuel ss

def readChoice? (plain : Bool) : Nat → Symbols → Option (Expression × Symbols)
  | 0, _ => none
  | fuel + 1, ss => do
    let (c, rest) ← readLevel? plain fuel levels ss
    match rest with
    | .operator "?" :: rest =>
      let (yes, rest) ← readExpression? plain fuel rest
      match rest with
      | .operator ":" :: rest =>
        let (no, rest) ← readExpression? plain fuel rest
        return (.choice c yes no, rest)
      | _ => none
    | rest => return (c, rest)

def readLevel? (plain : Bool) :
    Nat → List (List String) → Symbols → Option (Expression × Symbols)
  | 0, _, _ => none
  | fuel + 1, [], ss => readUnary? fuel ss
  | fuel + 1, level :: tighter, ss => do
    let (a, rest) ← readLevel? plain fuel tighter ss
    readLevelRest? plain fuel level tighter a rest

def readLevelRest? (plain : Bool) : Nat → List String → List (List String) → Expression →
    Symbols → Option (Expression × Symbols)
  | 0, _, _, _, _ => none
  | fuel + 1, level, tighter, a, ss =>
    match operatorOf? plain level ss with
    | none => some (a, ss)
    | some (op, rest) => do
      let (b, rest) ← readLevel? plain fuel tighter rest
      readLevelRest? plain fuel level tighter (.binary op a b) rest

def readUnary? : Nat → Symbols → Option (Expression × Symbols)
  | 0, _ => none
  | fuel + 1, ss =>
    match ss with
    | .operator "++" :: .name x :: rest => some (.step x "+" false, rest)
    | .operator "--" :: .name x :: rest => some (.step x "-" false, rest)
    | .operator op :: rest =>
      if ["!", "-", "+"].contains op then
        (readUnary? fuel rest).map fun (a, rest) => (.unary op a, rest)
      else readPower? fuel ss
    | ss => readPower? fuel ss

def readPower? : Nat → Symbols → Option (Expression × Symbols)
  | 0, _ => none
  | fuel + 1, ss => do
    let (a, rest) ← readPrimary? fuel ss
    match rest with
    | .operator "^" :: rest =>
      let (b, rest) ← readUnary? fuel rest
      return (.binary "^" a b, rest)
    | rest => return (a, rest)

def readPrimary? : Nat → Symbols → Option (Expression × Symbols)
  | 0, _ => none
  | fuel + 1, ss =>
    match ss with
    | .number x :: rest => some (.number x, rest)
    | .text s :: rest => some (.text s, rest)
    | .regex r :: rest => some (.regex r, rest)
    | .operator "$" :: rest => (readPrimary? fuel rest).map fun (a, rest) => (.field a, rest)
    | .operator "(" :: rest => do
      let (a, rest) ← readExpression? false fuel rest
      match rest with
      | .operator ")" :: rest => return (a, rest)
      | _ => none
    | .name f :: .operator "(" :: rest => do
      let (arguments, rest) ← readItems? false fuel rest
      match rest with
      | .operator ")" :: rest => return (.call f arguments, rest)
      | _ => none
    | .name x :: .operator "++" :: rest => some (.step x "+" true, rest)
    | .name x :: .operator "--" :: rest => some (.step x "-" true, rest)
    | .name x :: rest => some (.variable x, rest)
    | _ => none

def readItems? (plain : Bool) : Nat → Symbols → Option (List Expression × Symbols)
  | 0, _ => none
  | fuel + 1, ss =>
    if ! beginsOperand ss then some ([], ss)
    else do
      let (e, rest) ← readExpression? plain fuel ss
      match rest with
      | .operator "," :: rest =>
        let (es, rest) ← readItems? plain fuel (skipEnds rest)
        return (e :: es, rest)
      | rest => return ([e], rest)

end

mutual

def readStatement? : Nat → Symbols → Option (Statement × Symbols)
  | 0, _ => none
  | fuel + 1, ss => do
    let size := 24 * ss.length + 24
    match ss with
    | .operator "\x7b" :: rest =>
      let (statements, rest) ← readBlock? fuel rest
      return (.block statements, rest)
    | .name "if" :: .operator "(" :: rest =>
      let (c, rest) ← readExpression? false size rest
      match rest with
      | .operator ")" :: rest =>
        let (yes, rest) ← readStatement? fuel (skipEnds rest)
        match skipEnds rest with
        | .name "else" :: after =>
          let (no, rest) ← readStatement? fuel (skipEnds after)
          return (.branch c yes (some no), rest)
        | _ => return (.branch c yes none, rest)
      | _ => none
    | .name "while" :: .operator "(" :: rest =>
      let (c, rest) ← readExpression? false size rest
      match rest with
      | .operator ")" :: rest =>
        let (body, rest) ← readStatement? fuel (skipEnds rest)
        return (.loop c body, rest)
      | _ => none
    | .name "for" :: .operator "(" :: rest =>
      let (start, rest) ← readExpression? false size rest
      let (c, rest) ← readExpression? false size (skipEnds rest)
      let (step, rest) ← readExpression? false size (skipEnds rest)
      match rest with
      | .operator ")" :: rest =>
        let (body, rest) ← readStatement? fuel (skipEnds rest)
        return (.block [.evaluate start, .loop c (.block [body, .evaluate step])], rest)
      | _ => none
    | .name "print" :: rest =>
      let (items, rest) ← readItems? true size rest
      return (.print items, rest)
    | .name "printf" :: rest =>
      let (items, rest) ← readItems? true size rest
      return (.printf items, rest)
    | .name "next" :: rest => return (.next, rest)
    | .name "exit" :: rest =>
      if beginsOperand rest then
        let (e, rest) ← readExpression? false size rest
        return (.exit (some e), rest)
      else return (.exit none, rest)
    | ss =>
      let (e, rest) ← readExpression? false size ss
      return (.evaluate e, rest)

def readBlock? : Nat → Symbols → Option (List Statement × Symbols)
  | 0, _ => none
  | fuel + 1, ss =>
    match skipEnds ss with
    | .operator "\x7d" :: rest => some ([], rest)
    | ss => do
      let (s, rest) ← readStatement? fuel ss
      let (more, rest) ← readBlock? fuel rest
      return (s :: more, rest)

end

/-- The rules of a program. A pattern without an action prints the line. -/
def readRules? : Nat → Symbols → Option (List Rule)
  | 0, _ => none
  | fuel + 1, ss => do
    let ss := skipEnds ss
    if ss.isEmpty then return []
    let (occasion, ss) ←
      match ss with
      | .name "BEGIN" :: rest => some (.before, rest)
      | .name "END" :: rest => some (.after, rest)
      | .operator "\x7b" :: _ => some (.always, ss)
      | ss => (readExpression? false (24 * ss.length + 24) ss).map fun (e, rest) =>
          (Occasion.when e, rest)
    match ss with
    | .operator "\x7b" :: rest =>
      let (statements, rest) ← readBlock? (4 * rest.length + 4) rest
      return ⟨occasion, .block statements⟩ :: (← readRules? fuel rest)
    | ss => return ⟨occasion, .print []⟩ :: (← readRules? fuel ss)

def Rule.ofProgram? (program : String) : Option (List Rule) := do
  let ss ← Symbol.read? (program.length + 1) none program.toList
  readRules? (ss.length + 1) ss

/-! ## Running -/

structure Memory where
  bindings : Dict Datum
  line : String
  /-- The text between fields; a blank stands for any run of blanks. -/
  separator : String
  written : List UInt8

/-- What ends the rules for a line, or all of them. -/
inductive Ending where
  | next
  | exit (status : Nat)

abbrev Action (α : Type) := ExceptT Ending (StateM Memory) α

def fieldsOf (separator line : String) : List String :=
  if separator = " " then (line.splitToList Char.isWhitespace).filter fun w => ! w.isEmpty
  else if line.isEmpty then []
  else line.splitOn separator

def valueOf (name : String) : Action Datum := do
  let m ← get
  match name with
  | "NF" => return .number (.ofInt (fieldsOf m.separator m.line).length)
  | name => return (m.bindings.get? name).getD (.given "")

def setValue (name : String) (d : Datum) : Action Unit :=
  modify fun m => { m with
    bindings := m.bindings.insert name d
    separator := if name = "FS" then d.toText else m.separator }

def power (x : Binary64) (n : Int) : Binary64 :=
  let p := (List.range n.natAbs).foldl (fun p _ => p * x) (.ofInt 1)
  if n < 0 then .ofInt 1 / p else p

def arithmetic (op : String) (x y : Binary64) : Binary64 :=
  match op with
  | "+" => x + y
  | "-" => x - y
  | "*" => x * y
  | "/" => x / y
  | "^" => if y.isIntegral then power x y.truncate else .nan
  | _ => x - y * .ofInt (x / y).truncate

def callFunction (name : String) (arguments : List Datum) (line : String) : Datum :=
  let first := arguments.head?.getD (.given line)
  match name with
  | "length" => .number (.ofInt first.toText.length)
  | "int" => .number (.ofInt first.toNumber.truncate)
  | "toupper" => .text first.toText.toUpper
  | "tolower" => .text first.toText.toLower
  | "substr" =>
    let start := ((arguments.getD 1 (.number (.ofInt 1))).toNumber.truncate - 1)
    let cs := first.toText.toList
    let count : Int :=
      match arguments[2]? with
      | some n => n.toNumber.truncate
      | none => cs.length
    let stop := (start + count).toNat
    .text (String.ofList ((cs.take stop).drop start.toNat))
  | _ => .given ""

mutual

def Expression.eval : Nat → Expression → Action Datum
  | 0, _ => return .given ""
  | fuel + 1, e => do
    match e with
    | .number x => return .number x
    | .text s => return .text s
    | .regex r => return .ofBool (r.search 0 [] (← get).line.toList).isSome
    | .variable name => valueOf name
    | .field index =>
      let i := (← Expression.eval fuel index).toNumber.truncate.toNat
      let m ← get
      if i = 0 then return .given m.line
      else return .given ((fieldsOf m.separator m.line).getD (i - 1) "")
    | .assign name op value =>
      let v ← Expression.eval fuel value
      let v ← match op with
        | none => pure v
        | some op => do
          pure (.number (arithmetic op (← valueOf name).toNumber v.toNumber))
      setValue name v
      return v
    | .step name op before =>
      let old := (← valueOf name).toNumber
      let new := arithmetic op old (.ofInt 1)
      setValue name (.number new)
      return .number (if before then old else new)
    | .unary op a =>
      let v ← Expression.eval fuel a
      match op with
      | "!" => return .ofBool (! v.isTrue)
      | "-" => return .number (-v.toNumber)
      | _ => return .number v.toNumber
    | .binary "&&" a b =>
      if (← Expression.eval fuel a).isTrue then
        return .ofBool (← Expression.eval fuel b).isTrue
      else return .ofBool false
    | .binary "||" a b =>
      if (← Expression.eval fuel a).isTrue then return .ofBool true
      else return .ofBool (← Expression.eval fuel b).isTrue
    | .binary op a b =>
      let x ← Expression.eval fuel a
      let fits (r : Regex) : Bool := (r.search 0 [] x.toText.toList).isSome
      let regex? : Option Regex ←
        match b with
        | .regex r => pure (some r)
        | b => do
          if op = "~" || op = "!~" then
            pure (Regex.ofChars? true (← Expression.eval fuel b).toText.toList)
          else pure none
      match op, regex? with
      | "~", some r => return .ofBool (fits r)
      | "!~", some r => return .ofBool (! fits r)
      | _, _ =>
        let y ← Expression.eval fuel b
        if op = "" then return .text (x.toText ++ y.toText)
        else if ["<", "<=", "==", "!=", ">", ">="].contains op then
          return .ofBool (x.compare op y)
        else return .number (arithmetic op x.toNumber y.toNumber)
    | .choice c a b =>
      if (← Expression.eval fuel c).isTrue then Expression.eval fuel a
      else Expression.eval fuel b
    | .call name arguments =>
      let values ← Expression.evalAll fuel arguments
      return callFunction name values (← get).line

def Expression.evalAll : Nat → List Expression → Action (List Datum)
  | 0, _ => return []
  | _ + 1, [] => return []
  | fuel + 1, e :: rest => do
    let v ← Expression.eval fuel e
    return v :: (← Expression.evalAll fuel rest)

end

mutual

def Statement.run : Nat → Statement → Action Unit
  | 0, _ => throw (.exit 2)
  | fuel + 1, s => do
    match s with
    | .print items =>
      let values ← Expression.evalAll fuel items
      let line := (← get).line
      let text := if items.isEmpty then line else " ".intercalate (values.map Datum.toText)
      modify fun m => { m with written := m.written ++ bytesOf (text ++ "\n") }
    | .printf items =>
      let values := (← Expression.evalAll fuel items).map Datum.toText
      let format := (values.headD "").toList
      let f := formatOnce (format.length + 1) format ⟨[], values.tail, [], false, none⟩
      modify fun m => { m with written := m.written ++ f.bytes }
    | .evaluate e =>
      let _ ← Expression.eval fuel e
    | .branch c yes no =>
      if (← Expression.eval fuel c).isTrue then Statement.run fuel yes
      else
        match no with
        | some s => Statement.run fuel s
        | none => return
    | .loop c body =>
      if (← Expression.eval fuel c).isTrue then
        Statement.run fuel body
        Statement.run fuel (.loop c body)
    | .block statements => Statement.runAll fuel statements
    | .next => throw .next
    | .exit status =>
      match status with
      | none => throw (.exit 0)
      | some e => throw (.exit (← Expression.eval fuel e).toNumber.truncate.toNat)

def Statement.runAll : Nat → List Statement → Action Unit
  | 0, _ => throw (.exit 2)
  | _ + 1, [] => return
  | fuel + 1, s :: rest => do
    Statement.run fuel s
    Statement.runAll fuel rest

end

/-- How many steps a rule may take. -/
def stepLimit : Nat := 100000

def runRules (rules : List Rule) (chosen : Occasion → Action Bool) : Action Unit :=
  rules.forM fun r => do
    if ← chosen r.occasion then r.action.run stepLimit

def runLine (rules : List Rule) (number : Nat) (line : String) : Action Unit := do
  modify fun m => { m with
    line, bindings := m.bindings.insert "NR" (.number (.ofInt number)) }
  try
    runRules rules fun
      | .always => return true
      | .when e => return (← e.eval stepLimit).isTrue
      | _ => return false
  catch
    | .next => return
    | e => throw e

/-- Run a program on lines; the result is the status. -/
def runProgram (rules : List Rule) (lines : List String) : StateM Memory Nat := do
  let body : Action Unit := do
    runRules rules fun
      | .before => return true
      | _ => return false
    ((List.range lines.length).zip lines).forM fun (i, line) => runLine rules (i + 1) line
  let ending : Action Unit := runRules rules fun
    | .after => return true
    | _ => return false
  match ← body.run with
  | .error (.exit status) => return status
  | _ =>
    match ← ending.run with
    | .error (.exit status) => return status
    | _ => return 0

/-- Assignments and the separator among the arguments, and the other arguments. -/
def readOptions : Memory → List String → Memory × List String
  | m, "-v" :: a :: rest =>
    let name := String.ofList (a.toList.takeWhile (· ≠ '='))
    let value := Symbol.unescaped (a.toList.drop (name.length + 1))
    readOptions { m with bindings := m.bindings.insert name (.given value) } rest
  | m, "-F" :: s :: rest => readOptions { m with separator := s } rest
  | m, a :: rest =>
    if a.startsWith "-F" then readOptions { m with separator := (a.drop 2).toString } rest
    else (m, a :: rest)
  | m, [] => (m, [])

end Awk

open Awk in
/-- The tool that runs programs on records. Without rules for lines no input is read. -/
def awk : Tool := fun arguments => do
  let (memory, rest) := readOptions ⟨Dict.empty, "", " ", []⟩ arguments
  match rest with
  | [] => failWith 2 "usage: awk [-F fs][-v var=value][prog][file ...]"
  | program :: paths =>
    match Rule.ofProgram? program with
    | none => failWith 2 "awk: syntax error"
    | some rules =>
      let reads := rules.any fun r =>
        match r.occasion with
        | .before => false
        | _ => true
      let (status, texts) ← if reads then readAll "awk" paths else pure (0, [])
      let (result, memory) := (runProgram rules (texts.flatMap linesOf)).run memory
      put (textOfBytes memory.written)
      return if result ≠ 0 then result else if status ≠ 0 then 2 else 0

end Workflow.Shell
