import Workflow.Data.Dict
import Workflow.Text.Digits

/-!
# Arithmetic expressions

Integers of 64 bits that wrap around, with the operators of C. Names stand for the variables of the
shell, which assignments change.
-/
namespace Workflow.Shell

inductive Arithmetic where
  | number (n : Int)
  | variable (name : String)
  | unary (op : String) (a : Arithmetic)
  | binary (op : String) (a b : Arithmetic)
  | choice (condition yes no : Arithmetic)
  /-- An assignment; the operator combines the old value with the new one. -/
  | assign (name : String) (op : Option String) (value : Arithmetic)
  deriving Repr

inductive ArithmeticFault where
  | divisionByZero
  | illegalNumber (text : String)
  /-- Something else should stand where it does not. -/
  | expecting (what : String)
  deriving DecidableEq, Repr

namespace ArithmeticFault

def message (expression : String) : ArithmeticFault → String
  | divisionByZero => "arithmetic expression: division by zero: \"" ++ expression ++ "\""
  | illegalNumber text => "Illegal number: " ++ text
  | expecting what =>
    "arithmetic expression: expecting " ++ what ++ ": \"" ++ expression ++ "\""

end ArithmeticFault

/-- The number that digits in front denote, which are hexadecimal, octal or decimal, and what
follows them. -/
def leadingInteger? (cs : List Char) : Option (Int × List Char) :=
  let ofBase (base : Nat) (cs : List Char) : Option (Int × List Char) :=
    let digits := (cs.map hexDigitValue?).takeWhile fun d => d.any (· < base)
    if digits.isEmpty then none
    else some ((digits.reduceOption.foldl (fun n d => base * n + d) 0 : Nat), cs.drop digits.length)
  match cs with
  | '0' :: 'x' :: digits | '0' :: 'X' :: digits =>
    (ofBase 16 digits).or (some (0, cs.tail))
  | '0' :: _ => ofBase 8 cs
  | cs => ofBase 10 cs

def integer? (text : String) : Option Int :=
  match leadingInteger? text.toList with
  | some (n, []) => some n
  | _ => none

def wrap (n : Int) : Int := n.bmod (Nat.pow 2 64)

namespace Arithmetic

inductive Symbol where
  | number (n : Int)
  | name (s : String)
  | operator (s : String)
  deriving DecidableEq, Repr

/-- The operators, longer ones before those with which they begin. -/
def operators : List String :=
  ["<<=", ">>=", "&&", "||", "==", "!=", "<=", ">=", "<<", ">>", "+=", "-=", "*=", "/=", "%=",
    "&=", "|=", "^=", "+", "-", "*", "/", "%", "<", ">", "&", "|", "^", "!", "~", "?", ":", "(",
    ")", "="]

/-- The symbols of an expression. A character without a meaning is an operator that does not fit
anywhere. -/
def symbols : Nat → List Char → List Symbol
  | 0, _ | _, [] => []
  | fuel + 1, c :: rest =>
    let isWord (c : Char) : Bool := c.isAlphanum || c == '_'
    if c.isWhitespace then symbols fuel rest
    else
      match leadingInteger? (c :: rest) with
      | some (n, rest) => .number n :: symbols fuel rest
      | none =>
        if isWord c then
          .name (String.ofList (c :: rest.takeWhile isWord)) ::
            symbols fuel (rest.dropWhile isWord)
        else
          let op := (operators.find? fun s => s.toList.isPrefixOf (c :: rest)).getD
            (String.singleton c)
          .operator op :: symbols fuel ((c :: rest).drop op.length)

/-- How closely an operator binds. -/
def power? (op : String) : Option Nat :=
  if op = "||" then some 1
  else if op = "&&" then some 2
  else if op = "|" then some 3
  else if op = "^" then some 4
  else if op = "&" then some 5
  else if ["==", "!="].contains op then some 6
  else if ["<", "<=", ">", ">="].contains op then some 7
  else if ["<<", ">>"].contains op then some 8
  else if ["+", "-"].contains op then some 9
  else if ["*", "/", "%"].contains op then some 10
  else none

/-- The operator that an assignment combines with. -/
def combining? (op : String) : Option (Option String) :=
  if op = "=" then some none
  else if op.endsWith "=" && (power? op).isNone then some (some (op.dropEnd 1).toString)
  else none

/-- What is read with what follows it. -/
abbrev Reading := Except ArithmeticFault (Arithmetic × List Symbol)

mutual

/-- Read an expression with assignments and choices. -/
def read : Nat → List Symbol → Reading
  | 0, _ => .error (.expecting "primary")
  | fuel + 1, ss => do
    let assignment : Option (String × Option String × List Symbol) :=
      match ss with
      | .name x :: .operator op :: rest => (combining? op).map fun c => (x, c, rest)
      | _ => none
    match assignment with
    | some (name, op, rest) =>
      let (value, rest) ← read fuel rest
      return (.assign name op value, rest)
    | none =>
      let (a, rest) ← readUnary fuel ss
      let (condition, rest) ← readRest fuel 0 a rest
      match rest with
      | .operator "?" :: rest =>
        let (yes, rest) ← read fuel rest
        match rest with
        | .operator ":" :: rest =>
          let (no, rest) ← read fuel rest
          return (.choice condition yes no, rest)
        | _ => throw (.expecting "':'")
      | rest => return (condition, rest)

/-- Read operators that bind at least as closely as a power, with what follows them. -/
def readRest : Nat → Nat → Arithmetic → List Symbol → Reading
  | 0, _, _, _ => .error (.expecting "primary")
  | fuel + 1, least, a, ss =>
    match ss with
    | .operator op :: rest =>
      match power? op with
      | none => .ok (a, ss)
      | some power =>
        if power < least then .ok (a, ss)
        else do
          let (b, rest) ← readUnary fuel rest
          let (b, rest) ← readRest fuel (power + 1) b rest
          readRest fuel least (.binary op a b) rest
    | ss => .ok (a, ss)

def readUnary : Nat → List Symbol → Reading
  | 0, _ => .error (.expecting "primary")
  | fuel + 1, ss =>
    match ss with
    | .number n :: rest => .ok (.number n, rest)
    | .name x :: rest => .ok (.variable x, rest)
    | .operator "(" :: rest => do
      let (a, rest) ← read fuel rest
      match rest with
      | .operator ")" :: rest => return (a, rest)
      | _ => throw (.expecting "')'")
    | .operator op :: rest => do
      if ["+", "-", "!", "~"].contains op then
        let (a, rest) ← readUnary fuel rest
        return (.unary op a, rest)
      else throw (.expecting "primary")
    | [] => .error (.expecting "primary")

end

/-- The expression that a text is. A text without any symbol is zero. -/
def ofText (text : String) : Except ArithmeticFault Arithmetic := do
  let ss := symbols (text.length + 1) text.toList
  if ss.isEmpty then return .number 0
  else
    let (a, rest) ← read (4 * ss.length + 4) ss
    if rest.isEmpty then return a else throw (.expecting "EOF")

def valueOf (bindings : Dict String) (name : String) : Except ArithmeticFault Int :=
  match bindings.get? name with
  | none | some "" => .ok 0
  | some text =>
    let digits := if text.startsWith "-" then (text.drop 1).toString else text
    match integer? digits with
    | some n => .ok (if text.startsWith "-" then -n else n)
    | none => .error (.illegalNumber text)

def ofBool (b : Bool) : Int := if b then 1 else 0

def combine (op : String) (a b : Int) : Except ArithmeticFault Int :=
  let bits (f : Int64 → Int64 → Int64) : Int := (f (Int64.ofInt a) (Int64.ofInt b)).toInt
  match op with
  | "+" => .ok (wrap (a + b))
  | "-" => .ok (wrap (a - b))
  | "*" => .ok (wrap (a * b))
  | "/" => if b = 0 then .error .divisionByZero else .ok (wrap (a.tdiv b))
  | "%" => if b = 0 then .error .divisionByZero else .ok (a.tmod b)
  | "<<" => .ok (bits (· <<< ·))
  | ">>" => .ok (bits (· >>> ·))
  | "&" => .ok (bits (· &&& ·))
  | "|" => .ok (bits (· ||| ·))
  | "^" => .ok (bits (· ^^^ ·))
  | "<" => .ok (ofBool (a < b))
  | "<=" => .ok (ofBool (a ≤ b))
  | ">" => .ok (ofBool (b < a))
  | ">=" => .ok (ofBool (b ≤ a))
  | "==" => .ok (ofBool (a = b))
  | "!=" => .ok (ofBool (a ≠ b))
  | _ => .error (.expecting "primary")

/-- The value of an expression, with the variables that it changes. -/
def eval : Arithmetic → StateT (Dict String) (Except ArithmeticFault) Int
  | .number n => return wrap n
  | .variable name => do valueOf (← get) name
  | .unary op a => do
    let n ← a.eval
    match op with
    | "-" => return wrap (-n)
    | "!" => return ofBool (n = 0)
    | "~" => return -n - 1
    | _ => return n
  | .binary "&&" a b => do
    if (← a.eval) = 0 then return 0 else return ofBool ((← b.eval) ≠ 0)
  | .binary "||" a b => do
    if (← a.eval) ≠ 0 then return 1 else return ofBool ((← b.eval) ≠ 0)
  | .binary op a b => do
    let m ← a.eval
    let n ← b.eval
    combine op m n
  | .choice c a b => do
    if (← c.eval) ≠ 0 then a.eval else b.eval
  | .assign name op a => do
    let n ← a.eval
    let value ← match op with
      | none => pure n
      | some op => do combine op (← valueOf (← get) name) n
    modify fun bindings => bindings.insert name (toString value)
    return value

end Arithmetic
end Workflow.Shell
