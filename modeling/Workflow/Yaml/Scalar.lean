import Workflow.Document.Basic
import Workflow.Text.Digits

/-!
# Plain scalars

What a YAML scalar without quotes denotes: null, a truth value, an integer in one of four bases, a
double, or its own text. Digits after a leading zero make a text.
-/
namespace Workflow.Yaml

def isNullText (s : String) : Bool :=
  s == "" || s == "~" || s == "null" || s == "Null" || s == "NULL"

def boolOfText? (s : String) : Option Bool :=
  if s == "true" || s == "True" || s == "TRUE" then some true
  else if s == "false" || s == "False" || s == "FALSE" then some false
  else none

/-- The value of a digit in a base of at most sixteen. -/
def digitValue? (base : Nat) (c : Char) : Option Nat := do
  let d ← hexDigitValue? c
  if d < base then some d else none

/-- A natural number in a base; there must be a digit. -/
def natOfDigits? (base : Nat) (cs : List Char) : Option Nat :=
  if cs.isEmpty then none
  else (cs.mapM (digitValue? base)).map fun ds => ds.foldl (fun n d => base * n + d) 0

def withoutSign : List Char → List Char
  | '+' :: rest => rest
  | '-' :: rest => rest
  | cs => cs

/-- More than one digit, the first of them zero. -/
def hasLeadingZero (cs : List Char) : Bool :=
  match withoutSign cs with
  | '0' :: d :: rest => (d :: rest).all isAsciiDigit
  | _ => false

/-- Digits after a mark for their base. -/
def basedNat? : List Char → Option Nat
  | '0' :: 'x' :: rest => natOfDigits? 16 rest
  | '0' :: 'o' :: rest => natOfDigits? 8 rest
  | '0' :: 'b' :: rest => natOfDigits? 2 rest
  | _ => none

/-- An integer with an optional sign. -/
def intOfText? (cs : List Char) : Option Int :=
  let digits := withoutSign cs
  let negative := cs.head? == some '-'
  let magnitude : Option Nat :=
    match basedNat? digits with
    | some n => some n
    | none => if hasLeadingZero cs then none else natOfDigits? 10 digits
  magnitude.map fun n => if negative then -(n : Int) else n

/-- Does an integer fit 128 bits, signed or not? -/
def fitsWide (n : Int) : Bool := -(Nat.pow 2 127) ≤ n && n < Nat.pow 2 128

/-- An exponent of ten after its `e`. -/
def exponentOfText? (cs : List Char) : Option Int :=
  let digits := withoutSign cs
  (natOfDigits? 10 digits).map fun n => if cs.head? == some '-' then -(n : Int) else n

/-- A decimal number without a sign, with digits on at least one side of its point. -/
def unsignedDecimal? (negative : Bool) (cs : List Char) : Option Binary64 :=
  let whole := cs.takeWhile isAsciiDigit
  let rest := cs.dropWhile isAsciiDigit
  let (fraction, rest) :=
    match rest with
    | '.' :: after => (after.takeWhile isAsciiDigit, after.dropWhile isAsciiDigit)
    | _ => ([], rest)
  if whole.isEmpty && fraction.isEmpty then none
  else
    let exponent : Option Int :=
      match rest with
      | [] => some 0
      | 'e' :: after | 'E' :: after => exponentOfText? after
      | _ => none
    exponent.map fun e =>
      Binary64.ofDecimal negative (decimalValue (whole ++ fraction)) (e - fraction.length)

def isInfinityText (s : String) : Bool := s == ".inf" || s == ".Inf" || s == ".INF"

/-- A double: a decimal number that does not overflow, or one of the named values. -/
def floatOfText? (s : String) : Option Binary64 :=
  let cs := s.toList
  let digits := withoutSign cs
  let negative := cs.head? == some '-'
  if isInfinityText (String.ofList digits) then some (.infinite negative)
  else if s == ".nan" || s == ".NaN" || s == ".NAN" then some .nan
  else
    match unsignedDecimal? negative digits with
    | some x => if x.isFinite then some x else none
    | none => none

/-- What a plain scalar denotes. -/
def plainAtom (s : String) : Atom :=
  if isNullText s then .null
  else
    match boolOfText? s with
    | some b => .bool b
    | none =>
      let cs := s.toList
      match (intOfText? cs).filter fitsWide with
      | some n => .int n
      | none =>
        if hasLeadingZero cs then .text s
        else
          match floatOfText? s with
          | some x => .float x
          | none => .text s

/-- A plain scalar; all but texts remember how they were written. -/
def plainScalarDocument (s : String) : Document :=
  match plainAtom s with
  | .text s => .text s
  | a => .atom a (some s)

end Workflow.Yaml
