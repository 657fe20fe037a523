import Workflow.Document.Basic
import Workflow.Text.Digits
import Workflow.Time.Instant

/-!
# Bare values

Values without quotes: truth values, integers in four bases, doubles, and dates and times. A date or
a time becomes a mapping with its text under a key of its own, since nothing that is configured is a
date.
-/
namespace Workflow.Toml

/-- Digits of a base with single underscores between them, as a number. -/
def digitRun? (base : Nat) : List Char → Nat → Option Nat
  | [], _ => none
  | '_' :: _, _ => none
  | c :: rest, n => do
    let d ← hexDigitValue? c
    if base ≤ d then none
    else
      match rest with
      | [] => some (base * n + d)
      | '_' :: rest => digitRun? base rest (base * n + d)
      | rest => digitRun? base rest (base * n + d)

/-- Drop one sign; the first part tells whether it was a minus. -/
def splitSign : List Char → Bool × List Char
  | '+' :: rest => (false, rest)
  | '-' :: rest => (true, rest)
  | cs => (false, cs)

def hasLeadingZero : List Char → Bool
  | '0' :: _ :: _ => true
  | _ => false

/-- A decimal integer without a leading zero. -/
def decimalInt? (cs : List Char) : Option Int := do
  let (negative, digits) := splitSign cs
  if hasLeadingZero digits then none
  else
    let n ← digitRun? 10 digits 0
    return if negative then -(n : Int) else n

/-- An integer of 64 bits in one of four bases; only decimal ones have a sign. -/
def int? (cs : List Char) : Option Int := do
  let n ←
    match cs with
    | '0' :: 'x' :: digits => (digitRun? 16 digits 0).map Int.ofNat
    | '0' :: 'o' :: digits => (digitRun? 8 digits 0).map Int.ofNat
    | '0' :: 'b' :: digits => (digitRun? 2 digits 0).map Int.ofNat
    | _ => decimalInt? cs
  if Document.fitsInt64 n then some n else none

/-- The digits after a point, with their number. -/
def fraction? (cs : List Char) : Option (Nat × Nat) := do
  let n ← digitRun? 10 cs 0
  return (n, (cs.filter isAsciiDigit).length)

/-- A number with a point or an exponent. Positive overflow is refused. -/
def decimalFloat? (cs : List Char) : Option Binary64 := do
  let mark (c : Char) : Bool := c == 'e' || c == 'E'
  let decimals := cs.takeWhile fun c => !mark c
  let whole := decimals.takeWhile (· != '.')
  let (negative, digits) := splitSign whole
  let w ← if hasLeadingZero digits then none else digitRun? 10 digits 0
  let (f, places) ←
    match decimals.dropWhile (· != '.') with
    | [] => some (0, 0)
    | _ :: after => fraction? after
  let exponent : Int ←
    match cs.dropWhile fun c => !mark c with
    | [] => some 0
    | _ :: after =>
      let (below, size) := splitSign after
      (digitRun? 10 size 0).map fun n => if below then -(n : Int) else n
  if decimals.length = whole.length && decimals.length = cs.length then none
  else
    let x := Binary64.ofDecimal negative (w * Nat.pow 10 places + f) (exponent - places)
    if x = .infinite false then none else some x

def float? (cs : List Char) : Option Binary64 :=
  let (negative, size) := splitSign cs
  match String.ofList size with
  | "inf" => some (.infinite negative)
  | "nan" => some .nan
  | _ => decimalFloat? cs

/-! ## Dates and times -/

/-- Two digits that denote a number in a range. -/
def twoDigits? (low high : Nat) : List Char → Option (Nat × List Char)
  | a :: b :: rest =>
    if isAsciiDigit a && isAsciiDigit b then
      let n := decimalValue [a, b]
      if low ≤ n && n ≤ high then some (n, rest) else none
    else none
  | _ => none

def expect? (c : Char) : List Char → Option (List Char)
  | d :: rest => if c = d then some rest else none
  | [] => none

/-- A date, as a check; the rest of the text is given back. -/
def afterDate? (cs : List Char) : Option (List Char) := do
  let year := cs.take 4
  if year.length = 4 && year.all isAsciiDigit then
    let rest ← expect? '-' (cs.drop 4)
    let (month, rest) ← twoDigits? 1 12 rest
    let rest ← expect? '-' rest
    let (_, rest) ← twoDigits? 1 (Instant.Date.monthLength (decimalValue year) month) rest
    return rest
  else none

/-- A time of day, as a check. A second may be a leap second. -/
def afterClock? (cs : List Char) : Option (List Char) := do
  let (_, rest) ← twoDigits? 0 23 cs
  let rest ← expect? ':' rest
  let (_, rest) ← twoDigits? 0 59 rest
  let rest ← expect? ':' rest
  let (_, rest) ← twoDigits? 0 60 rest
  match rest with
  | '.' :: digits =>
    if digits.head?.any isAsciiDigit then some (digits.dropWhile isAsciiDigit) else none
  | _ => some rest

/-- A distance to universal time, as a check. -/
def isOffset (cs : List Char) : Bool :=
  match cs with
  | [] => true
  | ['Z'] | ['z'] => true
  | sign :: rest =>
    (sign == '+' || sign == '-') &&
      (do
        let (_, rest) ← twoDigits? 0 23 rest
        let rest ← expect? ':' rest
        let (_, rest) ← twoDigits? 0 59 rest
        return rest.isEmpty).getD false

/-- A date, a time, or both with or without an offset. -/
def isDateTime (cs : List Char) : Bool :=
  match afterDate? cs with
  | some [] => true
  | some (mark :: rest) =>
    (mark == 'T' || mark == 't' || mark == ' ') && ((afterClock? rest).map isOffset).getD false
  | none => ((afterClock? cs).map (·.isEmpty)).getD false

/-- The key of a date in the mapping that stands for it. -/
def dateKey : String := "$date"

/-- The value that a text without quotes denotes. -/
def bareValue? (cs : List Char) : Option Document :=
  match String.ofList cs with
  | "true" => some (Document.bool true)
  | "false" => some (Document.bool false)
  | text =>
    if isDateTime cs then some (.record [(dateKey, .text text)])
    else
      match float? cs with
      | some x => some (Document.float x)
      | none => (int? cs).map Document.int

end Workflow.Toml
