import Workflow.Document.Decode
import Workflow.Text.Blank
import Workflow.Text.Digits

/-!
# Instants

An instant is a number of seconds since the beginning of 1970 in universal time and a number of
nanoseconds, which passes a thousand million within a leap second. Instants are read and written as
texts such as `2019-05-01T10:00:00.250Z`.
-/
namespace Workflow

structure Instant where
  seconds : Int
  nanos : Nat
  deriving DecidableEq, Repr

namespace Instant

instance : Inhabited Instant := ⟨⟨0, 0⟩⟩

def before (a b : Instant) : Bool :=
  a.seconds < b.seconds || (a.seconds = b.seconds && a.nanos < b.nanos)

def billion : Nat := 1000000000

def addNanos (t : Instant) (n : Nat) : Instant :=
  let nanos := t.nanos + n
  ⟨t.seconds + ((nanos / billion : Nat) : Int), nanos % billion⟩

def addMillis (t : Instant) (ms : Nat) : Instant := t.addNanos (ms * 1000000)

/-! ## Calendar -/

/-- A day of the proleptic Gregorian calendar. -/
structure Date where
  year : Int
  month : Nat
  day : Nat
  deriving DecidableEq, Repr

namespace Date

def isLeap (year : Int) : Bool := year % 4 = 0 && (year % 100 ≠ 0 || year % 400 = 0)

def monthLength (year : Int) (month : Nat) : Nat :=
  match month with
  | 2 => if isLeap year then 29 else 28
  | 4 | 6 | 9 | 11 => 30
  | _ => 31

def isValid (d : Date) : Bool :=
  1 ≤ d.month && d.month ≤ 12 && 1 ≤ d.day && d.day ≤ monthLength d.year d.month

/-- Days from the first of March of year zero; years are taken to begin in March. -/
def dayNumber (d : Date) : Int :=
  let y := if d.month ≤ 2 then d.year - 1 else d.year
  let m := (d.month + 9) % 12
  y * 365 + y / 4 - y / 100 + y / 400 + ((m * 153 + 2) / 5 : Nat) + d.day - 1

/-- The number of the first day of 1970. -/
def epochDay : Int := dayNumber ⟨1970, 1, 1⟩

def ofDayNumber (n : Int) : Date :=
  let era := n / 146097
  let dayOfEra := (n % 146097).toNat
  let yearOfEra := (dayOfEra - dayOfEra / 1460 + dayOfEra / 36524 - dayOfEra / 146096) / 365
  let dayOfYear := dayOfEra - (365 * yearOfEra + yearOfEra / 4 - yearOfEra / 100)
  let m := (5 * dayOfYear + 2) / 153
  let month := if m < 10 then m + 3 else m - 9
  let year := era * 400 + yearOfEra
  ⟨if month ≤ 2 then year + 1 else year, month, dayOfYear - (153 * m + 2) / 5 + 1⟩

end Date

/-! ## Writing -/

/-- A year has four digits; other years have a sign. -/
def yearText (y : Int) : String :=
  if 0 ≤ y ∧ y ≤ 9999 then decimalPadded 4 y.toNat
  else (if y < 0 then "-" else "+") ++ decimalPadded 4 y.natAbs

/-- No digits, or three, six or nine after a point. -/
def fractionText (nanos : Nat) : String :=
  if nanos = 0 then ""
  else if nanos % 1000000 = 0 then "." ++ decimalPadded 3 (nanos / 1000000)
  else if nanos % 1000 = 0 then "." ++ decimalPadded 6 (nanos / 1000)
  else "." ++ decimalPadded 9 nanos

def dateText (t : Instant) : String :=
  let d := Date.ofDayNumber (t.seconds / 86400 + Date.epochDay)
  yearText d.year ++ "-" ++ decimalPadded 2 d.month ++ "-" ++ decimalPadded 2 d.day

/-- Hours, minutes and seconds; a leap second is the sixtieth. -/
def clockText (t : Instant) : String :=
  let s := (t.seconds % 86400).toNat
  let second := s % 60 + t.nanos / billion
  decimalPadded 2 (s / 3600) ++ ":" ++ decimalPadded 2 (s / 60 % 60) ++ ":" ++
    decimalPadded 2 second

def text (t : Instant) : String :=
  t.dateText ++ "T" ++ t.clockText ++ fractionText (t.nanos % billion) ++ "Z"

/-! ## Reading -/

/-- Up to `width` digits, at least one, after blanks. -/
def number? (width : Nat) (cs : List Char) : Option (Nat × List Char) :=
  let cs := trimBlanksLeft cs
  let digits := (cs.takeWhile isAsciiDigit).take width
  if digits.isEmpty then none else some (decimalValue digits, cs.drop digits.length)

/-- A year of four digits, or of any number of them after a sign. -/
def year? (cs : List Char) : Option (Int × List Char) :=
  match trimBlanksLeft cs with
  | '-' :: rest => (signed rest).map fun (n, rest) => (-(n : Int), rest)
  | '+' :: rest => (signed rest).map fun (n, rest) => ((n : Int), rest)
  | cs => (number? 4 cs).map fun (n, rest) => ((n : Int), rest)
where
  signed (cs : List Char) : Option (Nat × List Char) :=
    if cs.head?.any isAsciiDigit then number? 12 cs else none

/-- One of some characters, after blanks. -/
def mark? (p : Char → Bool) (cs : List Char) : Option (List Char) :=
  match cs with
  | c :: rest => if p c then some rest else none
  | [] => none

/-- Digits after a point as nanoseconds; those after the ninth do not count. -/
def fraction? (cs : List Char) : Option (Nat × List Char) :=
  match cs with
  | '.' :: rest =>
    let digits := rest.takeWhile isAsciiDigit
    if digits.isEmpty then none
    else
      let nine := digits.take 9
      some (decimalValue nine * Nat.pow 10 (9 - nine.length), rest.drop digits.length)
  | _ => some (0, cs)

/-- The seconds by which a local time is ahead of universal time. -/
def offset? (cs : List Char) : Option (Int × List Char) :=
  match cs with
  | 'Z' :: rest | 'z' :: rest => some (0, rest)
  | sign :: h1 :: h2 :: rest => do
    let negative ←
      if sign = '+' then some false
      else if sign = '-' || sign = '\u2212' then some true
      else none
    if ¬ (isAsciiDigit h1 && isAsciiDigit h2) then none
    else
      let rest := rest.dropWhile fun c => c = ':' || isBlank c
      match rest with
      | m1 :: m2 :: rest =>
        if isAsciiDigit m1 && isAsciiDigit m2 && m1 < '6' then
          let seconds : Int := decimalValue [h1, h2] * 3600 + decimalValue [m1, m2] * 60
          some (if negative then -seconds else seconds, rest)
        else none
      | _ => none
  | _ => none

/-- The zone of an instant; `UTC` in any case is universal time. -/
def zone? (cs : List Char) : Option (Int × List Char) :=
  if (cs.take 3).map Char.toUpper == ['U', 'T', 'C'] then some (0, cs.drop 3) else offset? cs

/-- The instant of a text. Blanks may stand before numbers, signs and marks. -/
def ofText? (s : String) : Option Instant := do
  let dash (cs : List Char) := mark? (· == '-') (trimBlanksLeft cs)
  let colon (cs : List Char) := mark? (· == ':') (trimBlanksLeft cs)
  let (year, cs) ← year? s.toList
  let (month, cs) ← number? 2 (← dash cs)
  let (day, cs) ← number? 2 (← dash cs)
  let cs ← mark? (fun c => c == 'T' || c == 't' || c == ' ') cs
  let (hour, cs) ← number? 2 cs
  let (minute, cs) ← number? 2 (← colon cs)
  let (second, cs) ← number? 2 (← colon cs)
  let (nanos, cs) ← fraction? cs
  let (ahead, cs) ← zone? (trimBlanksLeft cs)
  let date : Date := ⟨year, month, day⟩
  if ¬ (trimBlanksLeft cs).isEmpty || ¬ date.isValid || 23 < hour || 59 < minute || 60 < second ||
      262142 < year.natAbs || 86399 < ahead.natAbs then none
  else
    let leap := second = 60
    let clock : Int := hour * 3600 + minute * 60 + (if leap then 59 else second)
    some ⟨(date.dayNumber - Date.epochDay) * 86400 + clock - ahead,
      if leap then nanos + billion else nanos⟩

def decode? (d : Document) : Option Instant := do ofText? (← d.asText?)

def encode (t : Instant) : Document := .text t.text

end Instant
end Workflow
