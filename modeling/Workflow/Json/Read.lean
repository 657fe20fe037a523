import Workflow.Document.Basic
import Workflow.Text.Digits

/-!
# Reading JSON texts

`read?` gives the document of a JSON text, or nothing when the text is malformed. Repeated keys are
kept. Whole numbers that fit 64 bits are integers; every other number is a double. Brackets may be
nested 127 levels deep.

A number with a point or an exponent is read in two steps: its leading digits, as many as fit 64
bits, as a double, and then one scaling by a power of ten. The result can differ by one unit in the
last place from the nearest double.
-/
namespace Workflow.Json

def isJsonBlank (c : Char) : Bool := c == ' ' || c == '\t' || c == '\n' || c == '\r'

def skipBlanks (cs : List Char) : List Char := cs.dropWhile isJsonBlank

/-! ## Numbers -/

/-- Scale a double by a power of ten; numbers too large are refused. -/
def scaleByTen : Nat → Binary64 → Int → Option Binary64
  | 0, x, _ => some x
  | fuel + 1, x, exponent =>
    if exponent.natAbs ≤ 308 then
      let power := Binary64.ofInt (Nat.pow 10 exponent.natAbs)
      if 0 ≤ exponent then
        let y := x * power
        if y.isFinite then some y else none
      else some (x / power)
    else if x.numEq (Binary64.zero false) then some x
    else if 0 ≤ exponent then none
    else scaleByTen fuel (x / Binary64.ofInt (Nat.pow 10 308)) (exponent + 308)

/-- A literal of a digit text, a sign and an exponent. Past ten scalings only zero is left. -/
def ofParts (negative : Bool) (significand : Nat) (exponent : Int) : Option Binary64 :=
  let clamped := max exponent (-3500)
  (scaleByTen 12 (Binary64.ofInt significand) clamped).map fun x => if negative then -x else x

/-- Take leading digits into a number while it fits 64 bits. The second number counts the digits
taken. -/
def takeDigits (significand count : Nat) : List Char → Nat × Nat × List Char
  | [] => (significand, count, [])
  | c :: rest =>
    if isAsciiDigit c then
      let next := significand * 10 + (c.toNat - 48)
      if Document.greatestNat64 < next then (significand, count, c :: rest)
      else takeDigits next (count + 1) rest
    else (significand, count, c :: rest)

/-- The exponent of a number, after its `e`. -/
def readExponent (negative : Bool) (significand : Nat) (start : Int) (cs : List Char) :
    Option (Binary64 × List Char) :=
  let (below, cs) :=
    match cs with
    | '+' :: rest => (false, rest)
    | '-' :: rest => (true, rest)
    | _ => (false, cs)
  let digits := cs.takeWhile isAsciiDigit
  let rest := cs.dropWhile isAsciiDigit
  if digits.isEmpty then none
  else
    let size : Nat := decimalValue digits
    if significand = 0 then some (Binary64.zero negative, rest)
    else if below then (ofParts negative significand (start - size)).map (·, rest)
    else if 2147483647 < size then none
    else (ofParts negative significand (start + size)).map (·, rest)

/-- What follows the whole digits of a number that is no integer. -/
def readFraction (negative : Bool) (significand : Nat) (exponent : Int) (cs : List Char) :
    Option (Binary64 × List Char) :=
  match cs with
  | '.' :: rest =>
    let (significand, count, after) := takeDigits significand 0 rest
    let dropped := after.dropWhile isAsciiDigit
    if count = 0 ∧ dropped.length = after.length then none
    else
      let exponent := exponent - count
      match dropped with
      | 'e' :: rest | 'E' :: rest => readExponent negative significand exponent rest
      | _ => (ofParts negative significand exponent).map (·, dropped)
  | 'e' :: rest | 'E' :: rest => readExponent negative significand exponent rest
  | _ => (ofParts negative significand exponent).map (·, cs)

def readNumber (negative : Bool) (cs : List Char) : Option (Document × List Char) :=
  match cs with
  | [] => none
  | first :: rest =>
    if ¬ isAsciiDigit first then none
    else if first = '0' ∧ (rest.head?.any isAsciiDigit) then none
    else
      let (significand, _, after) := takeDigits 0 0 cs
      let excess := after.takeWhile isAsciiDigit
      let after := after.dropWhile isAsciiDigit
      let fractional := after.head?.any fun c => c == '.' || c == 'e' || c == 'E'
      if fractional || ¬ excess.isEmpty then
        (readFraction negative significand excess.length after).map fun (x, rest) =>
          (Document.float x, rest)
      else if ¬ negative then some (Document.int significand, after)
      else if significand = 0 ∨ 9223372036854775808 < significand then
        some (Document.float (-(Binary64.ofInt significand)), after)
      else some (Document.int (-(significand : Int)), after)

/-! ## Strings -/

def hexQuad? (a b c d : Char) : Option Nat := do
  return 4096 * (← hexDigitValue? a) + 256 * (← hexDigitValue? b) + 16 * (← hexDigitValue? c) +
    (← hexDigitValue? d)

def simpleEscape? : Char → Option Char
  | '"' => some '"'
  | '\\' => some '\\'
  | '/' => some '/'
  | 'b' => some '\x08'
  | 'f' => some '\x0c'
  | 'n' => some '\n'
  | 'r' => some '\r'
  | 't' => some '\t'
  | _ => none

/-- The rest of a string after its opening quote; `seen` holds the characters so far, last first. -/
def readStringRest (seen : List Char) : List Char → Option (String × List Char)
  | [] => none
  | '"' :: rest => some (String.ofList seen.reverse, rest)
  -- characters beyond the first plane are escaped as two halves, and a half alone is refused
  | '\\' :: 'u' :: a :: b :: c :: d :: '\\' :: 'u' :: e :: f :: g :: h :: rest =>
    match hexQuad? a b c d, hexQuad? e f g h with
    | some n, some m =>
      if 0xD800 ≤ n ∧ n ≤ 0xDBFF then
        if 0xDC00 ≤ m ∧ m ≤ 0xDFFF then
          readStringRest (Char.ofNat (0x10000 + (n - 0xD800) * 0x400 + (m - 0xDC00)) :: seen) rest
        else none
      else if 0xDC00 ≤ n ∧ n ≤ 0xDFFF then none
      else readStringRest (Char.ofNat n :: seen) ('\\' :: 'u' :: e :: f :: g :: h :: rest)
    | _, _ => none
  | '\\' :: 'u' :: a :: b :: c :: d :: rest =>
    match hexQuad? a b c d with
    | some n => if 0xD800 ≤ n ∧ n ≤ 0xDFFF then none else readStringRest (Char.ofNat n :: seen) rest
    | none => none
  | '\\' :: c :: rest =>
    match simpleEscape? c with
    | some e => readStringRest (e :: seen) rest
    | none => none
  | c :: rest => if c.toNat < 0x20 then none else readStringRest (c :: seen) rest
termination_by cs => cs.length

/-! ## Values -/

mutual

/-- A value; `depth` counts the brackets that may still be opened. -/
def readValue : Nat → Nat → List Char → Option (Document × List Char)
  | 0, _, _ => none
  | fuel + 1, depth, cs =>
    match skipBlanks cs with
    | '"' :: rest => (readStringRest [] rest).map fun (s, rest) => (Document.text s, rest)
    | '[' :: rest =>
      if depth ≤ 1 then none
      else
        match skipBlanks rest with
        | ']' :: rest => some (.sequence [], rest)
        | rest => readItems fuel (depth - 1) [] rest
    | '\x7b' :: rest =>
      if depth ≤ 1 then none
      else
        match skipBlanks rest with
        | '\x7d' :: rest => some (.mapping [], rest)
        | rest => readEntries fuel (depth - 1) [] rest
    | 't' :: 'r' :: 'u' :: 'e' :: rest => some (Document.bool true, rest)
    | 'f' :: 'a' :: 'l' :: 's' :: 'e' :: rest => some (Document.bool false, rest)
    | 'n' :: 'u' :: 'l' :: 'l' :: rest => some (Document.null, rest)
    | '-' :: rest => readNumber true rest
    | rest => readNumber false rest

/-- The items of a sequence from the next one on, up to its closing bracket. -/
def readItems : Nat → Nat → List Document → List Char → Option (Document × List Char)
  | 0, _, _, _ => none
  | fuel + 1, depth, seen, cs =>
    match readValue fuel depth cs with
    | none => none
    | some (item, rest) =>
      match skipBlanks rest with
      | ',' :: rest => readItems fuel depth (item :: seen) rest
      | ']' :: rest => some (.sequence (item :: seen).reverse, rest)
      | _ => none

/-- The entries of a mapping from the next one on, up to its closing brace. -/
def readEntries : Nat → Nat → List (Document × Document) → List Char → Option (Document × List Char)
  | 0, _, _, _ => none
  | fuel + 1, depth, seen, cs =>
    match skipBlanks cs with
    | '"' :: rest =>
      match readStringRest [] rest with
      | none => none
      | some (key, rest) =>
        match skipBlanks rest with
        | ':' :: rest =>
          match readValue fuel depth rest with
          | none => none
          | some (value, rest) =>
            match skipBlanks rest with
            | ',' :: rest => readEntries fuel depth ((.text key, value) :: seen) rest
            | '\x7d' :: rest => some (.mapping ((.text key, value) :: seen).reverse, rest)
            | _ => none
        | _ => none
    | _ => none

end

/-- The document of a JSON text; nothing but blanks may follow it. -/
def read? (text : String) : Option Document :=
  let cs := text.toList
  match readValue (2 * cs.length + 2) 128 cs with
  | some (d, rest) => if (skipBlanks rest).isEmpty then some d else none
  | none => none

end Workflow.Json
