import Workflow.Number.Places
import Workflow.Shell.Arithmetic
import Workflow.Shell.State
import Workflow.Value.Lenient

/-!
# Formatted output

Formats are texts with escapes and with conversions that each take an argument. A format is used
again as long as arguments are left.
-/
namespace Workflow.Shell

/-- A character that an escape of one letter stands for. -/
def escapedChar? : Char → Option Char
  | 'a' => some '\x07'
  | 'b' => some '\x08'
  | 'f' => some '\x0c'
  | 'n' => some '\n'
  | 'r' => some '\r'
  | 't' => some '\t'
  | 'v' => some '\x0b'
  | 'e' => some '\x1b'
  | '\\' => some '\\'
  | _ => none

def textOfBytes (bytes : List UInt8) : String :=
  (String.fromUTF8? ⟨bytes.toArray⟩).getD (String.ofList (bytes.map fun b =>
    if b < 128 then Char.ofNat b.toNat else '\ufffd'))

def bytesOf (s : String) : List UInt8 := s.toUTF8.toList

/-- The value of at most so many octal digits. -/
def octal (count : Nat) (cs : List Char) : Nat × List Char :=
  let digits := (cs.take count).takeWhile fun c => '0' ≤ c && c ≤ '7'
  (digits.foldl (fun n c => 8 * n + (c.toNat - 48)) 0, cs.drop digits.length)

/-- The bytes of a text with escapes, and whether it is cut off. Octal escapes begin with a zero
that does not count, or not. -/
def unescape (leadingZero : Bool) : Nat → List Char → List UInt8 × Bool
  | 0, _ | _, [] => ([], false)
  | fuel + 1, '\\' :: c :: rest =>
    let onward (bytes : List UInt8) (rest : List Char) : List UInt8 × Bool :=
      let (more, cut) := unescape leadingZero fuel rest
      (bytes ++ more, cut)
    if c = 'c' && leadingZero then ([], true)
    else if leadingZero && c = '0' then
      let (n, rest) := octal 3 rest
      onward [UInt8.ofNat n] rest
    else if '0' ≤ c && c ≤ '7' then
      let (n, rest) := octal 3 (c :: rest)
      onward [UInt8.ofNat n] rest
    else
      match escapedChar? c with
      | some d => onward [UInt8.ofNat d.toNat] rest
      | none => onward (bytesOf (String.ofList ['\\', c])) rest
  | fuel + 1, c :: rest =>
    let (more, cut) := unescape leadingZero fuel rest
    (bytesOf (String.singleton c) ++ more, cut)

def echo : Tool := fun arguments => do
  let (quiet, arguments) :=
    match arguments with
    | "-n" :: rest => (true, rest)
    | arguments => (false, arguments)
  let cs := (" ".intercalate arguments).toList
  let (bytes, cut) := unescape true (cs.length + 1) cs
  put (textOfBytes bytes ++ if quiet || cut then "" else "\n")
  return 0

structure Conversion where
  flags : List Char
  width : Nat
  places : Option Nat
  kind : Char
  deriving Repr

namespace Conversion

def pad (c : Conversion) (number : Bool) (text : String) : String :=
  let missing := c.width - text.length
  let fill (ch : Char) : String := String.ofList (List.replicate missing ch)
  if c.flags.contains '-' then text ++ fill ' '
  else if number && c.flags.contains '0' then
    if text.startsWith "-" then "-" ++ fill '0' ++ (text.drop 1).toString else fill '0' ++ text
  else fill ' ' ++ text

def withSign (c : Conversion) (text : String) : String :=
  if text.startsWith "-" then text
  else if c.flags.contains '+' then "+" ++ text
  else if c.flags.contains ' ' then " " ++ text
  else text

/-- An integer with as many digits as are asked for. -/
def integerText (c : Conversion) (n : Int) : String :=
  let digits := decimalPadded (c.places.getD 1) n.natAbs
  c.withSign (if n < 0 then "-" ++ digits else digits)

def baseText (n : Int) (base : Nat) : String :=
  String.ofList (Nat.toDigits base (n.emod (Nat.pow 2 64)).toNat)

/-- The bytes of an integer or a number in this conversion. -/
def numberText (c : Conversion) (n : Int) (x : Binary64) : String :=
  let places := c.places.getD 6
  c.pad true (match c.kind with
    | 'd' | 'i' => c.integerText n
    | 'u' => toString (n.emod (Nat.pow 2 64))
    | 'o' => baseText n 8
    | 'x' => baseText n 16
    | 'X' => (baseText n 16).toUpper
    | 'e' => c.withSign (x.exponentialText places)
    | 'g' => c.withSign (x.generalText (max places 1))
    | _ => c.withSign (x.fixedText places))

end Conversion

/-- The number that an argument is, and whether all of it is a number. -/
def integerArgument (s : String) : Int × Bool :=
  match s.toList with
  | [] => (0, true)
  | '\'' :: c :: _ | '"' :: c :: _ => (c.toNat, true)
  | cs =>
    let (negative, digits) :=
      match cs with
      | '-' :: rest => (true, rest)
      | '+' :: rest => (false, rest)
      | cs => (false, cs)
    match integer? (String.ofList digits) with
    | some n => (if negative then -n else n, true)
    | none =>
      let n : Int := decimalValue (digits.takeWhile isAsciiDigit)
      (if negative then -n else n, false)

/-- The number that an argument is, with a fraction. -/
def numberArgument (s : String) : Binary64 × Bool :=
  if s.isEmpty then (.zero false, true)
  else
    match (Scalar.ofLooseText s).toBinary64? with
    | some x => (x, true)
    | none => (.zero false, false)

def isIntegerKind (c : Char) : Bool := "diuoxX".toList.contains c

def isNumberKind (c : Char) : Bool := "feg".toList.contains c

/-- Read a conversion after its percent sign. A star takes its number from the arguments. -/
def readConversion (cs : List Char) (arguments : List String) :
    Option (Conversion × List Char × List String) := do
  let flags := cs.takeWhile "-+ 0#".toList.contains
  let number (cs : List Char) (arguments : List String) : Nat × List Char × List String :=
    match cs with
    | '*' :: rest => ((integerArgument (arguments.headD "")).1.toNat, rest, arguments.tail)
    | cs =>
      let digits := cs.takeWhile isAsciiDigit
      (decimalValue digits, cs.drop digits.length, arguments)
  let (width, cs, arguments) := number (cs.drop flags.length) arguments
  let (places, cs, arguments) : Option Nat × List Char × List String :=
    match cs with
    | '.' :: rest =>
      let (n, cs, arguments) := number rest arguments
      (some n, cs, arguments)
    | cs => (none, cs, arguments)
  match cs with
  | [] => none
  | kind :: rest => some (⟨flags, width, places, kind⟩, rest, arguments)

structure Formatted where
  bytes : List UInt8
  left : List String
  /-- Arguments that are no numbers, though they should be. -/
  wrong : List String
  /-- An escape has ended everything. -/
  cut : Bool
  /-- What is wrong with the format from here on. -/
  fault : Option String

/-- Go through a format once. -/
def formatOnce : Nat → List Char → Formatted → Formatted
  | 0, _, f | _, [], f => f
  | fuel + 1, '%' :: '%' :: rest, f => formatOnce fuel rest { f with bytes := f.bytes ++ [37] }
  | fuel + 1, '%' :: start, f =>
    match readConversion start f.left with
    | none => { f with cut := true, fault := some "missing format character" }
    | some (c, rest, arguments) =>
      let argument := arguments.headD ""
      let f := { f with left := arguments.tail }
      let add (text : String) : Formatted := { f with bytes := f.bytes ++ bytesOf text }
      let marked (f : Formatted) (right : Bool) : Formatted :=
        if right then f else { f with wrong := f.wrong ++ [argument] }
      let cutTo (text : String) : String := c.places.elim text fun n => (text.take n).toString
      if isIntegerKind c.kind then
        let (n, right) := integerArgument argument
        formatOnce fuel rest (marked (add (c.numberText n (.zero false))) right)
      else if isNumberKind c.kind then
        let (x, right) := numberArgument argument
        formatOnce fuel rest (marked (add (c.numberText 0 x)) right)
      else if c.kind = 'c' then formatOnce fuel rest (add (c.pad false (argument.take 1).toString))
      else if c.kind = 'b' then
        let (bytes, cut) := unescape true (argument.length + 1) argument.toList
        let f := add (c.pad false (cutTo (textOfBytes bytes)))
        if cut then { f with cut := true } else formatOnce fuel rest f
      else if c.kind = 's' then formatOnce fuel rest (add (c.pad false (cutTo argument)))
      else
        let text := String.ofList (('%' :: start).take (start.length + 1 - rest.length))
        { f with cut := true, fault := some (text ++ ": invalid directive") }
  | fuel + 1, '\\' :: c :: rest, f =>
    if '0' ≤ c && c ≤ '7' then
      let (n, rest) := octal 3 (c :: rest)
      formatOnce fuel rest { f with bytes := f.bytes ++ [UInt8.ofNat n] }
    else
      formatOnce fuel rest
        { f with bytes := f.bytes ++ (unescape false 2 ['\\', c]).1 }
  | fuel + 1, c :: rest, f =>
    formatOnce fuel rest { f with bytes := f.bytes ++ bytesOf (String.singleton c) }

def formatAll (format : List Char) : Nat → Formatted → Formatted
  | 0, f => f
  | fuel + 1, f =>
    let next := formatOnce (format.length + 1) format f
    if next.cut || next.left.isEmpty || next.left.length = f.left.length then next
    else formatAll format fuel next

def printf : Tool := fun arguments => do
  match arguments with
  | [] => failWith 2 "printf: usage: printf format [arg ...]"
  | "--" :: format :: rest | format :: rest =>
    if format.startsWith "-" && arguments.head? ≠ some "--" && format.length > 1 then
      failWith 2 ("printf: Illegal option -" ++ ((format.drop 1).take 1).toString)
    else
      let f := formatAll format.toList (rest.length + 1) ⟨[], rest, [], false, none⟩
      put (textOfBytes f.bytes)
      f.wrong.forM fun argument =>
        complain ("printf: " ++ argument ++
          if argument.toList.head?.any isAsciiDigit then ": not completely converted"
          else ": expected numeric value")
      match f.fault with
      | some text => failWith 2 ("printf: " ++ text)
      | none => return if f.wrong.isEmpty then 0 else 1

end Workflow.Shell
