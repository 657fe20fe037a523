import Workflow.Fault.Basic
import Workflow.Text.Blank
import Workflow.Text.Digits

/-!
# Quantities of cpu and memory

Cpu is counted in thousandths of a core and memory in bytes. A quantity is written as a decimal
number with an optional unit. The number is read as a double, so that quantities near the limits of
the 64-bit range are rounded to what a double can hold.
-/
namespace Workflow

/-- A decimal number as it is written: whole digits and the digits after a point. -/
structure DecimalText where
  whole : List Char
  fraction : Option (List Char)
  deriving DecidableEq, Repr

namespace DecimalText

/-- Split a leading decimal number off a text. Digits of all scripts are taken. -/
def split? (cs : List Char) : Option (DecimalText × List Char) :=
  let whole := cs.takeWhile isDecimalDigit
  let rest := cs.dropWhile isDecimalDigit
  if whole.isEmpty then none
  else
    match rest with
    | '.' :: after =>
      let fraction := after.takeWhile isDecimalDigit
      if fraction.isEmpty then some (⟨whole, none⟩, rest)
      else some (⟨whole, some fraction⟩, after.dropWhile isDecimalDigit)
    | _ => some (⟨whole, none⟩, rest)

/-- The double nearest to the number; only ASCII digits have a value. -/
def toBinary64? (t : DecimalText) : Option Binary64 :=
  let fraction := t.fraction.getD []
  let digits := t.whole ++ fraction
  if digits.all isAsciiDigit then
    some (Binary64.ofDecimal false (decimalValue digits) (-(fraction.length : Int)))
  else none

/-- The number as a 64-bit natural number. -/
def toNat64? (t : DecimalText) : Option UInt64 :=
  if t.fraction.isSome || ¬ t.whole.all isAsciiDigit then none
  else
    let n := decimalValue t.whole
    if n < Nat.pow 2 64 then some (UInt64.ofNat n) else none

end DecimalText

/-- Whole part of a double as a 64-bit natural number, clamped to the range. -/
def Binary64.toUInt64 (x : Binary64) : UInt64 :=
  UInt64.ofNat (x.toIntClamped 0 Document.greatestNat64).toNat

/-- Cpu in thousandths of a core. -/
structure CpuQuantity where
  millis : UInt64
  deriving DecidableEq, Repr

namespace CpuQuantity

/-- Whole cores, or thousandths with an `m`. -/
def text (q : CpuQuantity) : String :=
  let n := q.millis.toNat
  if n % 1000 = 0 then toString (n / 1000) else toString n ++ "m"

/-- How far a number of thousandths may lie from a whole number. -/
def tolerance : Binary64 := Binary64.ofDecimal false 1 (-6)

/-- Read cores (`2`, `1.5`) or thousandths (`500m`). -/
def parse (text : String) : Outcome CpuQuantity :=
  let invalid (reason : String) : Outcome CpuQuantity := .error (.invalidQuantity text reason)
  let malformed := invalid "expected cores (\"2\", \"0.5\") or millicores (\"500m\")"
  match DecimalText.split? (trimBlanks text.toList) with
  | some (number, ['m']) =>
    match number.toNat64? with
    | some millis => .ok ⟨millis⟩
    | none => invalid "millicores must be a whole number"
  | some (number, []) =>
    match number.toBinary64? with
    | none => invalid "not a number"
    | some cores =>
      let millis := cores * Binary64.ofInt 1000
      -- both the number and its product have been rounded by now
      if tolerance.numLt (millis - millis.round).abs then invalid "precision finer than 1m"
      else .ok ⟨millis.round.toUInt64⟩
  | _ => malformed

def decode? (d : Document) : Option CpuQuantity := do (parse (← d.asText?)).toOption

def encode (q : CpuQuantity) : Document := .text q.text

end CpuQuantity

/-- A unit of memory and its number of bytes. -/
structure MemoryUnit where
  symbol : String
  factor : Nat
  deriving DecidableEq, Repr

namespace MemoryUnit

/-- Powers of 1024, largest first. -/
def binary : List MemoryUnit :=
  [⟨"Ei", Nat.pow 1024 6⟩, ⟨"Pi", Nat.pow 1024 5⟩, ⟨"Ti", Nat.pow 1024 4⟩,
    ⟨"Gi", Nat.pow 1024 3⟩, ⟨"Mi", Nat.pow 1024 2⟩, ⟨"Ki", 1024⟩]

/-- Powers of 1000, largest first. -/
def decimal : List MemoryUnit :=
  [⟨"E", Nat.pow 1000 6⟩, ⟨"P", Nat.pow 1000 5⟩, ⟨"T", Nat.pow 1000 4⟩,
    ⟨"G", Nat.pow 1000 3⟩, ⟨"M", Nat.pow 1000 2⟩, ⟨"k", 1000⟩]

/-- The factor of a unit's symbol; no symbol means bytes, and `K` is the same as `k`. -/
def factorOf? (symbol : String) : Option Nat :=
  if symbol = "" then some 1
  else if symbol = "K" then some 1000
  else ((binary ++ decimal).find? fun u => u.symbol == symbol).map (·.factor)

end MemoryUnit

/-- Memory in bytes. -/
structure MemoryQuantity where
  bytes : UInt64
  deriving DecidableEq, Repr

namespace MemoryQuantity

/-- The largest of the units that divides the quantity, with the count. -/
def bestUnit? (q : MemoryQuantity) (units : List MemoryUnit) : Option (Nat × String) :=
  let n := q.bytes.toNat
  (units.find? fun u => u.factor ≤ n && n % u.factor == 0).map fun u => (n / u.factor, u.symbol)

/-- The smallest count with a unit; of equal counts the binary unit is taken. -/
def text (q : MemoryQuantity) : String :=
  match q.bestUnit? MemoryUnit.binary, q.bestUnit? MemoryUnit.decimal with
  | some (n, u), some (m, v) => if m < n then toString m ++ v else toString n ++ u
  | some (n, u), none => toString n ++ u
  | none, some (m, v) => toString m ++ v
  | none, none => toString q.bytes.toNat

/-- The double above every 64-bit number. -/
def limit : Binary64 := Binary64.ofInt Document.greatestNat64

/-- Read a number of bytes with an optional unit, such as `512Mi` or `2G`. -/
def parse (text : String) : Outcome MemoryQuantity :=
  let invalid (reason : String) : Outcome MemoryQuantity := .error (.invalidQuantity text reason)
  let malformed := invalid "expected bytes with an optional unit (Ki, Mi, Gi, k, M, G...)"
  match DecimalText.split? (trimBlanks text.toList) with
  | none => malformed
  | some (number, unit) =>
    match MemoryUnit.factorOf? (String.ofList unit) with
    | none => malformed
    | some factor =>
      match number.toBinary64? with
      | none => invalid "not a number"
      | some x =>
        let bytes := x * Binary64.ofInt factor
        -- the limit is itself rounded up to 2 ^ 64, which is let through
        if ¬ bytes.isIntegral || limit.numLt bytes then invalid "not a whole number of bytes"
        else .ok ⟨bytes.toUInt64⟩

def decode? (d : Document) : Option MemoryQuantity := do (parse (← d.asText?)).toOption

def encode (q : MemoryQuantity) : Document := .text q.text

end MemoryQuantity
end Workflow
