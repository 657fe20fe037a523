import Workflow.Number.Binary64

/-!
# Shortest decimal digits

The decimal numbers that round to a double form an interval around it. `shortest` finds the fewest
significant digits with which a decimal number lies in that interval and, of the numbers with that
many digits, the one nearest to the double.
-/
namespace Workflow

/-- A positive decimal number `digits * 10 ^ exponent`. -/
structure Decimal where
  digits : Nat
  exponent : Int
  deriving DecidableEq, Repr

/-- Which of two equally near neighbours is taken. -/
inductive Tie where
  | up
  | toEven
  deriving DecidableEq, Repr

namespace Decimal

/-- Drop up to `fuel` trailing zeros. -/
def stripZeros : Nat → Decimal → Decimal
  | 0, d => d
  | fuel + 1, d =>
    if d.digits ≠ 0 ∧ d.digits % 10 = 0 then stripZeros fuel ⟨d.digits / 10, d.exponent + 1⟩ else d

end Decimal

namespace Binary64

/-- The decimal numbers that round to a value, as numerators over `den`: `low` and `high` bound
them, `value` is the double itself, and the ends belong to the interval when `closed`. -/
structure RoundingInterval where
  low : Nat
  value : Nat
  high : Nat
  den : Nat
  closed : Bool
  deriving DecidableEq, Repr

/-- The interval of `m * 2 ^ e`. -/
def roundingInterval (m : Nat) (e : Int) : RoundingInterval :=
  let scale := Nat.pow 2 (e - 2).toNat
  -- below a power of two the neighbours are half as far apart
  let below := if m = Nat.pow 2 52 ∧ leastExponent < e then 1 else 2
  { low := (4 * m - below) * scale
    value := 4 * m * scale
    high := (4 * m + 2) * scale
    den := Nat.pow 2 (2 - e).toNat
    closed := m % 2 = 0 }

/-- Does `n / den` lie in the interval? The numerator is given over `den * unit`. -/
def RoundingInterval.holds (i : RoundingInterval) (n unit : Nat) : Bool :=
  if i.closed then i.low * unit ≤ n && n ≤ i.high * unit
  else i.low * unit < n && n < i.high * unit

/-- The multiple of `10 ^ exponent` in the interval that is nearest to the value, if any. -/
def RoundingInterval.onGrid? (tie : Tie) (i : RoundingInterval) (exponent : Int) : Option Nat :=
  let step := i.den * Nat.pow 10 exponent.toNat
  let unit := Nat.pow 10 (-exponent).toNat
  let value := i.value * unit
  let below := value / step
  let gapBelow := value - below * step
  let gapAbove := (below + 1) * step - value
  let belowHolds := below ≠ 0 && i.holds (below * step) unit
  let aboveHolds := i.holds ((below + 1) * step) unit
  let takeAbove :=
    gapAbove < gapBelow || (gapAbove == gapBelow && (tie == .up || below % 2 == 1))
  if belowHolds && aboveHolds then some (if takeAbove then below + 1 else below)
  else if belowHolds then some below
  else if aboveHolds then some (below + 1)
  else none

/-- An estimate, at most one too small, of the `k` with `10 ^ (k - 1) ≤ n / den < 10 ^ k`. -/
def decimalMagnitude (n den : Nat) : Int :=
  -- 30103 / 100000 is hardly more than the decimal logarithm of two
  let guess : Int := ((binaryMagnitude n den) * 30103) / 100000 + 1
  let reached (k : Int) : Bool := den * Nat.pow 10 k.toNat ≤ n * Nat.pow 10 (-k).toNat
  if reached (guess + 1) then guess + 2
  else if reached guess then guess + 1
  else if reached (guess - 1) then guess
  else guess - 1

/-- The first grid with a hit, from `count` digits on. -/
def searchGrids (tie : Tie) (i : RoundingInterval) (magnitude : Int) : Nat → Nat → Decimal
  | 0, count => ⟨i.value / i.den, magnitude - count⟩
  | fuel + 1, count =>
    match i.onGrid? tie (magnitude - count) with
    | some digits => Decimal.stripZeros 20 ⟨digits, magnitude - count⟩
    | none => searchGrids tie i magnitude fuel (count + 1)

/-- The shortest decimal number that rounds to `m * 2 ^ e`; zero has the single digit zero. -/
def shortest (tie : Tie) (m : Nat) (e : Int) : Decimal :=
  if m = 0 then ⟨0, 0⟩
  else
    let i := roundingInterval m e
    searchGrids tie i (decimalMagnitude i.value i.den) 18 1

end Binary64
end Workflow
