/-!
# Double-precision numbers

A `Binary64` is not-a-number, an infinity, or a signed dyadic fraction `m * 2 ^ e` with a 53-bit
mantissa. Every operation computes the exact rational result and rounds it once, to the nearest
value and on a tie to the even mantissa; overflow gives an infinity.
-/
namespace Workflow

/-- A double-precision number. A finite one is `mantissa * 2 ^ exponent` with its sign. -/
inductive Binary64 where
  | nan
  | infinite (negative : Bool)
  | finite (negative : Bool) (mantissa : Nat) (exponent : Int)
  deriving DecidableEq, Repr

namespace Binary64

/-- The exponent of the smallest positive values. -/
def leastExponent : Int := -1074

/-- The exponent of the largest finite values. -/
def greatestExponent : Int := 971

def zero (negative : Bool) : Binary64 := .finite negative 0 leastExponent

instance : Inhabited Binary64 := ⟨zero false⟩

/-- The quotient rounded to an integer, an exact half going to the even neighbour. -/
def roundDiv (num den : Nat) : Nat :=
  let q := num / den
  let r := num % den
  if 2 * r < den then q
  else if den < 2 * r then q + 1
  else if q % 2 = 0 then q else q + 1

/-- The largest `k` with `2 ^ k ≤ num / den`, for positive `num` and `den`. -/
def binaryMagnitude (num den : Nat) : Int :=
  let k : Int := (num.log2 : Int) - den.log2
  if num * Nat.pow 2 (-k).toNat < den * Nat.pow 2 k.toNat then k - 1 else k

/-- The nearest value to `num / den`. -/
def ofQuotient (negative : Bool) (num den : Nat) : Binary64 :=
  if num = 0 then zero negative
  else
    let e := max (binaryMagnitude num den - 52) leastExponent
    let q := roundDiv (num * Nat.pow 2 (-e).toNat) (den * Nat.pow 2 e.toNat)
    -- rounding may carry into one more bit
    let (m, e) := if q = Nat.pow 2 53 then (Nat.pow 2 52, e + 1) else (q, e)
    if greatestExponent < e then .infinite negative
    else if m = 0 then zero negative
    else .finite negative m e

/-- The nearest value to an integer. -/
def ofInt (n : Int) : Binary64 := ofQuotient (n < 0) n.natAbs 1

/-- The nearest value to `digits * 10 ^ exponent`. -/
def ofDecimal (negative : Bool) (digits : Nat) (exponent : Int) : Binary64 :=
  if digits = 0 then zero negative
  else
    -- exponents far outside the range are decided without computing the power
    let size : Int := digits.log2
    if 1100 < size + min (3 * exponent) (4 * exponent) then .infinite negative
    else if size + 4 * exponent < -1200 ∧ exponent < 0 ∧ size * 10 + 33 * exponent < -12000 then
      zero negative
    else ofQuotient negative (digits * Nat.pow 10 exponent.toNat) (Nat.pow 10 (-exponent).toNat)

def isFinite : Binary64 → Bool
  | .finite .. => true
  | _ => false

def isNaN : Binary64 → Bool
  | .nan => true
  | _ => false

def neg : Binary64 → Binary64
  | .nan => .nan
  | .infinite s => .infinite (!s)
  | .finite s m e => .finite (!s) m e

instance : Neg Binary64 := ⟨neg⟩

def abs : Binary64 → Binary64
  | .nan => .nan
  | .infinite _ => .infinite false
  | .finite _ m e => .finite false m e

/-- A signed integer times a power of two, rounded; `zeroSign` is the sign of an exact zero. -/
def ofDyadic (n : Int) (e : Int) (zeroSign : Bool) : Binary64 :=
  if n = 0 then zero zeroSign
  else ofQuotient (n < 0) (n.natAbs * Nat.pow 2 e.toNat) (Nat.pow 2 (-e).toNat)

def signedMantissa (negative : Bool) (m : Nat) : Int := if negative then -(m : Int) else m

def add : Binary64 → Binary64 → Binary64
  | .nan, _ => .nan
  | _, .nan => .nan
  | .infinite s, .infinite t => if s = t then .infinite s else .nan
  | .infinite s, .finite .. => .infinite s
  | .finite .., .infinite t => .infinite t
  | .finite s m e, .finite t n f =>
    let low := min e f
    let x := signedMantissa s m * Nat.pow 2 (e - low).toNat
    let y := signedMantissa t n * Nat.pow 2 (f - low).toNat
    ofDyadic (x + y) low (s && t)

instance : Add Binary64 := ⟨add⟩

instance : Sub Binary64 := ⟨fun a b => a + -b⟩

def mul : Binary64 → Binary64 → Binary64
  | .nan, _ => .nan
  | _, .nan => .nan
  | .infinite s, .infinite t => .infinite (s != t)
  | .infinite s, .finite t n _ => if n = 0 then .nan else .infinite (s != t)
  | .finite s m _, .infinite t => if m = 0 then .nan else .infinite (s != t)
  | .finite s m e, .finite t n f =>
    ofQuotient (s != t) (m * n * Nat.pow 2 (e + f).toNat) (Nat.pow 2 (-(e + f)).toNat)

instance : Mul Binary64 := ⟨mul⟩

def div : Binary64 → Binary64 → Binary64
  | .nan, _ => .nan
  | _, .nan => .nan
  | .infinite _, .infinite _ => .nan
  | .infinite s, .finite t _ _ => .infinite (s != t)
  | .finite s _ _, .infinite t => zero (s != t)
  | .finite s m e, .finite t n f =>
    if n = 0 then (if m = 0 then .nan else .infinite (s != t))
    else ofQuotient (s != t) (m * Nat.pow 2 (e - f).toNat) (n * Nat.pow 2 (f - e).toNat)

instance : Div Binary64 := ⟨div⟩

/-- The order of two numbers by value; none when one of them is not a number. -/
def compare? : Binary64 → Binary64 → Option Ordering
  | .nan, _ => none
  | _, .nan => none
  | .infinite s, .infinite t => some (Ord.compare t s)
  | .infinite s, .finite .. => some (if s then .lt else .gt)
  | .finite .., .infinite t => some (if t then .gt else .lt)
  | .finite s m e, .finite t n f =>
    let low := min e f
    some (Ord.compare (signedMantissa s m * Nat.pow 2 (e - low).toNat)
      (signedMantissa t n * Nat.pow 2 (f - low).toNat))

/-- Numeric equality: both zeros are equal and not-a-number equals nothing. -/
def numEq (a b : Binary64) : Bool := compare? a b == some .eq

def numLt (a b : Binary64) : Bool := compare? a b == some .lt

def numLe (a b : Binary64) : Bool := numLt a b || numEq a b

/-- The integer part of a finite number, toward zero. -/
def truncate : Binary64 → Int
  | .finite s m e => signedMantissa s (m * Nat.pow 2 e.toNat / Nat.pow 2 (-e).toNat)
  | _ => 0

/-- The part after the point is zero. Infinities have no fraction to speak of. -/
def isIntegral : Binary64 → Bool
  | .finite _ m e => m % Nat.pow 2 (-e).toNat == 0
  | _ => false

/-- The nearest integer, a half going away from zero. -/
def round : Binary64 → Binary64
  | .finite s m e =>
    if 0 ≤ e then .finite s m e
    else
      let unit := Nat.pow 2 (-e).toNat
      let q := (2 * m + unit) / (2 * unit)
      if q = 0 then zero s else ofInt (signedMantissa s q)
  | x => x

/-- The integer part, clamped to the range from `low` to `high`; not-a-number gives zero. -/
def toIntClamped (low high : Int) : Binary64 → Int
  | .nan => 0
  | .infinite s => if s then low else high
  | x => max low (min high x.truncate)

end Binary64
end Workflow
