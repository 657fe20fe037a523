import Workflow.Number.Layout
import Workflow.Text.Digits

/-!
# Numbers with a given number of places

A number is written with so many places after the point, or with so many significant digits. The
exact value is rounded once, and an exact half goes to the even neighbour.
-/
namespace Workflow.Binary64

/-- The sign, and the text of what is neither finite. -/
def signed (negative : Bool) (text : String) : String := if negative then "-" ++ text else text

/-- The magnitude of a finite number times a power of ten, rounded to an integer. -/
def scaledMagnitude (m : Nat) (e power : Int) : Nat :=
  roundDiv (m * Nat.pow 2 e.toNat * Nat.pow 10 power.toNat)
    (Nat.pow 2 (-e).toNat * Nat.pow 10 (-power).toNat)

/-- A number of so many places after the point. -/
def fixedText (places : Nat) : Binary64 → String
  | .nan => "nan"
  | .infinite negative => signed negative "inf"
  | .finite negative m e =>
    let n := scaledMagnitude m e places
    let whole := toString (n / Nat.pow 10 places)
    signed negative
      (if places = 0 then whole else whole ++ "." ++ decimalPadded places (n % Nat.pow 10 places))

/-- The digits of a number, so many after the first, and its power of ten. -/
def leadingDigits (places m : Nat) (e : Int) : Nat × Int :=
  if m = 0 then (0, 0)
  else
    let power := decimalMagnitude (m * Nat.pow 2 e.toNat) (Nat.pow 2 (-e).toNat) - 1
    let n := scaledMagnitude m e (places - power)
    if n = Nat.pow 10 (places + 1) then (Nat.pow 10 places, power + 1) else (n, power)

/-- An exponent of two digits at least, with its sign. -/
def exponentText (power : Int) : String :=
  "e" ++ (if power < 0 then "-" else "+") ++ decimalPadded 2 power.natAbs

/-- A number with an exponent and so many places after its first digit. -/
def exponentialText (places : Nat) : Binary64 → String
  | .finite negative m e =>
    let (n, power) := leadingDigits places m e
    let digits := (decimalPadded (places + 1) n).toList
    let rest := if places = 0 then "" else "." ++ String.ofList (digits.drop 1)
    signed negative (String.ofList (digits.take 1) ++ rest ++ exponentText power)
  | x => fixedText 0 x

/-- A text without the zeros that end its fraction. -/
def withoutEndZeros (text : String) : String :=
  if text.toList.contains '.' then
    let kept := (text.toList.reverse.dropWhile (· = '0'))
    String.ofList (if kept.head? = some '.' then kept.tail else kept).reverse
  else text

/-- A number with so many significant digits, in the shorter of the two forms. -/
def generalText (significant : Nat) : Binary64 → String
  | .finite negative m e =>
    let places := significant - 1
    let (n, power) := leadingDigits places m e
    if power < -4 || (places : Int) < power then
      let digits := (decimalPadded (places + 1) n).toList
      let mantissa := String.ofList (digits.take 1) ++ "." ++ String.ofList (digits.drop 1)
      signed negative (withoutEndZeros mantissa ++ exponentText power)
    else withoutEndZeros (fixedText (places - power).toNat (.finite negative m e))
  | x => fixedText 0 x

end Workflow.Binary64
