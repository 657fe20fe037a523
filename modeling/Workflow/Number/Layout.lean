import Workflow.Number.Shortest

/-!
# Written forms of numbers

A `Layout` collects a format's decisions on how a double is written: which numbers are written
positionally, whether a whole number keeps its point, the sign of an exponent, and the texts of the
values that are no finite numbers. The three layouts in use are `plain`, `json` and `yaml`.
-/
namespace Workflow

structure Layout where
  tie : Tie
  /-- Whole numbers end in `.0`. -/
  keepsPoint : Bool
  /-- Numbers outside `1e-5 ≤ x < 1e16` are written with an exponent. -/
  usesExponent : Bool
  /-- A positive exponent has a plus sign. -/
  plusSign : Bool
  infinity : String
  nan : String
  deriving DecidableEq, Repr

namespace Layout

/-- Never an exponent and no point in whole numbers. -/
def plain : Layout := ⟨.up, false, false, false, "inf", "NaN"⟩

/-- There is no written form of an infinity, so `null` stands for it. -/
def json : Layout := ⟨.toEven, true, true, true, "null", "null"⟩

def yaml : Layout := ⟨.toEven, true, true, false, ".inf", ".nan"⟩

end Layout

def zeros (n : Nat) : String := String.ofList (List.replicate n '0')

/-- The digits of a decimal number written around its point, which stands `point` places from the
left end of the digits. -/
def positional (keepsPoint : Bool) (digits : String) (point : Int) : String :=
  let count : Int := digits.length
  let tail := if keepsPoint then ".0" else ""
  if point ≤ 0 then "0." ++ zeros (-point).toNat ++ digits
  else if count ≤ point then digits ++ zeros (point - count).toNat ++ tail
  else
    let whole := digits.toList.take point.toNat
    let fraction := digits.toList.drop point.toNat
    String.ofList whole ++ "." ++ String.ofList fraction

/-- The digits with a point after the first one and an exponent of ten. -/
def scientific (plusSign : Bool) (digits : String) (point : Int) : String :=
  let mantissa :=
    match digits.toList with
    | first :: second :: rest => String.ofList (first :: '.' :: second :: rest)
    | _ => digits
  let exponent := point - 1
  mantissa ++ "e" ++ (if plusSign && 0 ≤ exponent then "+" else "") ++ toString exponent

/-- The written form of a double in a layout. -/
def Layout.write (layout : Layout) : Binary64 → String
  | .nan => layout.nan
  | .infinite negative =>
    if negative && layout.infinity ≠ "null" then "-" ++ layout.infinity else layout.infinity
  | .finite negative m e =>
    let sign := if negative then "-" else ""
    if m = 0 then sign ++ (if layout.keepsPoint then "0.0" else "0")
    else
      let d := Binary64.shortest layout.tie m e
      let digits := toString d.digits
      let point := (digits.length : Int) + d.exponent
      if layout.usesExponent && (point ≤ -5 || 16 < point) then
        sign ++ scientific layout.plusSign digits point
      else sign ++ positional layout.keepsPoint digits point

end Workflow
