import Workflow.Value.DataType
import Workflow.Text.Quoted

/-!
# Scalars

A scalar is a truth value, a 64-bit integer, a double or a text. Types check scalars with two
liberties: an int serves as a float, and a text names an artifact.
-/
namespace Workflow

inductive Scalar where
  | bool (b : Bool)
  | int (n : Int64)
  | float (x : Binary64)
  | text (s : String)
  deriving DecidableEq, Repr

namespace Scalar

def dataType : Scalar → DataType
  | bool _ => .bool
  | int _ => .int
  | float _ => .float
  | text _ => .string

/-- The number that a scalar denotes, as a double. -/
def toBinary64? : Scalar → Option Binary64
  | int n => some (Binary64.ofInt n.toInt)
  | float x => some x
  | _ => none

/-- Equality with ints and floats in one numeric domain. -/
def looselyEquals (a b : Scalar) : Bool :=
  match a.toBinary64?, b.toBinary64? with
  | some x, some y => x.numEq y
  | _, _ => a = b

/-- Equality of scalars of one type; floats compare as numbers. -/
def strictlyEquals : Scalar → Scalar → Bool
  | float x, float y => x.numEq y
  | a, b => a = b

def display : Scalar → String
  | bool b => if b then "true" else "false"
  | int n => toString n.toInt
  | float x => Layout.plain.write x
  | text s => quoted s

/-- The scalar that an atom of a settled document denotes. An integer too large for the signed
range becomes a float. -/
def ofAtom? : Atom → Option Scalar
  | .null => none
  | .bool b => some (bool b)
  | .int n =>
    some (if Document.fitsInt64 n then int (Int64.ofInt n) else float (Binary64.ofInt n))
  | .float x => some (float x)
  | .text s => some (text s)

def decode? (d : Document) : Option Scalar := do
  match ← d.settle? with
  | .atom a _ => ofAtom? a
  | _ => none

def toAtom : Scalar → Atom
  | bool b => .bool b
  | int n => .int n.toInt
  | float x => .float x
  | text s => .text s

def encode (s : Scalar) : Document := .atom s.toAtom none

end Scalar

/-- Check a scalar against a type; an error names the actual type. -/
def DataType.coerceScalar (t : DataType) (s : Scalar) : Except DataType Scalar :=
  match t, s with
  | .float, .int n => .ok (.float (Binary64.ofInt n.toInt))
  | t, s =>
    if t = s.dataType then .ok s
    else if t.isArtifact && s.dataType = .string then .ok s
    else .error s.dataType

end Workflow
