import Workflow.Digest.Blake3
import Workflow.Json.Write
import Workflow.Value.Scalar

/-!
# Content digests

A digest of several fields is taken of their framed bytes: each field is preceded by its length, so
that the bytes tell where fields begin and end.
-/
namespace Workflow

/-- The bytes of a text in UTF-8. -/
def textBytes (s : String) : List UInt8 := s.toUTF8.toList

/-- A number below `256 ^ count` as `count` bytes, the lowest first. -/
def littleEndian : Nat → Nat → List UInt8
  | 0, _ => []
  | count + 1, n => UInt8.ofNat (n % 256) :: littleEndian count (n / 256)

/-- A field with its length in eight bytes before it. -/
def frame (field : List UInt8) : List UInt8 := littleEndian 8 field.length ++ field

/-- The bytes of a sequence of fields. -/
def framed (fields : List (List UInt8)) : List UInt8 := fields.flatMap frame

/-- The bytes that a digest will be taken of, as far as they are known. -/
structure Hasher where
  fed : List UInt8
  deriving DecidableEq, Repr

namespace Hasher

def empty : Hasher := ⟨[]⟩

instance : Inhabited Hasher := ⟨empty⟩

/-- Feed the length of a field, then the field itself. -/
def field (h : Hasher) (bytes : List UInt8) : Hasher :=
  ⟨h.fed ++ littleEndian 8 bytes.length ++ bytes⟩

def text (h : Hasher) (s : String) : Hasher := h.field (textBytes s)

/-- Feed the JSON text of a document. -/
def document (h : Hasher) (d : Document) : Hasher := h.text (Json.compact d)

def digest (h : Hasher) : String := Blake3.hexDigest h.fed

end Hasher

def textDigest (s : String) : String := Blake3.hexDigest (textBytes s)

def fieldsDigest (fields : List String) : String := Blake3.hexDigest (framed (fields.map textBytes))

def encodeParams (params : Dict Scalar) : Document := .ofDict Scalar.encode params

/-- The key under which a submission is recognised when it is made again. -/
def idempotencyKey (experiment runName manifest : String) (params : Dict Scalar) : String :=
  fieldsDigest [experiment, runName, manifest, Json.compact (encodeParams params)]

end Workflow
