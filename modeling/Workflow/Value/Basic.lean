import Workflow.Value.Scalar
import Workflow.Json.Write

/-!
# Values

What flows between tasks: a scalar, or a reference to an artifact with a little metadata. The bytes
of artifacts are never handled, only their locations.
-/
namespace Workflow

namespace Document

mutual

/-- The document with every mapping in key order and one entry a key, the last one written. -/
def sortKeys : Document → Document
  | .atom a _ => .atom a none
  | .sequence items => .sequence (sortKeysItems items)
  | .mapping entries => .record (Dict.ofList (sortKeysEntries entries)).entries
  | .tagged _ inner => sortKeys inner

def sortKeysItems : List Document → List Document
  | [] => []
  | d :: ds => sortKeys d :: sortKeysItems ds

def sortKeysEntries : List (Document × Document) → List (String × Document)
  | [] => []
  | e :: es => sortKeysEntry e :: sortKeysEntries es

def sortKeysEntry : Document × Document → String × Document
  | (k, v) => ((asText? k).getD "", sortKeys v)

end

end Document

/-- Where an artifact is stored, with metadata of any shape. -/
structure ArtifactPayload where
  uri : String
  metadata : Dict Document
  deriving DecidableEq, Repr

namespace ArtifactPayload

def atUri (uri : String) : ArtifactPayload := ⟨uri, Dict.empty⟩

def decode? (d : Document) : Option ArtifactPayload := do
  let fields ← d.asFields? ["uri", "metadata"]
  let uri ← Fields.required fields "uri" Document.asText?
  let metadata ← Fields.defaulted fields "metadata" Dict.empty
    (Document.asDict? fun v => some v.sortKeys)
  return ⟨uri, metadata⟩

def encode (p : ArtifactPayload) : Document :=
  .record (("uri", .text p.uri) ::
    (if p.metadata.isEmpty then [] else [("metadata", .ofDict id p.metadata)]))

end ArtifactPayload

/-- A scalar or a reference to an artifact. -/
inductive Value where
  | scalar (s : Scalar)
  | artifact (p : ArtifactPayload)
  deriving DecidableEq, Repr

namespace Value

instance : Inhabited Value := ⟨.scalar (.bool false)⟩

def atUri (uri : String) : Value := .artifact (.atUri uri)

def asScalar? : Value → Option Scalar
  | scalar s => some s
  | artifact _ => none

def asArtifact? : Value → Option ArtifactPayload
  | scalar _ => none
  | artifact p => some p

def asBool? : Value → Option Bool
  | scalar (.bool b) => some b
  | _ => none

def asNumber? (v : Value) : Option Binary64 := v.asScalar?.bind Scalar.toBinary64?

def asText? : Value → Option String
  | scalar (.text s) => some s
  | artifact p => some p.uri
  | _ => none

/-- The name of the type that a value shows at run time. -/
def typeName : Value → String
  | scalar s => s.dataType.name
  | artifact _ => "artifact"

def display : Value → String
  | scalar s => s.display
  | artifact p => p.uri

/-- A scalar if it can be one, otherwise a reference. -/
def decode? (d : Document) : Option Value := do
  let d ← d.settle?
  match Scalar.decode? d with
  | some s => return .scalar s
  | none => return .artifact (← ArtifactPayload.decode? d)

def encode : Value → Document
  | scalar s => s.encode
  | artifact p => p.encode

end Value

/-- Check a value against a type. An artifact type takes a text as a location; an error names the
type that the value has. -/
def DataType.coerce (t : DataType) (v : Value) : Except String Value :=
  match v with
  | .artifact p => if t.isArtifact then .ok (.artifact p) else .error v.typeName
  | .scalar s =>
    if t.isArtifact then
      match s with
      | .text uri => .ok (.atUri uri)
      | _ => .error v.typeName
    else
      match t.coerceScalar s with
      | .ok s => .ok (.scalar s)
      | .error actual => .error actual.name

end Workflow
