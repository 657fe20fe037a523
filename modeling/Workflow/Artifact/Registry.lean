import Workflow.Artifact.Id
import Workflow.Value.DataType

/-!
# The artifacts of a pipeline

While a pipeline is built the registry records every artifact that it can produce, with its type and
its producer.
-/
namespace Workflow

/-- Who makes an artifact. -/
inductive Producer where
  | task (node : String)
  | external
  deriving DecidableEq, Repr

/-- A typed item of data with its origin. -/
structure Artifact where
  id : ArtifactId
  dataType : DataType
  producer : Producer
  logicalName : String
  deriving DecidableEq, Repr

namespace Artifact

def kind (a : Artifact) : ArtifactKind := a.dataType.kind

def encode (a : Artifact) : Document :=
  .record [("id", a.id.encode), ("kind", .text a.kind.name), ("data_type", a.dataType.encode),
    ("producer", match a.producer with
      | .task node => .record [("task", .text node)]
      | .external => .text "external"),
    ("logical_name", .text a.logicalName)]

end Artifact

structure ArtifactRegistry where
  byId : Dict Artifact
  deriving DecidableEq, Repr

namespace ArtifactRegistry

def empty : ArtifactRegistry := ⟨Dict.empty⟩

instance : Inhabited ArtifactRegistry := ⟨empty⟩

/-- Record an output of a task; a repeated output takes the new type. -/
def registerOutput (r : ArtifactRegistry) (node output : String) (t : DataType) :
    ArtifactRegistry :=
  let id := ArtifactId.output node output
  ⟨r.byId.insert id.text ⟨id, t, .task node, output⟩⟩

/-- Record an external parameter, unless one with this name is recorded. -/
def registerExternal? (r : ArtifactRegistry) (name : String) (t : DataType) :
    Option ArtifactRegistry :=
  let id := ArtifactId.param name
  if r.byId.contains id.text then none
  else some ⟨r.byId.insert id.text ⟨id, t, .external, name⟩⟩

def get? (r : ArtifactRegistry) (id : ArtifactId) : Option Artifact := r.byId.get? id.text

def output? (r : ArtifactRegistry) (node output : String) : Option Artifact :=
  r.get? (ArtifactId.output node output)

def param? (r : ArtifactRegistry) (name : String) : Option Artifact :=
  r.get? (ArtifactId.param name)

/-- All artifacts in the order of their ids. -/
def artifacts (r : ArtifactRegistry) : List Artifact := r.byId.values

def producedBy (r : ArtifactRegistry) (node : String) : List Artifact :=
  r.artifacts.filter fun a => a.producer = .task node

def size (r : ArtifactRegistry) : Nat := r.byId.size

end ArtifactRegistry
end Workflow
