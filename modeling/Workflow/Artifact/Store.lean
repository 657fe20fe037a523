import Workflow.Artifact.Id
import Workflow.Value.Basic

/-!
# The values of a run

The artifact store holds the values that one run has made so far. A value is written once: a second
write under the same id changes nothing.
-/
namespace Workflow

structure ArtifactStore where
  values : Dict Value
  deriving Repr

namespace ArtifactStore

def empty : ArtifactStore := ⟨Dict.empty⟩

instance : Inhabited ArtifactStore := ⟨empty⟩

def get? (s : ArtifactStore) (id : ArtifactId) : Option Value := s.values.get? id.text

def contains (s : ArtifactStore) (id : ArtifactId) : Bool := s.values.contains id.text

/-- Record a value unless the id has one already. -/
def insert (s : ArtifactStore) (id : ArtifactId) (v : Value) : ArtifactStore :=
  if s.contains id then s else ⟨s.values.insert id.text v⟩

def size (s : ArtifactStore) : Nat := s.values.size

end ArtifactStore
end Workflow
