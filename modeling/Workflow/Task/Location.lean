import Workflow.Storage.Path

/-!
# Locations of local artifacts

Artifacts on the local disk lie under a root, in a directory for each node of a run, and are known
by locations that begin with `file://`.
-/
namespace Workflow

/-- The absolute directory under which artifacts lie. -/
structure ArtifactRoot where
  path : String
  deriving DecidableEq, Repr

namespace ArtifactRoot

/-- A root, given from a working directory. -/
def resolve (cwd root : String) : ArtifactRoot := ⟨Path.join cwd root⟩

/-- The directory of a node's artifacts. -/
def nodeDirectory (r : ArtifactRoot) (run node : String) : String :=
  Path.join (Path.join r.path run) node

/-- The location of an artifact output. -/
def location (r : ArtifactRoot) (run node output : String) : String :=
  "file://" ++ Path.join (r.nodeDirectory run node) output

end ArtifactRoot

def localPath? (uri : String) : Option String := (uri.dropPrefix? "file://").map (·.toString)

end Workflow
