import Workflow.Document.Decode

/-!
# Artifact ids

A task output is named `<node>.<output>` and an external parameter `params.<name>`. The ids are
unambiguous while no part of a name has a point in it and no node is called `params`; the two name
checks see to that.
-/
namespace Workflow

structure ArtifactId where
  text : String
  deriving DecidableEq, Repr, Inhabited

/-- Why a name is refused. -/
inductive NameFlaw where
  | reserved
  | empty
  | dotted (name : String)
  deriving DecidableEq, Repr

/-- The name under which external parameters stand. -/
def paramsNamespace : String := "params"

def NameFlaw.message : NameFlaw → String
  | reserved => "'" ++ paramsNamespace ++ "' is reserved for external parameters"
  | empty => "names must not be empty"
  | dotted name => "'" ++ name ++ "' must not contain '.'"

namespace ArtifactId

def output (node output : String) : ArtifactId := ⟨node ++ "." ++ output⟩

def param (name : String) : ArtifactId := ⟨paramsNamespace ++ "." ++ name⟩

def segmentFlaw? (name : String) : Option NameFlaw :=
  if name.isEmpty then some .empty
  else if name.toList.contains '.' then some (.dotted name)
  else none

def nodeFlaw? (id : String) : Option NameFlaw :=
  if id = paramsNamespace then some .reserved else segmentFlaw? id

def decode? (d : Document) : Option ArtifactId := d.asText?.map ArtifactId.mk

def encode (id : ArtifactId) : Document := .text id.text

end ArtifactId
end Workflow
