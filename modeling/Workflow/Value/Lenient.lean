import Workflow.Value.Scalar
import Workflow.Yaml.Node

/-!
# Scalars of loose texts

A value on a command line is written as it would be in a YAML file. A text that is no scalar there
stands for itself.
-/
namespace Workflow

def Scalar.ofLooseText (s : String) : Scalar :=
  match (Yaml.read? s).bind Scalar.decode? with
  | some value => value
  | none => .text s

end Workflow
