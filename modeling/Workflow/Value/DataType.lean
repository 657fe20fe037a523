import Workflow.Document.Decode

/-!
# Declared types

Inputs, outputs and parameters declare a `DataType`. Three of the types are stored by reference, the
others are scalars.
-/
namespace Workflow

/-- What an artifact holds. -/
inductive ArtifactKind where
  | dataset
  | model
  | metrics
  | value
  deriving DecidableEq, Repr

namespace ArtifactKind

def name : ArtifactKind → String
  | dataset => "dataset"
  | model => "model"
  | metrics => "metrics"
  | value => "value"

end ArtifactKind

/-- The type of an input, an output or a parameter. -/
inductive DataType where
  | dataset
  | model
  | metrics
  | string
  | float
  | int
  | bool
  deriving DecidableEq, Repr, Inhabited

namespace DataType

def all : List DataType := [dataset, model, metrics, string, float, int, bool]

def name : DataType → String
  | dataset => "dataset"
  | model => "model"
  | metrics => "metrics"
  | string => "string"
  | float => "float"
  | int => "int"
  | bool => "bool"

def ofName? (name : String) : Option DataType := all.find? fun t => t.name == name

theorem ofName?_name (t : DataType) : ofName? t.name = some t := by cases t <;> rfl

def kind : DataType → ArtifactKind
  | dataset => .dataset
  | model => .model
  | metrics => .metrics
  | string | float | int | bool => .value

/-- Values of this type are stored by reference. -/
def isArtifact (t : DataType) : Bool := t.kind ≠ .value

/-- May a value declared as `actual` be bound where `t` is expected? Types match exactly, except
that an int widens to a float. -/
def accepts (t actual : DataType) : Bool := t = actual || (t = .float && actual = .int)

def decode? (d : Document) : Option DataType := d.asName?.bind ofName?

def encode (t : DataType) : Document := .text t.name

end DataType
end Workflow
