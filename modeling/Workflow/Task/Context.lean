import Workflow.Resource.Profile
import Workflow.Value.Basic

/-!
# What a task body receives and returns

A body is invoked with the values of its inputs and with locations for its artifact outputs. It
returns values by output name. A body that asks for something that is not there fails with a text.
-/
namespace Workflow

/-- Everything that a body receives for one invocation. -/
structure TaskContext where
  run : String
  node : String
  inputs : Dict Value
  /-- Locations for artifact outputs by output name. -/
  locations : Dict String
  resources : ResourceProfile
  deriving Repr

/-- Values by output name. -/
abbrev TaskOutputs := Dict Value

/-- What a body or an accessor gives: a value, or the text of a failure. -/
abbrev BodyResult (α : Type) := Except String α

namespace TaskContext

def input (c : TaskContext) (name : String) : BodyResult Value :=
  match c.inputs.get? name with
  | some v => .ok v
  | none => .error s!"task '{c.node}' has no input '{name}'"

def inputAs {α : Type} (c : TaskContext) (name form : String) (view : Value → Option α) :
    BodyResult α := do
  match view (← c.input name) with
  | some a => .ok a
  | none => .error s!"input '{name}' is not {form}"

def number (c : TaskContext) (name : String) : BodyResult Binary64 :=
  c.inputAs name "a number" Value.asNumber?

def bool (c : TaskContext) (name : String) : BodyResult Bool :=
  c.inputAs name "a bool" Value.asBool?

def text (c : TaskContext) (name : String) : BodyResult String :=
  c.inputAs name "a string" Value.asText?

def artifact (c : TaskContext) (name : String) : BodyResult ArtifactPayload :=
  c.inputAs name "an artifact" Value.asArtifact?

def location (c : TaskContext) (name : String) : BodyResult String :=
  match c.locations.get? name with
  | some uri => .ok uri
  | none => .error s!"task '{c.node}' has no artifact output '{name}'"

end TaskContext
end Workflow
