import Workflow.Manifest.Basic
import Workflow.Text.Quoted

/-!
# Registered bodies

Task bodies are known by name. Before a manifest runs, every node must have a body: a registered
one, or a shell command whose shell is installed.
-/
namespace Workflow

/-- Bodies by name; what a body is, is left open. -/
structure BodyRegistry (Body : Type) where
  bodies : Dict Body

namespace BodyRegistry

variable {Body : Type}

def empty : BodyRegistry Body := ⟨Dict.empty⟩

/-- Register a body under a name that is free. -/
def register (r : BodyRegistry Body) (name : String) (body : Body) :
    Outcome (BodyRegistry Body) :=
  if r.bodies.contains name then .error (.duplicateBody name)
  else .ok ⟨r.bodies.insert name body⟩

/-- Register a body in place of any other with its name. -/
def replace (r : BodyRegistry Body) (name : String) (body : Body) : BodyRegistry Body :=
  ⟨r.bodies.insert name body⟩

def get? (r : BodyRegistry Body) (name : String) : Option Body := r.bodies.get? name

def names (r : BodyRegistry Body) : List String := r.bodies.keys

/-- The registry as it is shown in logs. -/
def display (r : BodyRegistry Body) : String :=
  "BodyRegistry \x7b bodies: " ++ quotedList r.names ++ " \x7d"

/-- A node's reference must be to a registered body or a shell command. -/
def resolve (r : BodyRegistry Body) (node : String) : BodyRef → Outcome Unit
  | .registered name =>
    if r.bodies.contains name then .ok () else .error (.bodyNotFound name node)
  | .shell .. => .ok ()

/-- Every node of a manifest must have a body that can run. -/
def check (r : BodyRegistry Body) (installed : String → Bool) (m : Manifest) : Outcome Unit :=
  m.nodes.forM fun n =>
    match n.body with
    | .registered _ => r.resolve n.id n.body
    | .shell _ interpreter _ =>
      if installed interpreter then .ok () else .error (.missingTool interpreter)

end BodyRegistry
end Workflow
