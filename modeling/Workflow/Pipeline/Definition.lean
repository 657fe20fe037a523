import Workflow.Resource.Profile
import Workflow.Value.Scalar

/-!
# Task definitions

A definition is the reusable schema of a task, also called a component: typed inputs, typed outputs
in order, resources asked for by default, and a reference to the body that does the work.
-/
namespace Workflow

/-- A declared input of a task. -/
structure InputSpec where
  name : String
  dataType : DataType
  /-- Used when the input is left unbound. -/
  defaultValue : Option Scalar
  deriving DecidableEq, Repr

/-- A declared output of a task. -/
structure OutputSpec where
  name : String
  dataType : DataType
  deriving DecidableEq, Repr

/-- An external parameter of a pipeline. -/
structure ParameterSpec where
  name : String
  dataType : DataType
  /-- Used when the parameter is not supplied. -/
  defaultValue : Option Scalar
  deriving DecidableEq, Repr

namespace InputSpec

def decode? (d : Document) : Option InputSpec := do
  let fields ← d.asFields? ["name", "type", "default"]
  let name ← Fields.required fields "name" Document.asText?
  let dataType ← Fields.required fields "type" DataType.decode?
  let defaultValue ← Fields.optional fields "default" Scalar.decode?
  return ⟨name, dataType, defaultValue⟩

def encode (s : InputSpec) : Document :=
  .record ([("name", .text s.name), ("type", s.dataType.encode)] ++
    Document.optionalField "default" Scalar.encode s.defaultValue)

end InputSpec

namespace OutputSpec

def decode? (d : Document) : Option OutputSpec := do
  let fields ← d.asFields? ["name", "type"]
  let name ← Fields.required fields "name" Document.asText?
  let dataType ← Fields.required fields "type" DataType.decode?
  return ⟨name, dataType⟩

def encode (s : OutputSpec) : Document :=
  .record [("name", .text s.name), ("type", s.dataType.encode)]

end OutputSpec

namespace ParameterSpec

def decode? (d : Document) : Option ParameterSpec := do
  let fields ← d.asFields? ["name", "type", "default"]
  let name ← Fields.required fields "name" Document.asText?
  let dataType ← Fields.required fields "type" DataType.decode?
  let defaultValue ← Fields.optional fields "default" Scalar.decode?
  return ⟨name, dataType, defaultValue⟩

def encode (s : ParameterSpec) : Document :=
  .record ([("name", .text s.name), ("type", s.dataType.encode)] ++
    Document.optionalField "default" Scalar.encode s.defaultValue)

end ParameterSpec

/-- What implements a task: a body known by name, or a shell command. -/
inductive BodyRef where
  | registered (name : String)
  | shell (command interpreter : String) (env : Dict String)
  deriving DecidableEq, Repr

namespace BodyRef

/-- The shell that runs commands unless another is named. -/
def defaultShell : String := "sh"

def describe : BodyRef → String
  | registered name => "registered:" ++ name
  | shell _ interpreter _ => "shell:" ++ interpreter

/-- Split off the kind of a body, which is a field `type` or the first item of a sequence. -/
def splitKind? : Document → Option (String × Document)
  | .mapping entries => do
    let isKind (e : Document × Document) : Bool :=
      match e.1 with
      | .atom (.text key) _ => key = "type"
      | _ => false
    match entries.filter isKind with
    | [(_, kind)] => return (← kind.asText?, .mapping (entries.filter fun e => ¬ isKind e))
    | _ => none
  | .sequence (kind :: rest) => do return (← kind.asText?, .sequence rest)
  | _ => none

def decode? (d : Document) : Option BodyRef := do
  let (kind, rest) ← splitKind? (← d.settle?)
  match kind with
  | "registered" =>
    let fields ← rest.asFields? ["name"]
    return .registered (← Fields.required fields "name" Document.asText?)
  | "shell" =>
    let fields ← rest.asFields? ["command", "shell", "env"]
    let command ← Fields.required fields "command" Document.asText?
    let interpreter ← Fields.defaulted fields "shell" defaultShell Document.asText?
    let env ← Fields.defaulted fields "env" Dict.empty (Document.asDict? Document.asText?)
    return .shell command interpreter env
  | _ => none

def encode : BodyRef → Document
  | registered name => .record [("type", .text "registered"), ("name", .text name)]
  | shell command interpreter env =>
    .record ([("type", .text "shell"), ("command", .text command),
        ("shell", .text interpreter)] ++
      (if env.isEmpty then [] else [("env", .ofDict .text env)]))

end BodyRef

/-- The schema of a task. -/
structure TaskDefinition where
  name : String
  description : Option String
  inputs : List InputSpec
  /-- Outputs in the order of their declaration. -/
  outputs : List OutputSpec
  resources : ResourceProfile
  body : BodyRef
  deriving DecidableEq, Repr

namespace TaskDefinition

/-- A definition without inputs, outputs and wishes. -/
def ofBody (name : String) (body : BodyRef) : TaskDefinition :=
  ⟨name, none, [], [], .empty, body⟩

def input? (d : TaskDefinition) (name : String) : Option InputSpec :=
  d.inputs.find? fun i => i.name = name

def output? (d : TaskDefinition) (name : String) : Option OutputSpec :=
  d.outputs.find? fun o => o.name = name

def decode? (d : Document) : Option TaskDefinition := do
  let fields ← d.asFields? ["name", "description", "inputs", "outputs", "resources", "body"]
  let name ← Fields.required fields "name" Document.asText?
  let description ← Fields.optional fields "description" Document.asText?
  let inputs ← Fields.defaulted fields "inputs" [] (Document.asList? InputSpec.decode?)
  let outputs ← Fields.defaulted fields "outputs" [] (Document.asList? OutputSpec.decode?)
  let resources ← Fields.defaulted fields "resources" .empty ResourceProfile.decode?
  let body ← Fields.required fields "body" BodyRef.decode?
  return ⟨name, description, inputs, outputs, resources, body⟩

def encode (d : TaskDefinition) : Document :=
  .record ([("name", .text d.name)] ++
    Document.optionalField "description" Document.text d.description ++
    [("inputs", .sequence (d.inputs.map (·.encode))),
     ("outputs", .sequence (d.outputs.map (·.encode)))] ++
    d.resources.field ++ [("body", d.body.encode)])

end TaskDefinition
end Workflow
