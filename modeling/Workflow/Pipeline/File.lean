import Workflow.Pipeline.Seal

/-!
# Pipeline files

A pipeline file declares parameters and components and lists tasks. Tasks may stand in blocks that
are gated on a condition, to any depth. A task may only refer to tasks listed before it.
-/
namespace Workflow

/-- A task of a file: an instance of a component. -/
structure TaskSpec where
  name : String
  component : String
  inputs : Dict Binding
  /-- Overrides the resources of the component. -/
  resources : ResourceProfile
  deriving DecidableEq, Repr

/-- An entry of a task list: a task, or a block of entries under a condition. -/
inductive TaskEntry where
  | task (spec : TaskSpec)
  | block (condition : ConditionClause) (entries : List TaskEntry)
  deriving Repr

structure PipelineFile where
  version : String
  name : String
  description : Option String
  parameters : List ParameterSpec
  components : List TaskDefinition
  tasks : List TaskEntry
  deriving Repr

/-! ## Documents -/

namespace TaskSpec

def decode? (d : Document) : Option TaskSpec := do
  let fields ← d.asFields? ["name", "component", "inputs", "resources"]
  let name ← Fields.required fields "name" Document.asText?
  let component ← Fields.required fields "component" Document.asText?
  let inputs ← Fields.defaulted fields "inputs" Dict.empty (Document.asDict? Binding.decode?)
  let resources ← Fields.defaulted fields "resources" .empty ResourceProfile.decode?
  return ⟨name, component, inputs, resources⟩

def encode (s : TaskSpec) : Document :=
  .record ([("name", .text s.name), ("component", .text s.component),
    ("inputs", .ofDict Binding.encode s.inputs)] ++ s.resources.field)

end TaskSpec

namespace TaskEntry

/-- An entry of a settled document: a block if it can be one, otherwise a task. The first argument
bounds the nesting of blocks. -/
def ofSettled? : Nat → Document → Option TaskEntry
  | 0, _ => none
  | depth + 1, d =>
    let asBlock : Option TaskEntry := do
      let fields ← d.asFields? ["when", "tasks"]
      let condition ← Fields.required fields "when" ConditionClause.decode?
      let entries ← Fields.required fields "tasks" (Document.asList? (ofSettled? depth))
      return .block condition entries
    match asBlock with
    | some entry => some entry
    | none => (TaskSpec.decode? d).map .task

end TaskEntry

namespace Document

mutual

/-- The number of levels of a document. -/
def levels : Document → Nat
  | .atom _ _ => 1
  | .sequence items => levelsItems items + 1
  | .mapping entries => levelsEntries entries + 1
  | .tagged _ inner => levels inner + 1

def levelsItems : List Document → Nat
  | [] => 0
  | d :: ds => max (levels d) (levelsItems ds)

def levelsEntries : List (Document × Document) → Nat
  | [] => 0
  | e :: es => max (levelsEntry e) (levelsEntries es)

def levelsEntry : Document × Document → Nat
  | (k, v) => max (levels k) (levels v)

end

end Document

namespace TaskEntry

def decode? (d : Document) : Option TaskEntry := do
  let d ← d.settle?
  ofSettled? d.levels d

mutual

def encode : TaskEntry → Document
  | .task spec => spec.encode
  | .block condition entries =>
    .record [("when", condition.encode), ("tasks", .sequence (encodeList entries))]

def encodeList : List TaskEntry → List Document
  | [] => []
  | e :: es => encode e :: encodeList es

end

mutual

/-- The number of tasks of an entry, at any depth. -/
def taskCount : TaskEntry → Nat
  | .task _ => 1
  | .block _ entries => taskCountList entries

def taskCountList : List TaskEntry → Nat
  | [] => 0
  | e :: es => taskCount e + taskCountList es

end

mutual

/-- The number of blocks of an entry, itself included. -/
def blockCount : TaskEntry → Nat
  | .task _ => 0
  | .block _ entries => 1 + blockCountList entries

def blockCountList : List TaskEntry → Nat
  | [] => 0
  | e :: es => blockCount e + blockCountList es

end

end TaskEntry

namespace PipelineFile

/-- The version of a file that does not say one. -/
def defaultVersion : String := "1"

def decode? (d : Document) : Option PipelineFile := do
  let fields ← d.asFields?
    ["version", "name", "description", "parameters", "components", "tasks"]
  let version ← Fields.defaulted fields "version" defaultVersion Document.asText?
  let name ← Fields.required fields "name" Document.asText?
  let description ← Fields.optional fields "description" Document.asText?
  let parameters ← Fields.defaulted fields "parameters" [] (Document.asList? ParameterSpec.decode?)
  let components ← Fields.defaulted fields "components" []
    (Document.asList? TaskDefinition.decode?)
  let tasks ← Fields.required fields "tasks" (Document.asList? TaskEntry.decode?)
  return ⟨version, name, description, parameters, components, tasks⟩

def encode (f : PipelineFile) : Document :=
  .record ([("version", .text f.version), ("name", .text f.name)] ++
    Document.optionalField "description" Document.text f.description ++
    [("parameters", .sequence (f.parameters.map (·.encode))),
     ("components", .sequence (f.components.map (·.encode))),
     ("tasks", .sequence (TaskEntry.encodeList f.tasks))])

def component? (f : PipelineFile) (name : String) : Option TaskDefinition :=
  f.components.find? fun c => c.name = name

end PipelineFile

/-! ## Building -/

/-- A builder together with the names of the tasks defined so far. -/
structure FileBuild where
  builder : Builder
  defined : List String

namespace FileBuild

/-- A reference must be to a task defined before. -/
def requireDefined (b : FileBuild) (node task : String) : Outcome Unit :=
  if b.defined.contains task then .ok () else .error (.unknownTask node task)

def define (components : List TaskDefinition) (b : FileBuild) (spec : TaskSpec) :
    Outcome FileBuild := do
  let some component := components.find? fun c => c.name = spec.component
    | .error (.invalidPipeline
        ("task '" ++ spec.name ++ "' uses unknown component '" ++ spec.component ++ "'")
        (some "Declare the component under `components:`"))
  if b.defined.contains spec.name then
    .error (.invalidPipeline ("task name '" ++ spec.name ++ "' is used twice") none)
  else
    (spec.inputs.values.filterMap Binding.producer?).forM (b.requireDefined spec.name)
    let (builder, id) := b.builder.define spec.name component spec.inputs.entries spec.resources
    return ⟨builder, id :: b.defined⟩

mutual

/-- Define the tasks of an entry, those of a block in a scope of their own. -/
def addEntry (components : List TaskDefinition) (b : FileBuild) : TaskEntry → Outcome FileBuild
  | .task spec => b.define components spec
  | .block condition entries => do
    condition.gate.producer?.forM (b.requireDefined Diagnosis.conditionPlace)
    let depth := b.builder.scopes.length
    let b ← addEntries components ⟨b.builder.openScope condition, b.defined⟩ entries
    return ⟨b.builder.closeScopes depth, b.defined⟩

def addEntries (components : List TaskDefinition) (b : FileBuild) :
    List TaskEntry → Outcome FileBuild
  | [] => .ok b
  | e :: es => do addEntries components (← addEntry components b e) es

end

end FileBuild

/-- The first name that a list of components has twice. -/
def repeatedComponent? : List String → List TaskDefinition → Option String
  | _, [] => none
  | earlier, c :: rest =>
    if earlier.contains c.name then some c.name else repeatedComponent? (c.name :: earlier) rest

namespace PipelineFile

/-- A builder with the parameters and tasks of a file. -/
def toBuilder (f : PipelineFile) : Outcome Builder := do
  let builder := f.parameters.foldl Builder.declare (.ofName f.name f.description)
  match repeatedComponent? [] f.components with
  | some name => .error (.invalidPipeline ("component '" ++ name ++ "' is defined twice") none)
  | none => return (← FileBuild.addEntries f.components ⟨builder, []⟩ f.tasks).builder

def build (f : PipelineFile) : Outcome Pipeline := do (← f.toBuilder).seal

end PipelineFile
end Workflow
