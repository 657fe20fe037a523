import Workflow.Artifact.Registry
import Workflow.Pipeline.Binding
import Workflow.Pipeline.Definition

/-!
# Building pipelines

A `Builder` collects parameters and task nodes. Every node gets an id of its own and the condition
of the scopes that are open when it is defined. Building never fails; what is wrong with a name or a
connection is kept and reported when the pipeline is sealed.
-/
namespace Workflow

/-- A task of a pipeline. -/
structure TaskNode where
  id : String
  name : String
  definition : TaskDefinition
  bindings : Dict Binding
  /-- The artifacts that the node makes, in the order of the definition's outputs. -/
  outputs : List ArtifactId
  resources : ResourceProfile
  condition : Condition
  deriving DecidableEq, Repr

namespace TaskNode

/-- The nodes that a node reads from, through bindings or its condition, sorted. -/
def dependencies (n : TaskNode) : List String :=
  sortedTexts (n.bindings.values.filterMap Binding.producer? ++ n.condition.producers)

end TaskNode

/-- A pipeline under construction. -/
structure Builder where
  name : String
  description : Option String
  params : List ParameterSpec
  nodes : List TaskNode
  registry : ArtifactRegistry
  /-- The clauses of the open scopes, the outermost first. -/
  scopes : List ConditionClause
  /-- Faults found while building. -/
  deferred : List Fault
  deriving DecidableEq, Repr

namespace Builder

def ofName (name : String) (description : Option String) : Builder :=
  ⟨name, description, [], [], .empty, [], []⟩

def node? (b : Builder) (id : String) : Option TaskNode := b.nodes.find? fun n => n.id = id

def takes (b : Builder) (id : String) : Bool := b.nodes.any fun n => n.id = id

/-- A name that cannot be part of an artifact id. -/
def refusedName (what name : String) (flaw : NameFlaw) : Fault :=
  .invalidPipeline ("invalid " ++ what ++ " name '" ++ name ++ "': " ++ flaw.message)
    (some "Rename it; artifact ids are built as <task>.<output> and params.<name>")

/-- Faults for a flaw, if there is one. -/
def refusals (what name : String) (flaw : Option NameFlaw) : List Fault :=
  flaw.toList.map (refusedName what name)

/-- Declare an external parameter. A second parameter with the same name is not added. -/
def declare (b : Builder) (spec : ParameterSpec) : Builder :=
  let refused := refusals "parameter" spec.name (ArtifactId.segmentFlaw? spec.name)
  match b.registry.registerExternal? spec.name spec.dataType with
  | none => { b with deferred := b.deferred ++ refused ++ [.duplicateParameter spec.name] }
  | some registry =>
    { b with registry, params := b.params ++ [spec], deferred := b.deferred ++ refused }

/-- The least `k ≥ from` for which `name-k` is free, among the next `fuel` numbers. -/
def freeSuffix (b : Builder) (name : String) : Nat → Nat → String
  | 0, _ => name
  | fuel + 1, k =>
    let candidate := name ++ "-" ++ toString k
    if b.takes candidate then freeSuffix b name fuel (k + 1) else candidate

/-- The id of the next node with a name: the name itself if it is free, otherwise the name with the
least number from two on that makes it free. -/
def nextId (b : Builder) (name : String) : String :=
  if b.takes name then b.freeSuffix name (b.nodes.length + 1) 2 else name

/-- Add a node for a definition, whose resources are overridden by those of the node. -/
def define (b : Builder) (name : String) (definition : TaskDefinition)
    (bindings : List (String × Binding)) (resources : ResourceProfile) : Builder × String :=
  let id := b.nextId name
  let refused :=
    refusals "task" id (ArtifactId.nodeFlaw? id) ++
    definition.outputs.flatMap fun o =>
      refusals ("output of task '" ++ id ++ "'") o.name (ArtifactId.segmentFlaw? o.name)
  let node : TaskNode :=
    { id, name, definition
      -- later bindings of an input replace earlier ones
      bindings := Dict.ofList bindings
      outputs := definition.outputs.map fun o => .output id o.name
      resources := definition.resources.mergedWith resources
      condition := ⟨b.scopes⟩ }
  let registry :=
    definition.outputs.foldl (fun r o => r.registerOutput id o.name o.dataType) b.registry
  ({ b with registry, nodes := b.nodes ++ [node], deferred := b.deferred ++ refused }, id)

def defineTask (b : Builder) (name : String) (definition : TaskDefinition)
    (bindings : List (String × Binding)) : Builder × String :=
  b.define name definition bindings .empty

/-- Bind an output of a task to an input of another, in place of any earlier binding. -/
def connect (b : Builder) (task output : String) (consumer input : String) : Builder :=
  if b.takes consumer then
    { b with nodes := b.nodes.map fun n =>
        if n.id = consumer then { n with bindings := n.bindings.insert input (.output task output) }
        else n }
  else
    { b with deferred := b.deferred ++
        [.invalidPipeline ("cannot connect to unknown task '" ++ consumer ++ "'") none] }

/-- Open a scope: nodes defined before it is closed have the clause in their condition. -/
def openScope (b : Builder) (clause : ConditionClause) : Builder :=
  { b with scopes := b.scopes ++ [clause] }

/-- Close scopes until `depth` are open. -/
def closeScopes (b : Builder) (depth : Nat) : Builder :=
  { b with scopes := b.scopes.take depth }

end Builder

/-- What closes a scope again: the number of scopes that were open before it. -/
structure ScopeGuard where
  depth : Nat
  deriving DecidableEq, Repr

/-- Open a scope for nodes that run only if a gate has the expected value. -/
def Builder.beginCondition (b : Builder) (gate : GateRef) (expected : Scalar) :
    Builder × ScopeGuard :=
  (b.openScope ⟨gate, expected⟩, ⟨b.scopes.length⟩)

/-- Close the scope, and with it all scopes inside it that are still open. -/
def ScopeGuard.close (g : ScopeGuard) (b : Builder) : Builder := b.closeScopes g.depth

/-- A task that is put together before it is added. -/
structure TaskDraft where
  name : String
  definition : TaskDefinition
  bindings : List (String × Binding)
  resources : ResourceProfile
  deriving DecidableEq, Repr

namespace TaskDraft

def ofDefinition (name : String) (definition : TaskDefinition) : TaskDraft :=
  ⟨name, definition, [], .empty⟩

def bind (d : TaskDraft) (input : String) (binding : Binding) : TaskDraft :=
  { d with bindings := d.bindings ++ [(input, binding)] }

def value (d : TaskDraft) (input : String) (v : Scalar) : TaskDraft := d.bind input (.literal v)

def withResources (d : TaskDraft) (profile : ResourceProfile) : TaskDraft :=
  { d with resources := profile }

def add (d : TaskDraft) (b : Builder) : Builder × String :=
  b.define d.name d.definition d.bindings d.resources

end TaskDraft
end Workflow
