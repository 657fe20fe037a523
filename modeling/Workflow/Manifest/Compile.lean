import Workflow.Manifest.Basic
import Workflow.Pipeline.Seal

/-!
# Compiling pipelines

A sealed pipeline becomes a manifest whose parameters, nodes, inputs and edges are sorted, so that
pipelines of one structure give one text. The invariants of sealing are checked once more.
-/
namespace Workflow

namespace Pipeline

/-- What keeps a node from being compiled; `earlier` lists the ids before it. -/
def nodeObstacle? (p : Pipeline) (earlier : List String) (n : TaskNode) : Option String :=
  if earlier.contains n.id then some ("duplicate node id '" ++ n.id ++ "'")
  else if n.outputs ≠ n.definition.outputs.map fun o => .output n.id o.name then
    some ("outputs of node '" ++ n.id ++ "' do not match its definition")
  else
    match n.outputs.find? fun a => (p.registry.get? a).isNone with
    | some a => some ("artifact '" ++ a.text ++ "' is not registered")
    | none =>
      match n.definition.inputs.find? fun i =>
          i.defaultValue.isNone && ¬ n.bindings.contains i.name with
      | some i => some ("input '" ++ n.id ++ "." ++ i.name ++ "' is unbound")
      | none =>
        (n.dependencies.find? fun d => (p.node? d).isNone).map fun d =>
          "node '" ++ n.id ++ "' depends on unknown node '" ++ d ++ "'"

def nodesObstacle? (p : Pipeline) : List String → List TaskNode → Option String
  | _, [] => none
  | earlier, n :: rest =>
    match p.nodeObstacle? earlier n with
    | some reason => some reason
    | none => p.nodesObstacle? (n.id :: earlier) rest

/-- What keeps a pipeline from being compiled. -/
def obstacle? (p : Pipeline) : Option String :=
  if p.nodes.isEmpty then some "pipeline has no nodes"
  else
    match p.nodesObstacle? [] p.nodes with
    | some reason => some reason
    | none =>
      if edgesOf p.nodes ≠ p.edges then some "edge list does not match node bindings"
      else
        match (TaskGraph.ofEdges (p.nodes.map (·.id)) p.edges).validateAcyclic with
        | .error f => some f.message
        | .ok () => none

end Pipeline

/-- The inputs of a node with their bindings, sorted by name. -/
def TaskNode.compileInputs (n : TaskNode) : List NodeInput :=
  (n.definition.inputs.map fun i =>
    (⟨i.name, i.dataType, n.bindings.get? i.name, i.defaultValue⟩ : NodeInput)).mergeSort
      fun a b => a.name ≤ b.name

def TaskNode.compile (n : TaskNode) : ManifestNode where
  id := n.id
  name := n.name
  component := n.definition.name
  inputs := n.compileInputs
  outputs := (n.definition.outputs.zip n.outputs).map fun (o, a) => ⟨o.name, o.dataType, a⟩
  resources := n.resources
  condition := n.condition
  body := n.definition.body

/-- The manifest of a pipeline, without any check. -/
def Pipeline.toManifest (p : Pipeline) : Manifest where
  apiVersion := manifestVersion
  pipeline := ⟨p.name, p.description⟩
  parameters := p.params.mergeSort fun a b => a.name ≤ b.name
  nodes := (p.nodes.map (·.compile)).mergeSort fun a b => a.id ≤ b.id
  edges := p.edges

def Pipeline.compile (p : Pipeline) : Outcome Manifest :=
  match p.obstacle? with
  | some reason => .error (.precompiledState reason)
  | none => .ok p.toManifest

end Workflow
