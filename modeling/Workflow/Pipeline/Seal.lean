import Workflow.Pipeline.Diagnosis

/-!
# Sealed pipelines

Sealing checks a pipeline and freezes it. The first fault of the diagnosis is reported.
-/
namespace Workflow

/-- A checked pipeline. -/
structure Pipeline where
  name : String
  description : Option String
  params : List ParameterSpec
  /-- Nodes in the order in which they were defined. -/
  nodes : List TaskNode
  /-- Pairs of producer and consumer, sorted. -/
  edges : List (String × String)
  registry : ArtifactRegistry
  deriving DecidableEq, Repr

/-- Does one pair of texts stand before another? -/
def pairBefore (a b : String × String) : Bool := a.1 < b.1 || (a.1 = b.1 && a.2 < b.2)

/-- Add a pair to a sorted list unless it is there. -/
def insertPair (p : String × String) : List (String × String) → List (String × String)
  | [] => [p]
  | q :: rest =>
    if p = q then q :: rest
    else if pairBefore p q then p :: q :: rest
    else q :: insertPair p rest

/-- The dependencies between existing nodes as pairs of producer and consumer, sorted. -/
def edgesOf (nodes : List TaskNode) : List (String × String) :=
  let ids := nodes.map (·.id)
  let pairs := nodes.flatMap fun n =>
    (n.dependencies.filter fun d => ids.contains d).map fun d => (d, n.id)
  pairs.foldl (fun sorted p => insertPair p sorted) []

namespace Pipeline

def node? (p : Pipeline) (id : String) : Option TaskNode := p.nodes.find? fun n => n.id = id

end Pipeline

/-- Check a pipeline and freeze it. -/
def Builder.seal (b : Builder) : Outcome Pipeline :=
  match b.diagnose.faults with
  | fault :: _ => .error fault
  | [] => .ok ⟨b.name, b.description, b.params, b.nodes, edgesOf b.nodes, b.registry⟩

end Workflow
