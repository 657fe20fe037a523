import Workflow.Data.Dict

/-!
# Dependency graphs

A `TaskGraph` holds node ids in the order in which they were added, and edges from producers to
consumers in theirs. Ids and edges occur once. Where an order among the successors of a node
matters, the most recently added edge comes first.
-/
namespace Workflow

structure TaskGraph where
  nodes : List String
  edges : List (String × String)
  deriving DecidableEq, Repr

namespace TaskGraph

def empty : TaskGraph := ⟨[], []⟩

instance : Inhabited TaskGraph := ⟨empty⟩

def contains (g : TaskGraph) (id : String) : Bool := g.nodes.contains id

def hasEdge (g : TaskGraph) (source target : String) : Bool := g.edges.contains (source, target)

def addNode (g : TaskGraph) (id : String) : TaskGraph :=
  if g.contains id then g else { g with nodes := g.nodes ++ [id] }

/-- Are both ends of an edge nodes of the graph? -/
def knows (g : TaskGraph) (source target : String) : Bool := g.contains source && g.contains target

/-- Add an edge between nodes of the graph unless it is there; other edges are ignored. -/
def addEdge (g : TaskGraph) (source target : String) : TaskGraph :=
  if g.knows source target && ¬ g.hasEdge source target then
    { g with edges := g.edges ++ [(source, target)] }
  else g

/-- The graph of some nodes and of those edges that join two of them. -/
def ofEdges (nodes : List String) (edges : List (String × String)) : TaskGraph :=
  edges.foldl (fun g e => g.addEdge e.1 e.2) (nodes.foldl addNode empty)

def size (g : TaskGraph) : Nat := g.nodes.length

/-- The targets of a node's edges, the most recent edge first. -/
def successors (g : TaskGraph) (id : String) : List String :=
  ((g.edges.filter fun e => e.1 = id).map (·.2)).reverse

/-- The nodes of a list in the order in which they were added to the graph. -/
def inNodeOrder (g : TaskGraph) (ids : List String) : List String :=
  g.nodes.filter fun id => ids.contains id

/-- The nodes that must finish before a node, sorted. -/
def dependencies (g : TaskGraph) (id : String) : List String :=
  sortedTexts ((g.edges.filter fun e => e.2 = id).map (·.1))

/-- The nodes that consume a node, sorted. -/
def dependents (g : TaskGraph) (id : String) : List String :=
  sortedTexts (g.successors id)

/-- Nodes reached from `pending` by edges, together with the nodes in `seen`. -/
def reachFrom (g : TaskGraph) : Nat → List String → List String → List String
  | 0, seen, _ => seen
  | _, seen, [] => seen
  | fuel + 1, seen, id :: pending =>
    if seen.contains id then reachFrom g fuel seen pending
    else reachFrom g fuel (id :: seen) (g.successors id ++ pending)

/-- All nodes reached from a node by any number of edges, itself included. -/
def reachable (g : TaskGraph) (id : String) : List String :=
  g.reachFrom (g.nodes.length + g.edges.length + 1) [] [id]

/-- Does `a` depend on another node `b`, directly or through others? -/
def dependsOn (g : TaskGraph) (a b : String) : Bool :=
  g.contains a && g.contains b && a ≠ b && (g.reachable b).contains a

end TaskGraph
end Workflow
