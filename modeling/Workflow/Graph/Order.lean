import Workflow.Graph.Cycle

/-!
# Topological order

Every producer stands before its consumers. Of the orders with this property the one taken is the
reverse of the order in which a depth-first search with an explicit stack finishes the nodes.
Whether the graph has an order at all is tested on this one.
-/
namespace Workflow.TaskGraph

/-- The state of the search: a stack, the nodes discovered and the nodes finished, last first. -/
structure Search where
  stack : List String
  discovered : List String
  finished : List String
  deriving DecidableEq, Repr

/-- Work the stack off. A node on top that is new is discovered and its undiscovered successors are
pushed, the last of them on top; a node that was discovered before is popped and finished. -/
def Search.run (g : TaskGraph) : Nat → Search → Search
  | 0, s => s
  | fuel + 1, s =>
    match s.stack with
    | [] => s
    | top :: rest =>
      if s.discovered.contains top then
        Search.run g fuel
          { s with
            stack := rest
            finished := if s.finished.contains top then s.finished else top :: s.finished }
      else
        let discovered := top :: s.discovered
        let fresh := (g.successors top).filter fun id => ¬ discovered.contains id
        Search.run g fuel { s with stack := fresh.reverse ++ s.stack, discovered }

/-- The finishing order reversed, whether or not the graph has cycles. -/
def searchOrder (g : TaskGraph) : List String :=
  let fuel := 2 * g.nodes.length + g.edges.length + 1
  (g.nodes.foldl (fun s id =>
    if s.discovered.contains id then s else Search.run g fuel { s with stack := [id] })
    (⟨[], [], []⟩ : Search)).finished

/-- The graph with every edge turned round. -/
def reversed (g : TaskGraph) : TaskGraph := ⟨g.nodes, g.edges.map Prod.swap⟩

/-- Search backwards from one node of an order after the other, over nodes that no search before has
come to. Does every search find its own node and no other? -/
def findsSingles (g : TaskGraph) : List String → List String → Bool
  | _, [] => true
  | seen, id :: rest =>
    let found := g.reversed.reachFrom (g.edges.length + 1) seen [id]
    found.length = seen.length + 1 && findsSingles g found rest

/-- The finishing order reversed, if it is an order: an edge from a node to itself is refused, and
so is a search backwards that finds a second node. -/
def topologicalOrder? (g : TaskGraph) : Option (List String) :=
  let order := g.searchOrder
  if g.nodes.any (fun id => g.hasEdge id id) || ¬ g.findsSingles [] order then none else some order

/-- The nodes with every producer before its consumers. Where there is no such order the fault lists
a cycle. -/
def topologicalOrder (g : TaskGraph) : Outcome (List String) :=
  match g.topologicalOrder? with
  | some order => .ok order
  | none => .error (.cyclicGraph (g.findCycle.getD []))

end Workflow.TaskGraph
