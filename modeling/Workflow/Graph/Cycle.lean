import Workflow.Fault.Basic
import Workflow.Graph.Basic

/-!
# Cycles

`findCycle` gives one cycle of a graph that has any. Nodes are visited depth first; the first
cyclic component that this leaves behind is searched breadth first for a shortest way from its
earliest node back to that node.
-/
namespace Workflow.TaskGraph

mutual

/-- Visit a node depth first. The state lists the nodes entered so far and the nodes left behind,
last first. -/
def visit (g : TaskGraph) : Nat → String → List String × List String → List String × List String
  | 0, _, state => state
  | fuel + 1, id, (entered, left) =>
    if entered.contains id then (entered, left)
    else
      let (entered, left) := visitAll g fuel (g.successors id) (id :: entered, left)
      (entered, id :: left)

def visitAll (g : TaskGraph) : Nat → List String → List String × List String →
    List String × List String
  | 0, _, state => state
  | _, [], state => state
  | fuel + 1, id :: ids, state => visitAll g fuel ids (visit g fuel id state)

end

/-- The nodes in the order in which a depth-first visit leaves them. -/
def leavingOrder (g : TaskGraph) : List String :=
  let fuel := 2 * (g.nodes.length + g.edges.length) + 2
  (g.nodes.foldl (fun state id => g.visit fuel id state) ([], [])).2.reverse

/-- The nodes from which `id` is reached and which are reached from it. -/
def component (g : TaskGraph) (id : String) : List String :=
  (g.reachable id).filter fun other => (g.reachable other).contains id

/-- A component with an edge inside it. -/
def isCyclicComponent (g : TaskGraph) (members : List String) : Bool :=
  1 < members.length || members.any fun id => g.hasEdge id id

/-- The first cyclic component whose nodes have all been left. -/
def cyclicComponent? (g : TaskGraph) : Option (List String) :=
  let rec search (left : List String) : List String → Option (List String)
    | [] => none
    | id :: rest =>
      let members := g.component id
      let left := id :: left
      if members.all left.contains && g.isCyclicComponent members then some members
      else search left rest
  search [] g.leavingOrder

/-- Queue the nodes of a list that have no parent yet and make `node` their parent, up to the start.
Is the start among them? -/
def enqueue (start node : String) : List String → Dict String → List String →
    Bool × Dict String × List String
  | [], parents, queue => (false, parents, queue)
  | next :: rest, parents, queue =>
    if next = start then (true, parents, queue)
    else if parents.contains next then enqueue start node rest parents queue
    else enqueue start node rest (parents.insert next node) (queue ++ [next])

/-- A node, its parent, the parent of that and so on, up to a node that has none. -/
def lineage (parents : Dict String) : Nat → String → List String
  | 0, id => [id]
  | fuel + 1, id =>
    match parents.get? id with
    | none => [id]
    | some parent => id :: lineage parents fuel parent

/-- Breadth-first search for a way back to `start` among `members`. The parent of a node is the one
from which the search has come to it first. -/
def wayBack? (g : TaskGraph) (members : List String) (start : String) :
    Nat → Dict String → List String → Option (List String)
  | 0, _, _ => none
  | _, _, [] => none
  | fuel + 1, parents, node :: queue =>
    let next := g.inNodeOrder ((g.successors node).filter members.contains)
    let after := enqueue start node next parents queue
    if after.1 then some (lineage after.2.1 g.nodes.length node).reverse
    else wayBack? g members start fuel after.2.1 after.2.2

/-- One cycle, its nodes in edge order from the earliest one on. -/
def findCycle (g : TaskGraph) : Option (List String) :=
  match g.cyclicComponent? with
  | none => none
  | some members =>
    -- the listing starts at the member that was added first
    match g.inNodeOrder members with
    | [] => none
    | start :: _ =>
      if g.hasEdge start start then some [start]
      else g.wayBack? members start (g.nodes.length + 1) .empty [start]

def validateAcyclic (g : TaskGraph) : Outcome Unit :=
  match g.findCycle with
  | some cycle => .error (.cyclicGraph cycle)
  | none => .ok ()

end Workflow.TaskGraph
