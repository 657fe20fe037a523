import Workflow.Graph.Order

/-!
# Drawings of graphs

A graph is written as a Mermaid diagram, as a DOT diagram, or as a numbered list in execution order.
The caller says how a node is labelled.
-/
namespace Workflow.TaskGraph

/-- An id with every character but ASCII letters, digits and underscores replaced. -/
def mermaidId (id : String) : String :=
  id.map fun c => if c.isAlphanum || c = '_' then c else '_'

def toMermaid (g : TaskGraph) (label : String → String) : String :=
  "graph TD\n" ++
  String.join (g.nodes.map fun id => s!"    {mermaidId id}[\"" ++ label id ++ "\"]\n") ++
  String.join (g.edges.map fun e => s!"    {mermaidId e.1} --> {mermaidId e.2}\n")

def toDot (g : TaskGraph) (label : String → String) : String :=
  "digraph pipeline \x7b\n    rankdir=TB;\n    node [shape=box, style=rounded];\n\n" ++
  String.join (g.nodes.map fun id => "    \"" ++ id ++ "\" [label=\"" ++ label id ++ "\"];\n") ++
  String.join (g.edges.map fun e => "    \"" ++ e.1 ++ "\" -> \"" ++ e.2 ++ "\";\n") ++
  "\x7d\n"

/-- One line of the execution order. -/
def orderLine (g : TaskGraph) (label : String → String) (position : Nat) (id : String) : String :=
  let needs := g.dependencies id
  toString position ++ ". " ++ label id ++
    (if needs.isEmpty then "" else " [depends: " ++ ", ".intercalate needs ++ "]") ++ "\n"

def toText (g : TaskGraph) (label : String → String) : Outcome String := do
  let order ← g.topologicalOrder
  return String.join (order.zipIdx.map fun (id, i) => g.orderLine label (i + 1) id)

end Workflow.TaskGraph
