import Workflow.Graph.Render
import Workflow.Manifest.Basic

/-!
# Drawings of manifests

Nodes are labelled with their id, their component and their condition. Each drawing language has its
own way to write a double quote inside a label.
-/
namespace Workflow.Manifest

def label (m : Manifest) (id : String) : String :=
  match m.node? id with
  | none => id
  | some n =>
    let plain := id ++ " (" ++ n.component ++ ")"
    if n.isGated then plain ++ " if " ++ n.condition.display else plain

/-- A text with every double quote replaced. -/
def replaceQuotes (replacement s : String) : String :=
  String.join (s.toList.map fun c => if c = '"' then replacement else String.singleton c)

def renderText (m : Manifest) : Outcome String := m.graph.toText m.label

def renderDot (m : Manifest) : String :=
  m.graph.toDot fun id => replaceQuotes "\\\"" (m.label id)

def renderMermaid (m : Manifest) : String :=
  m.graph.toMermaid fun id => replaceQuotes "#quot;" (m.label id)

end Workflow.Manifest
