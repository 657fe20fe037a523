import Workflow.Manifest.Basic

/-!
# Checking manifests

A manifest that may have been edited is checked before it is used: its version, its names, the ends
of its edges, every reference together with the edge that it needs, and acyclicity. The first
problem is reported.
-/
namespace Workflow.Manifest

def firstProblem? {α : Type} (check : α → Option String) (items : List α) : Option String :=
  items.findSome? check

def nodeNameProblem? (n : ManifestNode) : Option String :=
  match ArtifactId.nodeFlaw? n.id with
  | some flaw => some ("node '" ++ n.id ++ "': " ++ flaw.message)
  | none =>
    firstProblem? (fun o => (ArtifactId.segmentFlaw? o.name).map fun flaw =>
      "node '" ++ n.id ++ "' output: " ++ flaw.message) n.outputs

/-- Node ids must differ, and names must make unambiguous artifact ids. -/
def namesProblem? : List String → List ManifestNode → Option String
  | _, [] => none
  | earlier, n :: rest =>
    if earlier.contains n.id then some ("duplicate node id '" ++ n.id ++ "'")
    else
      match nodeNameProblem? n with
      | some problem => some problem
      | none => namesProblem? (n.id :: earlier) rest

def parameterProblem? (p : ParameterSpec) : Option String :=
  (ArtifactId.segmentFlaw? p.name).map fun flaw => "parameter: " ++ flaw.message

def edgeProblem? (m : Manifest) (e : String × String) : Option String :=
  let ids := m.nodes.map (·.id)
  if ids.contains e.1 && ids.contains e.2 then none
  else some ("edge " ++ e.1 ++ " -> " ++ e.2 ++ " has an unknown endpoint")

/-- A reference to an output needs the node, the output and an edge. -/
def outputProblem? (m : Manifest) (n : ManifestNode) (task output : String) : Option String :=
  match m.node? task with
  | none => some ("node '" ++ n.id ++ "' reads from unknown node '" ++ task ++ "'")
  | some producer =>
    if (producer.output? output).isNone then
      some ("node '" ++ n.id ++ "' reads unknown output '" ++ task ++ "." ++ output ++ "'")
    else if ¬ m.edges.contains (task, n.id) then
      some ("missing edge " ++ task ++ " -> " ++ n.id)
    else none

def inputProblem? (m : Manifest) (n : ManifestNode) (i : NodeInput) : Option String :=
  match i.binding with
  | some (.param param) =>
    if (m.parameter? param).isNone then
      some ("node '" ++ n.id ++ "' input '" ++ i.name ++ "' binds undeclared parameter '" ++
        param ++ "'")
    else none
  | some (.output task output) => m.outputProblem? n task output
  | some (.literal _) => none
  | none =>
    if i.defaultValue.isNone then
      some ("node '" ++ n.id ++ "' input '" ++ i.name ++ "' has neither binding nor default")
    else none

def clauseProblem? (m : Manifest) (n : ManifestNode) (c : ConditionClause) : Option String :=
  match c.gate with
  | .param param =>
    if (m.parameter? param).isNone then
      some ("node '" ++ n.id ++ "' condition reads undeclared parameter '" ++ param ++ "'")
    else none
  | .output task output => m.outputProblem? n task output

def referencesProblem? (m : Manifest) (n : ManifestNode) : Option String :=
  firstProblem? (m.inputProblem? n) n.inputs <|>
    firstProblem? (m.clauseProblem? n) n.condition.clauses

def cycleProblem? (m : Manifest) : Option String :=
  match m.graph.validateAcyclic with
  | .error f => some f.message
  | .ok () => none

/-- The first problem of a manifest. -/
def problem? (m : Manifest) : Option String :=
  if m.apiVersion ≠ manifestVersion then
    some ("unsupported api_version '" ++ m.apiVersion ++ "' (expected '" ++ manifestVersion ++ "')")
  else if m.nodes.isEmpty then some "manifest has no nodes"
  else
    namesProblem? [] m.nodes <|> firstProblem? parameterProblem? m.parameters <|>
      firstProblem? m.edgeProblem? m.edges <|> firstProblem? m.referencesProblem? m.nodes <|>
      m.cycleProblem?

def validate (m : Manifest) : Outcome Unit :=
  match m.problem? with
  | some reason => .error (.invalidManifest reason)
  | none => .ok ()

end Workflow.Manifest
