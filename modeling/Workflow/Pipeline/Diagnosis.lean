import Workflow.Graph.Cycle
import Workflow.Pipeline.Builder

/-!
# Diagnosis of pipelines

All faults of a pipeline under construction, in the order in which they are reported: those kept
while building, dangling references, a cycle, type mismatches, unbound inputs. Warnings are about
things that are allowed but look wrong.
-/
namespace Workflow

/-- The faults and warnings of a pipeline. -/
structure Diagnosis where
  faults : List Fault
  warnings : List String
  deriving DecidableEq, Repr

namespace Diagnosis

/-- A reference to an output must name a task and one of its outputs. -/
def outputFault? (b : Builder) (n : TaskNode) (input task output : String) : Option Fault :=
  if ¬ b.takes task then some (.unknownTask n.id task)
  else if (b.registry.output? task output).isNone then some (.unknownOutput n.id input task output)
  else none

/-- The faults of a reference; `input` is the place where it stands. -/
def referenceFault? (b : Builder) (n : TaskNode) (input : String) : GateRef → Option Fault
  | .param name =>
    if (b.registry.param? name).isNone then some (.unknownParameter n.id name) else none
  | .output task output => outputFault? b n input task output

/-- A binding must be of a declared input and must point at something. -/
def bindingFaults (b : Builder) (n : TaskNode) (input : String) (binding : Binding) : List Fault :=
  (if (n.definition.input? input).isNone then
    [.unknownInput n.id input n.definition.name] else []) ++
  (match binding with
    | .param name => (referenceFault? b n input (.param name)).toList
    | .output task output => (referenceFault? b n input (.output task output)).toList
    | .literal _ => [])

/-- The place at which conditions stand in messages. -/
def conditionPlace : String := "condition"

/-- Bindings and gates that point at nothing. -/
def danglingFaults (b : Builder) (n : TaskNode) : List Fault :=
  (n.bindings.entries.flatMap fun e => bindingFaults b n e.1 e.2) ++
  (n.condition.clauses.filterMap fun c => referenceFault? b n conditionPlace c.gate)

/-- The graph of the nodes and what they read from. -/
def graph (b : Builder) : TaskGraph :=
  .ofEdges (b.nodes.map (·.id)) (b.nodes.flatMap fun n => n.dependencies.map fun d => (d, n.id))

def cycleFaults (b : Builder) : List Fault :=
  match (graph b).validateAcyclic with
  | .error f => [f]
  | .ok () => []

/-- The declared type of what a reference points at. -/
def referenceType? (b : Builder) : GateRef → Option DataType
  | .param name => (b.registry.param? name).map (·.dataType)
  | .output task output => (b.registry.output? task output).map (·.dataType)

def bindingType? (b : Builder) : Binding → Option DataType
  | .param name => referenceType? b (.param name)
  | .output task output => referenceType? b (.output task output)
  | .literal value => some value.dataType

/-- The type of a binding must be accepted by its input. -/
def bindingTypeFault? (b : Builder) (n : TaskNode) (input : String) (binding : Binding) :
    Option Fault := do
  let spec ← n.definition.input? input
  let actual ← bindingType? b binding
  if spec.dataType.accepts actual then none
  else some (.typeMismatch n.id input spec.dataType actual)

/-- A gate must be a scalar whose type accepts the expected value. -/
def clauseTypeFault? (b : Builder) (n : TaskNode) (c : ConditionClause) : Option Fault := do
  let gate ← referenceType? b c.gate
  let expected := c.equals.dataType
  if gate.isArtifact || ¬ gate.accepts expected then
    some (.typeMismatch n.id conditionPlace gate expected)
  else none

def typeFaults (b : Builder) (n : TaskNode) : List Fault :=
  (n.bindings.entries.filterMap fun e => bindingTypeFault? b n e.1 e.2) ++
  (n.condition.clauses.filterMap (clauseTypeFault? b n))

/-- Inputs without a binding and without a default. -/
def unboundFaults (n : TaskNode) : List Fault :=
  n.definition.inputs.filterMap fun i =>
    if i.defaultValue.isNone && ¬ n.bindings.contains i.name then some (.unboundInput n.id i.name)
    else none

/-- The parameters that a node reads. -/
def readParams (n : TaskNode) : List String :=
  (n.bindings.values.filterMap fun
    | .param name => some name
    | _ => none) ++
  (n.condition.clauses.filterMap fun c =>
    match c.gate with
    | .param name => some name
    | _ => none)

def unusedWarnings (b : Builder) : List String :=
  let used := b.nodes.flatMap readParams
  b.params.filterMap fun p =>
    if used.contains p.name then none else some ("Parameter '" ++ p.name ++ "' is never used")

def resourceWarnings (b : Builder) : List String :=
  b.nodes.flatMap fun n => n.resources.warnings.map fun w => "Task '" ++ n.id ++ "': " ++ w

/-- Components of one name whose bodies differ in kind. -/
def bodyWarnings (b : Builder) : List String :=
  (sortedTexts (b.nodes.map (·.definition.name))).filterMap fun component =>
    let bodies := sortedTexts ((b.nodes.filter fun n => n.definition.name = component).map
      (·.definition.body.describe))
    if 1 < bodies.length then
      some ("Component '" ++ component ++ "' is used with " ++ toString bodies.length ++
        " different bodies")
    else none

end Diagnosis

/-- Everything there is to say about a pipeline under construction. -/
def Builder.diagnose (b : Builder) : Diagnosis :=
  if b.nodes.isEmpty then ⟨b.deferred ++ [.emptyPipeline b.name], []⟩
  else
    { faults := b.deferred ++ b.nodes.flatMap (Diagnosis.danglingFaults b) ++
        Diagnosis.cycleFaults b ++ b.nodes.flatMap (Diagnosis.typeFaults b) ++
        b.nodes.flatMap Diagnosis.unboundFaults
      warnings := Diagnosis.unusedWarnings b ++ Diagnosis.resourceWarnings b ++
        Diagnosis.bodyWarnings b }

end Workflow
