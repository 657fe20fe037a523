import Workflow.Artifact.Id
import Workflow.Value.Scalar

/-!
# Bindings and conditions

A task input is bound to a parameter, to an output of another task or to a constant. A condition is
a list of clauses that must all hold; a clause compares a gate, which is a parameter or an output,
with an expected value.
-/
namespace Workflow

/-- Where a task input takes its value from. -/
inductive Binding where
  | param (name : String)
  | output (task result : String)
  | literal (value : Scalar)
  deriving DecidableEq, Repr

/-- The value that a condition looks at. -/
inductive GateRef where
  | param (name : String)
  | output (task result : String)
  deriving DecidableEq, Repr

namespace GateRef

/-- The node that makes the gate's value. -/
def producer? : GateRef → Option String
  | output task _ => some task
  | param _ => none

def display : GateRef → String
  | param name => "params." ++ name
  | output task result => task ++ "." ++ result

/-- The artifact in which the gate's value is found. -/
def artifact : GateRef → ArtifactId
  | param name => .param name
  | output task result => .output task result

/-- A parameter if the record has one, otherwise an output. The document is settled. -/
def ofSettled? (d : Document) : Option GateRef :=
  let asParam : Option GateRef := do
    let fields ← d.asMappingFields? ["param"]
    return .param (← Fields.required fields "param" Document.asText?)
  let asOutput : Option GateRef := do
    let fields ← d.asMappingFields? ["task", "output"]
    return .output (← Fields.required fields "task" Document.asText?)
      (← Fields.required fields "output" Document.asText?)
  asParam <|> asOutput

def decode? (d : Document) : Option GateRef := do ofSettled? (← d.settle?)

def encode : GateRef → Document
  | param name => .record [("param", .text name)]
  | output task result => .record [("task", .text task), ("output", .text result)]

end GateRef

namespace Binding

/-- The node that the binding depends on. -/
def producer? : Binding → Option String
  | output task _ => some task
  | _ => none

def ofGate : GateRef → Binding
  | .param p => .param p
  | .output t o => .output t o

def display : Binding → String
  | param name => "params." ++ name
  | output task result => task ++ "." ++ result
  | literal value => value.display

/-- A reference if it can be one, otherwise a constant. -/
def decode? (d : Document) : Option Binding := do
  let d ← d.settle?
  match GateRef.ofSettled? d with
  | some reference => return ofGate reference
  | none => return .literal (← Scalar.decode? d)

def encode : Binding → Document
  | param name => (GateRef.param name).encode
  | output task result => (GateRef.output task result).encode
  | literal value => value.encode

end Binding

/-- The gate must equal the expected value. -/
structure ConditionClause where
  gate : GateRef
  equals : Scalar
  deriving DecidableEq, Repr

namespace ConditionClause

def display (c : ConditionClause) : String := c.gate.display ++ " == " ++ c.equals.display

def decode? (d : Document) : Option ConditionClause := do
  let fields ← d.asFields? ["gate", "equals"]
  let gate ← Fields.required fields "gate" GateRef.decode?
  let equals ← Fields.required fields "equals" Scalar.decode?
  return ⟨gate, equals⟩

def encode (c : ConditionClause) : Document :=
  .record [("gate", c.gate.encode), ("equals", c.equals.encode)]

end ConditionClause

/-- All clauses must hold. -/
structure Condition where
  clauses : List ConditionClause
  deriving DecidableEq, Repr

namespace Condition

def always : Condition := ⟨[]⟩

instance : Inhabited Condition := ⟨always⟩

def isEmpty (c : Condition) : Bool := c.clauses.isEmpty

/-- The nodes whose outputs the condition reads. -/
def producers (c : Condition) : List String :=
  c.clauses.filterMap fun clause => clause.gate.producer?

def display (c : Condition) : String := " && ".intercalate (c.clauses.map (·.display))

def decode? (d : Document) : Option Condition := do
  let fields ← d.asFields? ["all"]
  return ⟨← Fields.required fields "all" (Document.asList? ConditionClause.decode?)⟩

def encode (c : Condition) : Document :=
  .record [("all", .sequence (c.clauses.map (·.encode)))]

end Condition
end Workflow
