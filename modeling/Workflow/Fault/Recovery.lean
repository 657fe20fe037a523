import Workflow.Fault.Basic

/-!
# Suggestions for recovery

Some faults come with advice: what to do, the steps in detail and commands to run.
-/
namespace Workflow

structure Suggestion where
  action : String
  steps : List String
  commands : List String
  deriving DecidableEq, Repr

namespace Suggestion

def installTool (tool : String) : Suggestion where
  action := s!"Install {tool}"
  steps :=
    [s!"Shell task bodies run through '{tool}'",
     s!"Install {tool} and ensure it's in your PATH",
     "Or set `shell:` on the component to an interpreter you have"]
  commands := []

def breakCycle (cycle : List String) : Suggestion where
  action := "Remove circular dependency"
  steps :=
    ["Detected cycle: " ++ " → ".intercalate (cycle ++ cycle.take 1),
     "A task cannot consume, directly or transitively, its own output",
     "Rebind one input in the cycle to a parameter or an upstream task"]
  commands := ["# Visualize your pipeline:", "dagflow graph --format mermaid"]

def bindInput (node input : String) : Suggestion where
  action := s!"Bind input '{input}' of task '{node}'"
  steps :=
    ["Every input without a default must be bound to one of:",
     "  • a pipeline parameter:   \x7b param: <name> \x7d",
     "  • another task's output:  \x7b task: <task>, output: <name> \x7d",
     "  • a literal value:        0.2, true, \"text\"",
     "Alternatively give the input a default in its component"]
  commands := []

/-- An input called `condition` stands for the expected value of a condition. -/
def fixBindingType (node input : String) (expected actual : DataType) : Suggestion where
  action := s!"Fix the type of '{node}.{input}'"
  steps :=
    s!"'{node}.{input}' is declared as {expected.name} but receives {actual.name}" ::
    (if input = "condition" then
      ["The expected value of a condition must have the gate's type"]
    else
      "Bind the input to an output or parameter of the declared type" ::
        (if expected = .float then ["Only int values widen to float implicitly"] else []))
  commands := []

def declareParameter (parameter : String) : Suggestion where
  action := s!"Declare or supply parameter '{parameter}'"
  steps :=
    ["Add it to the pipeline's `parameters:` list with a type",
     "Give it a default, or pass it when submitting"]
  commands := [s!"dagflow run --param {parameter}=<value>"]

def createPipeline : Suggestion where
  action := "Create a pipeline definition"
  steps :=
    ["No pipeline.yaml found in current directory",
     "Pass a path explicitly, or run a compiled manifest"]
  commands :=
    ["dagflow validate path/to/pipeline.yaml", "dagflow run --manifest manifest.json"]

/-- The suggestion as lines, each ended by a line break. -/
def text (s : Suggestion) : String :=
  let line (indent l : String) : String := indent ++ l ++ "\n"
  line "→ " s.action ++ String.join (s.steps.map (line "  ")) ++
    (if s.commands.isEmpty then "" else "\n" ++ String.join (s.commands.map (line "  ")))

end Suggestion

def Fault.suggestion? : Fault → Option Suggestion
  | cyclicGraph cycle => some (.breakCycle cycle)
  | unboundInput node input => some (.bindInput node input)
  | typeMismatch node input expected actual => some (.fixBindingType node input expected actual)
  | unknownParameter _ parameter | missingParameter parameter => some (.declareParameter parameter)
  | pipelineNotFound _ => some .createPipeline
  | toolNotFound tool _ => some (.installTool tool)
  | _ => none

end Workflow
