import Workflow.Value.DataType

/-!
# Faults

Everything that can go wrong outside a task body. A fault knows its message, a code, sometimes a
hint, and the task node it points at.
-/
namespace Workflow

inductive Fault where
  | cyclicGraph (cycle : List String)
  | typeMismatch (node input : String) (expected actual : DataType)
  | unboundInput (node input : String)
  | unknownParameter (node parameter : String)
  | unknownOutput (node input task output : String)
  | unknownInput (node input component : String)
  | unknownTask (node task : String)
  | duplicateParameter (parameter : String)
  | emptyPipeline (pipeline : String)
  | invalidQuantity (value reason : String)
  | invalidPipeline (reason : String) (hint : Option String)
  | pipelineNotFound (path : String)
  | precompiledState (reason : String)
  | invalidManifest (reason : String)
  | missingParameter (parameter : String)
  | unexpectedParameter (parameter : String)
  | parameterType (parameter : String) (expected : DataType) (actual : String)
  | manifestNotFound (reference : String)
  | runNotFound (run : String)
  | bodyNotFound (body node : String)
  | duplicateBody (body : String)
  | toolNotFound (tool suggestion : String)
  | trackerError (message : String)
  | cacheError (message : String)
  | fileRead (path cause : String)
  | fileWrite (path cause : String)
  | io (message : String)
  | yaml (message : String)
  | json (message : String)
  | toml (message : String)
  deriving DecidableEq, Repr

namespace Fault

/-- The nodes of a cycle with arrows between them, back to the first. -/
def cycleText : List String → String
  | [] => ""
  | first :: rest => " → ".intercalate (first :: rest) ++ " → " ++ first

def message : Fault → String
  | cyclicGraph cycle => "Cyclic dependency detected: " ++ cycleText cycle
  | typeMismatch node input expected actual =>
    s!"Task '{node}' input '{input}' expects {expected.name} but is bound to {actual.name}"
  | unboundInput node input => s!"Task '{node}' input '{input}' is not bound and has no default"
  | unknownParameter node parameter =>
    s!"Task '{node}' references unknown parameter '{parameter}'"
  | unknownOutput node input task output =>
    s!"Task '{node}' input '{input}' references unknown output '{task}.{output}'"
  | unknownInput node input component =>
    s!"Task '{node}' binds '{input}', which component '{component}' does not declare"
  | unknownTask node task =>
    s!"Task '{node}' references task '{task}', which is not defined before it"
  | duplicateParameter parameter => s!"Parameter '{parameter}' is declared more than once"
  | emptyPipeline pipeline => s!"Pipeline '{pipeline}' has no tasks"
  | invalidQuantity value reason => s!"Invalid resource quantity '{value}': {reason}"
  | invalidPipeline reason _ => s!"Invalid pipeline definition: {reason}"
  | pipelineNotFound path => s!"Pipeline file not found: {path}"
  | precompiledState reason => s!"Pipeline is not in a compilable state: {reason}"
  | invalidManifest reason => s!"Invalid manifest: {reason}"
  | missingParameter parameter => s!"Required parameter '{parameter}' was not supplied"
  | unexpectedParameter parameter => s!"Parameter '{parameter}' is not declared by the pipeline"
  | parameterType parameter expected actual =>
    s!"Parameter '{parameter}' expects {expected.name}, got {actual}"
  | manifestNotFound reference => s!"Manifest '{reference}' not found"
  | runNotFound run => s!"Run '{run}' not found"
  | bodyNotFound body node => s!"No task body registered as '{body}' (needed by task '{node}')"
  | duplicateBody body => s!"A task body named '{body}' is already registered"
  | toolNotFound tool _ => s!"Tool '{tool}' not found"
  | trackerError message => s!"Run tracker error: {message}"
  | cacheError message => s!"Manifest cache error: {message}"
  | fileRead path cause => s!"Failed to read file '{path}': {cause}"
  | fileWrite path cause => s!"Failed to write file '{path}': {cause}"
  | io message => s!"IO error: {message}"
  | yaml message => s!"YAML parsing error: {message}"
  | json message => s!"JSON parsing error: {message}"
  | toml message => s!"TOML parsing error: {message}"

/-- The fault's name among the diagnostic codes. -/
def codeName : Fault → String
  | cyclicGraph .. => "cyclic_graph"
  | typeMismatch .. => "type_mismatch"
  | unboundInput .. => "unbound_input"
  | unknownParameter .. => "unknown_parameter"
  | unknownOutput .. => "unknown_output"
  | unknownInput .. => "unknown_input"
  | unknownTask .. => "unknown_task"
  | duplicateParameter .. => "duplicate_parameter"
  | emptyPipeline .. => "empty_pipeline"
  | invalidQuantity .. => "invalid_quantity"
  | invalidPipeline .. => "invalid_pipeline"
  | pipelineNotFound .. => "pipeline_not_found"
  | precompiledState .. => "precompiled_state"
  | invalidManifest .. => "invalid_manifest"
  | missingParameter .. => "missing_parameter"
  | unexpectedParameter .. => "unexpected_parameter"
  | parameterType .. => "parameter_type"
  | manifestNotFound .. => "manifest_not_found"
  | runNotFound .. => "run_not_found"
  | bodyNotFound .. => "body_not_found"
  | duplicateBody .. => "duplicate_body"
  | toolNotFound .. => "tool_not_found"
  | trackerError .. => "tracker_error"
  | cacheError .. => "cache_error"
  | fileRead .. => "file_read_error"
  | fileWrite .. => "file_write_error"
  | io .. => "io_error"
  | yaml .. => "yaml_error"
  | json .. => "json_error"
  | toml .. => "toml_error"

def code (f : Fault) : String := "dagflow::" ++ f.codeName

/-- What to do about a fault, where a sentence says it. -/
def hint? : Fault → Option String
  | cyclicGraph _ => some "Remove one of the connections between these tasks"
  | unboundInput _ input =>
    some s!"Bind '{input}' to a pipeline parameter, another task's output or a literal"
  | unknownParameter _ parameter => some s!"Declare '{parameter}' in the pipeline parameters"
  | unknownTask .. =>
    some "Tasks can only consume outputs of tasks defined earlier in the pipeline"
  | invalidQuantity .. =>
    some ("Use Kubernetes notation, e.g. cpu \"500m\" or \"2\", " ++
      "memory \"512Mi\" or \"1Gi\"")
  | invalidPipeline _ hint => hint
  | pipelineNotFound _ =>
    some "Pass the path of a pipeline YAML file, or a compiled manifest with --manifest"
  | missingParameter parameter => some s!"Supply it with --param {parameter}=<value>"
  | manifestNotFound _ => some "List stored manifests with 'dagflow manifests list'"
  | toolNotFound _ suggestion => some suggestion
  | _ => none

/-- Is the fault raised while a pipeline is built or sealed? -/
def isBuildFault : Fault → Bool
  | cyclicGraph .. | typeMismatch .. | unboundInput .. | unknownParameter .. | unknownOutput ..
  | unknownInput .. | unknownTask .. | duplicateParameter .. | emptyPipeline .. => true
  | _ => false

def node? : Fault → Option String
  | typeMismatch node .. | unboundInput node _ | unknownParameter node _ | unknownOutput node ..
  | unknownInput node .. | unknownTask node _ | bodyNotFound _ node => some node
  | _ => none

/-- A tool that is not installed. -/
def missingTool (tool : String) : Fault :=
  .toolNotFound tool s!"Install {tool} and ensure it's in your PATH"

end Fault

/-- A result or a fault. -/
abbrev Outcome (α : Type) := Except Fault α

end Workflow
