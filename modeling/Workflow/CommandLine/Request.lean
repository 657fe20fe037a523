import Workflow.CommandLine.Usage
import Workflow.Manifest.Text
import Workflow.Orchestrator.Submission

/-!
# What a command line asks for

The commands with their arguments, and the request that a command line makes.
-/
namespace Workflow.CommandLine

inductive GraphFormat where
  | text
  | dot
  | mermaid
  deriving DecidableEq, Repr

/-- A run to be submitted: of a pipeline file, a manifest file or a stored manifest. -/
structure RunRequest where
  pipeline : String
  manifest : Option String
  reference : Option String
  experiment : String
  description : Option String
  runName : Option String
  params : List String
  deriving DecidableEq, Repr

inductive Request where
  | compile (pipeline : String) (output : Option String) (format : TextFormat) (store : Bool)
  | validate (pipeline : String)
  | graph (pipeline : String) (manifest : Option String) (format : GraphFormat)
  | run (r : RunRequest)
  | status (run : String) (asJson : Bool)
  | runs (experiment : Option String)
  | storeStats
  | storeClear (yes : Bool)
  | storeList
  deriving Repr

structure Call where
  request : Request
  verbose : Bool
  directory : Option String
  config : Option String
  stateDirectory : Option String
  workers : Option Nat
  deriving Repr

/-! ## The commands -/

open ArgumentSpec

def sharedArguments : List ArgumentSpec :=
  [switch "help" (some 'h'), switch "verbose" (some 'v'), option "directory" (some 'C') .path,
    { option "config" none .path with fallback := some "DAGFLOW_CONFIG" },
    { option "state-dir" none .path with fallback := some "DAGFLOW_STATE_DIR" },
    { option "workers" none .count with fallback := some "DAGFLOW_WORKERS" }]

def pipelinePlace : ArgumentSpec := option "pipeline" none .path

def runPlace : ArgumentSpec := { option "run-id" none .text with required := true }

def leaf (name : String) (options places : List ArgumentSpec) : CommandSpec :=
  .mk name (sharedArguments ++ options) places [] []

def compileCommand : CommandSpec :=
  leaf "compile"
    [option "output" (some 'o') .path, option "format" (some 'f') (.choice ["json", "yaml"]),
      switch "store" none] [pipelinePlace]

def graphCommand : CommandSpec :=
  .mk "graph"
    (sharedArguments ++ [option "manifest" (some 'm') .path,
      option "format" (some 'f') (.choice ["text", "dot", "mermaid"])])
    [pipelinePlace] [("manifest", "pipeline")] []

def runCommand : CommandSpec :=
  .mk "run"
    (sharedArguments ++ [option "manifest" (some 'm') .path, option "ref" none .text,
      option "experiment" (some 'e') .text, option "experiment-description" none .text,
      option "run-name" (some 'n') .text,
      { option "param" (some 'p') .text with repeatable := true }])
    [pipelinePlace] [("manifest", "ref")] []

def manifestsCommand : CommandSpec :=
  .mk "manifests" sharedArguments [] []
    [leaf "stats" [] [], leaf "clear" [switch "yes" (some 'y')] [], leaf "list" [] []]

def program : CommandSpec :=
  .mk "dagflow" (switch "version" (some 'V') :: sharedArguments) [] []
    [compileCommand, leaf "validate" [] [pipelinePlace], graphCommand, runCommand,
      leaf "status" [option "format" (some 'f') (.choice ["text", "json"])] [runPlace],
      leaf "runs" [option "experiment" (some 'e') .text] [], manifestsCommand]

/-! ## Requests -/

/-- The pipeline file that is taken if none is named. -/
def defaultPipeline : String := "pipeline.yaml"

def requestOf (names : List String) (g : Given) : Request :=
  let pipeline := (g.text? "pipeline").getD defaultPipeline
  match names with
  | ["compile"] =>
    .compile pipeline (g.text? "output") (if g.text? "format" = some "yaml" then .yaml else .json)
      (g.has "store")
  | ["graph"] =>
    let format : GraphFormat :=
      match g.text? "format" with
      | some "dot" => .dot
      | some "mermaid" => .mermaid
      | _ => .text
    .graph pipeline (g.text? "manifest") format
  | ["run"] =>
    .run ⟨pipeline, g.text? "manifest", g.text? "ref",
      (g.text? "experiment").getD defaultExperiment, g.text? "experiment-description",
      g.text? "run-name", g.texts "param"⟩
  | ["status"] => .status ((g.text? "run-id").getD "") (g.text? "format" = some "json")
  | ["runs"] => .runs (g.text? "experiment")
  | ["manifests", "stats"] => .storeStats
  | ["manifests", "clear"] => .storeClear (g.has "yes")
  | ["manifests", "list"] => .storeList
  | _ => .validate pipeline

/-- What a command line asks for. -/
def Call.ofArguments (environment : Dict String) (arguments : List String) :
    Except UsageFault Call := do
  let (names, g) ← readCommands environment (arguments.length + 1) program arguments
  return {
    request := requestOf names g
    verbose := g.has "verbose"
    directory := g.text? "directory"
    config := g.text? "config"
    stateDirectory := g.text? "state-dir"
    workers := (g.text? "workers").bind count? }

end Workflow.CommandLine
