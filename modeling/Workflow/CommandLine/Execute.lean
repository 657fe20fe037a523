import Workflow.CommandLine.Parameter
import Workflow.CommandLine.Report
import Workflow.CommandLine.Request
import Workflow.Config
import Workflow.Manifest.Compile
import Workflow.Manifest.Render
import Workflow.Orchestrator.Timeline
import Workflow.Pipeline.Text
import Workflow.Store.Files
import Workflow.Task.Registry
import Workflow.Task.ShellTask
import Workflow.Tracker.Files

/-!
# Carrying out requests

A request is carried out on a file tree, with a text to read from and two to write to. Runs and
stored manifests are kept in the state directory, and bodies are shell commands.
-/
namespace Workflow.CommandLine

/-- Why a request could not be carried out. -/
inductive Failure where
  | fault (f : Fault)
  /-- A failure that is only a text. -/
  | report (message : String)

/-- The files, and the texts that are read and written. -/
structure Terminal where
  disk : FileTracker.Disk
  input : String
  output : String
  errors : String

abbrev Console (α : Type) := ExceptT Failure (StateM Terminal) α

/-- What a request finds around it. -/
structure Surroundings where
  /-- Ids for what may be made, and the time. -/
  stamp : Stamp
  environment : Dict String
  /-- The directory of the user's settings. -/
  userDirectory : String
  /-- How many bodies may run at once, if that is not set. -/
  workers : Nat

namespace Console

def print (text : String) : Console Unit :=
  modify fun t => { t with output := t.output ++ text }

def printLine (text : String) : Console Unit := print (text ++ "\n")

def printError (text : String) : Console Unit :=
  modify fun t => { t with errors := t.errors ++ text ++ "\n" }

/-- A value, or the fault as a failure. -/
def orFail {α : Type} (o : Outcome α) : Console α :=
  match o with
  | .ok a => return a
  | .error f => throw (.fault f)

def files : Console FileTree := do return (← get).disk.tree

def setFiles (tree : FileTree) : Console Unit :=
  modify fun t => { t with disk := { t.disk with tree } }

def onDisk {α : Type} (operation : Stateful FileTracker.Disk α) : Console α := do
  let t ← get
  let (result, disk) := operation.run.run t.disk
  set { t with disk }
  orFail result

/-- A program of file steps that prepares something. -/
def prepare (program : FileProgram (Outcome Unit)) : Console Unit := do
  let (result, tree) := program.run (← files)
  setFiles tree
  orFail result

def readLine : Console String := do
  let t ← get
  let line := t.input.toList.takeWhile (· ≠ '\n')
  set { t with input := (t.input.drop (line.length + 1)).toString }
  return String.ofList line

end Console

open Console

/-! ## What the commands work with -/

def trackerOf (c : Config) : Console FileTracker := do
  let t : FileTracker := ⟨Path.join c.stateDir "tracker"⟩
  prepare t.prepare
  return t

def storeOf (c : Config) : Console FileStore := do
  let s : FileStore := ⟨Path.join c.stateDir "manifests"⟩
  prepare s.prepare
  return s

/-- The manifest of a pipeline file, or a compiled one. -/
def loadManifest (pipeline : String) (manifest : Option String) : Console Manifest := do
  match manifest with
  | some path => orFail (Manifest.ofFile (← files) path)
  | none =>
    let file ← orFail (PipelineFile.ofFile (← files) pipeline)
    orFail (do (← file.build).compile)

/-- Make the directory of a node's artifacts, if it has any, and carry out its command. -/
def invokeShell (environment : Dict String) (root : ArtifactRoot) (i : Workflow.Invocation) :
    StateM FileTracker.Disk (Nat × Ending) := do
  let disk ← get
  let directory := root.nodeDirectory i.context.run i.context.node
  let prepared :=
    if i.context.locations.isEmpty then .ok disk.tree else disk.tree.makeDirectories directory
  match prepared, i.body with
  | .error e, _ =>
    return (0, .failed ("failed to create artifact directory " ++ directory ++ ": " ++ e.message))
  | .ok _, .registered _ => return (0, .returned Dict.empty)
  | .ok tree, .shell command interpreter own =>
    let own := Dict.ofList (environment.entries ++ own.entries)
    let r := ShellTask.run command interpreter own i.context tree
    set { disk with tree := r.files }
    return (r.millis, r.ending)

/-- How runs are executed: on disk, with shell commands only. -/
def engineOf (s : Surroundings) (c : Config) (cwd : String) (tracker : FileTracker)
    (store : FileStore) : Engine FileTracker.Disk :=
  let bodies : BodyRegistry Unit := .empty
  let root := ArtifactRoot.resolve cwd c.artifactRoot
  { services := ⟨tracker.tracker, store.store,
      bodies.check fun interpreter => (installedShell? interpreter).isSome⟩
    workers := (c.workerCount?).getD s.workers
    grace := c.grace
    resolveBody := bodies.resolve
    location := root.location
    invoke := invokeShell s.environment root
    origin := s.stamp.now }

/-! ## The commands -/

def compile (s : Surroundings) (c : Config) (verbose : Bool) (pipeline : String)
    (output : Option String) (format : TextFormat) (store : Bool) : Console Unit := do
  let m ← loadManifest pipeline none
  match output with
  | none => printLine (m.text format)
  | some path =>
    match (← files).write path (m.text format) with
    | .error e => throw (.fault (.fileWrite path e.message))
    | .ok tree =>
      setFiles tree
      printError (Report.success s!"Compiled '{m.name}' ({m.nodes.length} nodes) to {path}")
  if store then
    let digest ← onDisk ((← storeOf c).store.store m s.stamp.now)
    printError (Report.success ("Stored manifest " ++ digest))
  else if verbose then printError ("  Digest: " ++ m.digest)

def validate (verbose : Bool) (pipeline : String) : Console Unit := do
  print "Validating pipeline...\n\n"
  match PipelineFile.ofFile (← files) pipeline with
  | .error f =>
    printError "  ✗ Failed to load pipeline"
    if let some suggestion := f.suggestion? then printError ("\n" ++ suggestion.text)
    throw (.fault f)
  | .ok file =>
    printLine "  ✓ Pipeline file is valid YAML"
    let b ← orFail file.toBuilder
    let d := b.diagnose
    let summary := if verbose then Report.summary file b else []
    print (Report.lines (Report.findings d ++ summary ++ [""]))
    if d.faults.isEmpty then
      printLine (if d.warnings.isEmpty then "Pipeline is valid!"
        else "Pipeline is valid but has warnings.")
    else
      if let .error first := b.seal then
        if let some suggestion := first.suggestion? then printLine suggestion.text
      throw (.report "Pipeline validation failed")

def graph (pipeline : String) (manifest : Option String) (format : GraphFormat) :
    Console Unit := do
  let m ← loadManifest pipeline manifest
  match format with
  | .text => printLine (← orFail m.renderText)
  | .dot => printLine m.renderDot
  | .mermaid => printLine m.renderMermaid

/-- What an operation on runs gives; what it did to the disk stays, also if it failed. It never has
to wait for others than itself. -/
def onTimeline {α : Type} (result : Option (Outcome α × Timeline FileTracker.Disk)) :
    Console (α × Timeline FileTracker.Disk) := do
  match result with
  | none => throw (.report "the run cannot go on")
  | some (outcome, t) =>
    modify fun terminal => { terminal with disk := t.orchestrator.state }
    return (← orFail outcome, t)

/-- Submit a run and wait for it to finish. -/
def run (s : Surroundings) (c : Config) (verbose : Bool) (r : RunRequest) : Console Unit := do
  let params ← match readParameters r.params with
    | .ok params => pure params
    | .error flaw => throw (.report flaw.message)
  let tracker ← trackerOf c
  let store ← storeOf c
  let (source, pipeline) ← match r.reference with
    | some digest => do
      let m ← onDisk (store.store.fetch digest)
      pure (ManifestSource.stored digest, m.name)
    | none => do
      let m ← loadManifest r.pipeline r.manifest
      pure (ManifestSource.inline m, m.name)
  if r.description.isSome then
    let _ ← onDisk (tracker.tracker.getOrCreateExperiment r.experiment r.description
      s.stamp.experiment s.stamp.now)
  let e := engineOf s c (← files).cwd tracker store
  let request : Submission := ⟨source, r.experiment, r.runName.getD (pipeline ++ "-run"), params⟩
  let t : Timeline FileTracker.Disk := ⟨⟨(← get).disk, Dict.empty⟩, 0⟩
  let (id, t) ← onTimeline (t.submit e s.stamp request)
  printLine (Report.success ("Submitted run " ++ id))
  let (finished, _) ← onTimeline (t.wait e id)
  print (Report.run verbose finished)

def status (c : Config) (verbose : Bool) (id : String) (asJson : Bool) : Console Unit := do
  let tracker ← trackerOf c
  let r ← onDisk (tracker.tracker.run id)
  if asJson then printLine (Json.pretty r.encode) else print (Report.run verbose r)

def runs (c : Config) (experiment : Option String) : Console Unit := do
  let tracker := (← trackerOf c).tracker
  let chosen ← match experiment with
    | none => pure none
    | some name => do
      match ← onDisk (tracker.experiment? name) with
      | some e => pure (some (some e.id))
      | none =>
        printLine s!"No experiment named '{name}'."
        return
  let names := (← onDisk tracker.experiments).map fun e => (e.id, e.name)
  let rs ← onDisk (tracker.runs chosen.join)
  print (Report.runs names.reverse rs)

def storeStats (s : Surroundings) (c : Config) : Console Unit := do
  let store ← storeOf c
  let stats ← onDisk store.store.stats
  print (Report.storeStats s.stamp.now store.root stats)

/-- Remove all stored manifests, if the user agrees. -/
def storeClear (c : Config) (yes : Bool) : Console Unit := do
  let store := (← storeOf c).store
  let stats ← onDisk store.stats
  if stats.entries = 0 then
    printLine "Manifest store is already empty."
    return
  if ! yes then
    print s!"Remove {stats.entries} manifests ({sizeText stats.sizeBytes})? [y/N] "
    let answer := trimText (← readLine)
    if answer ≠ "y" && answer ≠ "Y" then
      printLine "Cancelled."
      return
  onDisk store.clear
  printLine "Manifest store cleared."

def storeList (s : Surroundings) (c : Config) : Console Unit := do
  let store ← storeOf c
  print (Report.storedManifests s.stamp.now (← onDisk store.store.list))

/-! ## Calls -/

/-- Go to another directory. -/
def changeDirectory (path : String) : Console Unit := do
  let tree ← files
  if tree.isDirectory path then
    setFiles { tree with cwd := Path.absolute tree.cwd path }
  else
    let e :=
      match tree.read path with
      | .ok _ => FileError.notDirectory
      | .error e => e
    throw (.report s!"Failed to change to directory '{path}': {e.message}")

def Call.perform (s : Surroundings) (call : Call) : Console Unit := do
  call.directory.forM changeDirectory
  let c ← orFail (Config.load (← files) call.config s.userDirectory)
  let c := c.withOverrides call.stateDirectory call.workers
  match call.request with
  | .compile pipeline output format store => compile s c call.verbose pipeline output format store
  | .validate pipeline => validate call.verbose pipeline
  | .graph pipeline manifest format => graph pipeline manifest format
  | .run r => run s c call.verbose r
  | .status id asJson => status c call.verbose id asJson
  | .runs experiment => runs c experiment
  | .storeStats => storeStats s c
  | .storeClear yes => storeClear c yes
  | .storeList => storeList s c

structure Reply where
  result : Except Failure Unit
  terminal : Terminal

/-- Read a command line and carry it out. -/
def execute (s : Surroundings) (disk : FileTracker.Disk) (input : String)
    (arguments : List String) : Except UsageFault Reply := do
  let call ← Call.ofArguments s.environment arguments
  let (result, terminal) := (call.perform s).run.run ⟨disk, input, "", ""⟩
  return ⟨result, terminal⟩

end Workflow.CommandLine
