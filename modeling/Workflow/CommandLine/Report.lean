import Workflow.Fault.Recovery
import Workflow.Pipeline.Diagnosis
import Workflow.Pipeline.File
import Workflow.Run.Record
import Workflow.Store.Basic

/-!
# Reports

The texts that the commands show. Every text ends with the end of a line.
-/
namespace Workflow.CommandLine.Report

/-- Lines with their ends. -/
def lines (texts : List String) : String := String.join (texts.map (· ++ "\n"))

/-- A title and a rule below it, of forty signs at least and one for every byte of the title. -/
def header (title : String) : String :=
  lines [title, String.ofList (List.replicate (max title.utf8ByteSize 40) '═')]

def success (text : String) : String := "✓ " ++ text

/-! ## Runs -/

def marker : NodeStatus → String
  | .succeeded => "✓"
  | .failed => "✗"
  | .skipped => "○"
  | .running => "→"
  | .pending | .ready => "·"

/-- A node with its reason, and its outputs in full. -/
def node (verbose : Bool) (id : String) (n : NodeState) : List String :=
  let reason := (n.reason.map (" - " ++ ·)).getD ""
  (s!"  {marker n.status} {id} {n.status.name}" ++ reason) ::
    (if verbose then n.outputs.entries.map fun (name, v) => s!"      {name} = {v.display}" else [])

def run (verbose : Bool) (r : Run) : String :=
  let details :=
    if verbose then
      ("  Manifest: " ++ r.manifest) ::
        r.params.entries.map fun (name, v) => s!"  Param:    {name} = {v.display}"
    else []
  "\n" ++ header s!"Run {r.name} ({r.id})" ++
    lines (["  Pipeline: " ++ r.pipeline, "  Status:   " ++ r.status.name] ++ details ++ [""] ++
      r.nodes.entries.flatMap fun (id, n) => node verbose id n)

def padded (width : Nat) (s : String) : String :=
  s ++ String.ofList (List.replicate (width - s.length) ' ')

/-- One run of a list, with the name of its experiment. -/
def runRow (experiment : String) (r : Run) : String :=
  let counts := s!"{r.count .succeeded}/{r.nodes.size} succeeded"
  let time := r.createdAt.dateText ++ " " ++ r.createdAt.clockText
  s!"  {r.id}  {padded 10 r.status.name} {r.name} [{experiment}] {counts}  {time}"

def runs (names : List (String × String)) (rs : List Run) : String :=
  header "Runs" ++
    if rs.isEmpty then lines ["  No runs recorded."]
    else lines (rs.map fun r => runRow ((names.lookup r.experiment).getD "?") r)

/-! ## Stored manifests -/

/-- A duration in the largest unit of which it has one. -/
def duration (seconds : Nat) : String :=
  if seconds < 60 then s!"{seconds}s"
  else if seconds < 3600 then s!"{seconds / 60}m"
  else if seconds < 86400 then s!"{seconds / 3600}h"
  else s!"{seconds / 86400}d"

/-- How long ago something was, unless it is still to come. -/
def age? (now t : Instant) : Option String :=
  if now.before t then none
  else
    let seconds := now.seconds - t.seconds - (if now.nanos < t.nanos then 1 else 0)
    some (duration seconds.toNat ++ " ago")

def storedManifests (now : Instant) (entries : List StoredManifest) : String :=
  header "Stored Manifests" ++
    if entries.isEmpty then
      lines ["  No stored manifests.", "", "  Run 'dagflow compile --store' to add one."]
    else
      lines (entries.map fun e =>
        s!"  {e.digest}  {e.pipeline} ({e.nodes} nodes)  " ++ (age? now e.storedAt).getD "")

def storeStats (now : Instant) (place : String) (s : StoreStats) : String :=
  let shown (label : String) (t : Option Instant) : List String :=
    ((t.bind (age? now)).map (label ++ ·)).toList
  header "Manifest Store" ++
    lines ([s!"  Location: {place}", s!"  Entries:  {s.entries}",
        "  Size:     " ++ sizeText s.sizeBytes] ++
      shown "  Oldest:   " s.oldest ++ shown "  Newest:   " s.newest)

/-! ## Validation -/

/-- A pipeline with its tasks and their conditions. -/
def summary (f : PipelineFile) (b : Builder) : List String :=
  let condition (n : TaskNode) : String :=
    if n.condition.clauses.isEmpty then "" else " [if " ++ n.condition.display ++ "]"
  ["", "Pipeline summary:", "  Name: " ++ f.name, s!"  Parameters: {f.parameters.length}",
      s!"  Tasks: {b.nodes.length}"] ++
    b.nodes.map fun n => s!"    - {n.id} ({n.definition.name})" ++ condition n

/-- What validation has found, without the verdict. -/
def findings (d : Diagnosis) : List String :=
  (if d.faults.isEmpty then []
    else ["", "Errors:"] ++ d.faults.map fun f => "  ✗ " ++ f.message) ++
  (if d.warnings.isEmpty then []
    else ["", "Warnings:"] ++ d.warnings.map ("  ⚠ " ++ ·))

end Workflow.CommandLine.Report
