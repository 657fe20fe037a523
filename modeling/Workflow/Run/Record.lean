import Workflow.Time.Instant
import Workflow.Value.Basic

/-!
# Records of runs

What a tracker keeps: experiments, runs, and the state of every node of a run.
-/
namespace Workflow

/-- A named group of runs. -/
structure Experiment where
  id : String
  name : String
  description : Option String
  createdAt : Instant
  deriving DecidableEq, Repr

inductive RunStatus where
  | pending
  | running
  | succeeded
  | failed
  | cancelled
  deriving DecidableEq, Repr

namespace RunStatus

def all : List RunStatus := [pending, running, succeeded, failed, cancelled]

def name : RunStatus → String
  | pending => "pending"
  | running => "running"
  | succeeded => "succeeded"
  | failed => "failed"
  | cancelled => "cancelled"

def isTerminal : RunStatus → Bool
  | succeeded | failed | cancelled => true
  | _ => false

def ofName? (name : String) : Option RunStatus := all.find? fun s => s.name == name

def decode? (d : Document) : Option RunStatus := d.asName?.bind ofName?

def encode (s : RunStatus) : Document := .text s.name

end RunStatus

inductive NodeStatus where
  | pending
  | ready
  | running
  | succeeded
  | failed
  | skipped
  deriving DecidableEq, Repr

namespace NodeStatus

def all : List NodeStatus := [pending, ready, running, succeeded, failed, skipped]

def name : NodeStatus → String
  | pending => "pending"
  | ready => "ready"
  | running => "running"
  | succeeded => "succeeded"
  | failed => "failed"
  | skipped => "skipped"

def isTerminal : NodeStatus → Bool
  | succeeded | failed | skipped => true
  | _ => false

def ofName? (name : String) : Option NodeStatus := all.find? fun s => s.name == name

def decode? (d : Document) : Option NodeStatus := d.asName?.bind ofName?

def encode (s : NodeStatus) : Document := .text s.name

end NodeStatus

/-- The recorded state of a node. -/
structure NodeState where
  status : NodeStatus
  /-- Skipped because the run was cancelled. -/
  cancelled : Bool
  reason : Option String
  startedAt : Option Instant
  finishedAt : Option Instant
  outputs : Dict Value
  deriving DecidableEq, Repr

namespace NodeState

def ofStatus (status : NodeStatus) : NodeState := ⟨status, false, none, none, none, Dict.empty⟩

def pending : NodeState := ofStatus .pending

instance : Inhabited NodeState := ⟨pending⟩

def decode? (d : Document) : Option NodeState := do
  let fields ← d.asFields?
    ["status", "cancelled", "reason", "started_at", "finished_at", "outputs"]
  let status ← Fields.required fields "status" NodeStatus.decode?
  let cancelled ← Fields.defaulted fields "cancelled" false Document.asBool?
  let reason ← Fields.optional fields "reason" Document.asText?
  let startedAt ← Fields.optional fields "started_at" Instant.decode?
  let finishedAt ← Fields.optional fields "finished_at" Instant.decode?
  let outputs ← Fields.defaulted fields "outputs" Dict.empty (Document.asDict? Value.decode?)
  return ⟨status, cancelled, reason, startedAt, finishedAt, outputs⟩

def encode (n : NodeState) : Document :=
  .record ([("status", n.status.encode)] ++
    (if n.cancelled then [("cancelled", .bool true)] else []) ++
    Document.optionalField "reason" Document.text n.reason ++
    Document.optionalField "started_at" Instant.encode n.startedAt ++
    Document.optionalField "finished_at" Instant.encode n.finishedAt ++
    (if n.outputs.isEmpty then [] else [("outputs", .ofDict Value.encode n.outputs)]))

end NodeState

/-- One execution of a manifest. -/
structure Run where
  id : String
  name : String
  experiment : String
  pipeline : String
  /-- The digest of the manifest. -/
  manifest : String
  /-- The parameters after defaults and coercion. -/
  params : Dict Scalar
  status : RunStatus
  nodes : Dict NodeState
  idempotencyKey : String
  createdAt : Instant
  finishedAt : Option Instant
  deriving DecidableEq, Repr

namespace Run

/-- A run that is about to begin: every node is pending. -/
def begin (id name experiment pipeline manifest : String) (params : Dict Scalar) (key : String)
    (nodes : List String) (now : Instant) : Run where
  id := id
  name := name
  experiment := experiment
  pipeline := pipeline
  manifest := manifest
  params := params
  status := .pending
  nodes := Dict.ofList (nodes.map fun n => (n, .pending))
  idempotencyKey := key
  createdAt := now
  finishedAt := none

def node? (r : Run) (id : String) : Option NodeState := r.nodes.get? id

def nodeStatus? (r : Run) (id : String) : Option NodeStatus := (r.node? id).map (·.status)

def count (r : Run) (status : NodeStatus) : Nat :=
  (r.nodes.values.filter fun n => n.status = status).length

def finishedNodes (r : Run) : Nat := (r.nodes.values.filter fun n => n.status.isTerminal).length

end Run

/-- The status of a run by its nodes: failed before cancelled before succeeded. -/
def finalStatus (nodes : Dict NodeState) : RunStatus :=
  if nodes.values.any fun n => n.status = .failed then .failed
  else if nodes.values.any fun n => n.cancelled then .cancelled
  else .succeeded

namespace Run

def finalStatus (r : Run) : RunStatus := Workflow.finalStatus r.nodes

/-- Set the overall status. A terminal status stamps the time, unless it is stamped. -/
def setStatus (r : Run) (status : RunStatus) (now : Instant) : Run :=
  { r with
    status
    finishedAt := if status.isTerminal && r.finishedAt.isNone then some now else r.finishedAt }

def setNode? (r : Run) (node : String) (state : NodeState) : Option Run :=
  if r.nodes.contains node then some { r with nodes := r.nodes.insert node state } else none

def decode? (d : Document) : Option Run := do
  let fields ← d.asFields?
    ["run_id", "run_name", "experiment_id", "pipeline_name", "manifest_ref", "params", "status",
      "nodes", "idempotency_key", "created_at", "finished_at"]
  let id ← Fields.required fields "run_id" Document.asText?
  let name ← Fields.required fields "run_name" Document.asText?
  let experiment ← Fields.required fields "experiment_id" Document.asText?
  let pipeline ← Fields.required fields "pipeline_name" Document.asText?
  let manifest ← Fields.required fields "manifest_ref" Document.asText?
  let params ← Fields.required fields "params" (Document.asDict? Scalar.decode?)
  let status ← Fields.required fields "status" RunStatus.decode?
  let nodes ← Fields.required fields "nodes" (Document.asDict? NodeState.decode?)
  let idempotencyKey ← Fields.required fields "idempotency_key" Document.asText?
  let createdAt ← Fields.required fields "created_at" Instant.decode?
  let finishedAt ← Fields.optional fields "finished_at" Instant.decode?
  return ⟨id, name, experiment, pipeline, manifest, params, status, nodes, idempotencyKey,
    createdAt, finishedAt⟩

def encode (r : Run) : Document :=
  .record ([("run_id", .text r.id), ("run_name", .text r.name),
      ("experiment_id", .text r.experiment), ("pipeline_name", .text r.pipeline),
      ("manifest_ref", .text r.manifest), ("params", .ofDict Scalar.encode r.params),
      ("status", r.status.encode), ("nodes", .ofDict NodeState.encode r.nodes),
      ("idempotency_key", .text r.idempotencyKey), ("created_at", r.createdAt.encode)] ++
    Document.optionalField "finished_at" Instant.encode r.finishedAt)

end Run

namespace Experiment

def decode? (d : Document) : Option Experiment := do
  let fields ← d.asFields? ["id", "name", "description", "created_at"]
  let id ← Fields.required fields "id" Document.asText?
  let name ← Fields.required fields "name" Document.asText?
  let description ← Fields.optional fields "description" Document.asText?
  let createdAt ← Fields.required fields "created_at" Instant.decode?
  return ⟨id, name, description, createdAt⟩

def encode (e : Experiment) : Document :=
  .record ([("id", .text e.id), ("name", .text e.name)] ++
    Document.optionalField "description" Document.text e.description ++
    [("created_at", e.createdAt.encode)])

end Experiment

/-! ## Views -/

/-- What clients see of a run: its status and those of its nodes. -/
structure RunSummary where
  run : String
  status : RunStatus
  nodes : Dict NodeStatus
  deriving DecidableEq, Repr

namespace RunSummary

def encode (s : RunSummary) : Document :=
  .record [("run_id", .text s.run), ("status", s.status.encode),
    ("nodes", .ofDict NodeStatus.encode s.nodes)]

end RunSummary

namespace Run

def summary (r : Run) : RunSummary := ⟨r.id, r.status, r.nodes.map (·.status)⟩

/-- The run's name with the nodes that are running. -/
def progressText (r : Run) : String :=
  let running := (r.nodes.entries.filter fun e => e.2.status = .running).map (·.1)
  if running.isEmpty then r.name else r.name ++ ": " ++ ", ".intercalate running

end Run
end Workflow
