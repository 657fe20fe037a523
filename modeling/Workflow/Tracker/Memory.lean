import Workflow.Tracker.Basic

/-!
# A tracker in memory
-/
namespace Workflow

structure MemoryTracker where
  /-- Experiments by name. -/
  experiments : Dict Experiment
  /-- Runs by id. -/
  runs : Dict Run
  /-- Run ids by idempotency key. -/
  keys : Dict String
  deriving Repr

namespace MemoryTracker

def empty : MemoryTracker := ⟨Dict.empty, Dict.empty, Dict.empty⟩

instance : Inhabited MemoryTracker := ⟨empty⟩

def getOrCreateExperiment (name : String) (description : Option String) (id : String)
    (now : Instant) : Stateful MemoryTracker Experiment := do
  let t ← get
  match t.experiments.get? name with
  | some e => return e
  | none =>
    let e : Experiment := ⟨id, name, description, now⟩
    set { t with experiments := t.experiments.insert name e }
    return e

def recordRun (run : Run) : Stateful MemoryTracker RecordOutcome := do
  let t ← get
  match t.keys.get? run.idempotencyKey with
  | some id =>
    match t.runs.get? id with
    | some existing => return .existing existing
    | none =>
      throw (.trackerError
        ("idempotency key " ++ run.idempotencyKey ++ " points at a missing run"))
  | none =>
    set { t with keys := t.keys.insert run.idempotencyKey run.id, runs := t.runs.insert run.id run }
    return .created

def find (id : String) : Stateful MemoryTracker Run := do
  match (← get).runs.get? id with
  | some r => return r
  | none => throw (.runNotFound id)

def updateNode (run node : String) (state : NodeState) : Stateful MemoryTracker Unit := do
  let r ← find run
  match r.setNode? node state with
  | some r => modify fun t => { t with runs := t.runs.insert run r }
  | none => throw (unknownNode r.id node)

def updateRun (run : String) (status : RunStatus) (now : Instant) :
    Stateful MemoryTracker Unit := do
  let r ← find run
  modify fun t => { t with runs := t.runs.insert run (r.setStatus status now) }

def tracker : Tracker MemoryTracker where
  getOrCreateExperiment := getOrCreateExperiment
  experiment? name := do return (← get).experiments.get? name
  experiments := do return orderExperiments (← get).experiments.values
  recordRun := recordRun
  updateNode := updateNode
  updateRun := updateRun
  run := find
  runs experiment := do return orderRuns experiment (← get).runs.values

end MemoryTracker
end Workflow
