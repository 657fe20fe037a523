import Workflow.Manifest.Check
import Workflow.Orchestrator.Part
import Workflow.Orchestrator.Resumption
import Workflow.Schedule.Parameters

/-!
# Submitting runs

A submission names a manifest, an experiment, a run and parameters. It is checked completely before
anything is recorded. A submission that was made before gives the id of the run that it made then.
What an orchestrator keeps of the runs that it executes is left open here.
-/
namespace Workflow

/-- A manifest, or the digest of a stored one. -/
inductive ManifestSource where
  | inline (m : Manifest)
  | stored (digest : String)

structure Submission where
  source : ManifestSource
  experiment : String
  runName : String
  params : Dict Scalar

/-- Ids for an experiment and a run that may have to be made, the time at which that happens, and a
text that nobody else has. -/
structure Stamp where
  experiment : String
  run : String
  token : String
  now : Instant

/-- What an orchestrator works with. -/
structure Services (σ : Type) where
  tracker : Tracker σ
  manifests : ManifestStore σ
  /-- Refuses manifests with a node that cannot run. -/
  checkBodies : Manifest → Outcome Unit

/-- The state of the services, and the runs that are being executed, by id. -/
structure Orchestrator (σ ρ : Type) where
  state : σ
  active : Dict ρ

namespace Orchestrator

variable {σ ρ : Type}

def services : Part σ (Orchestrator σ ρ) := ⟨state, fun s o => { o with state := s }⟩

def isActive (id : String) (o : Orchestrator σ ρ) : Bool := o.active.contains id

def service {α : Type} (operation : Stateful σ α) : Interruptible (Orchestrator σ ρ) α :=
  .once (services.perform operation)

/-- The manifest of a submission, checked. -/
def obtain (s : Services σ) (now : Instant) :
    ManifestSource → Interruptible (Orchestrator σ ρ) Manifest
  | .inline m => do
    m.validate
    let _ ← service (s.manifests.store m now)
    return m
  | .stored digest => do
    let m ← service (s.manifests.fetch digest)
    m.validate
    return m

/-- The run of a submission. -/
def newRun (m : Manifest) (name experiment : String) (params : Dict Scalar) (key : String)
    (stamp : Stamp) : Run :=
  .begin stamp.run name experiment m.name m.digest params key (m.nodes.map (·.id)) stamp.now

/-- Register a run as being executed. -/
def activate (id : String) (entry : ρ) : Stateful (Orchestrator σ ρ) Unit :=
  modify fun o => { o with active := o.active.insert id entry }

/-- Submit a run; the result is its id. -/
def submit (s : Services σ) (start : Manifest → Run → ρ) (stamp : Stamp) (request : Submission) :
    Interruptible (Orchestrator σ ρ) String := do
  let m ← obtain s stamp.now request.source
  let params ← bindParameters m.parameters request.params
  s.checkBodies m
  -- up to here at most the manifest has been stored
  let experiment ← service
    (s.tracker.getOrCreateExperiment request.experiment none stamp.experiment stamp.now)
  let key := idempotencyKey experiment.id request.runName m.digest params
  let run := newRun m request.runName experiment.id params key stamp
  -- of several submissions with this key the tracker lets one go on
  match ← service (s.tracker.recordRun run) with
  | .existing earlier => return earlier.id
  | .created =>
    Interruptible.once (activate run.id (start m run))
    return run.id

/-- Wait until a run is no longer executed here. -/
def wait (s : Services σ) (id : String) : Interruptible (Orchestrator σ ρ) Run := do
  Interruptible.await fun o => ¬ o.isActive id
  service (s.tracker.run id)

/-- Ask for the cancellation of a run; the answer tells whether it is executed here. -/
def cancel (s : Services σ) (mark : ρ → ρ) (id : String) :
    Stateful (Orchestrator σ ρ) Bool := do
  if (← get).isActive id then
    modify fun o => { o with active := o.active.modify id mark }
    return true
  else
    -- a run that the tracker does not know is a fault
    let _ ← services.perform (s.tracker.run id)
    return false

end Orchestrator

/-- The experiment of runs that name none. -/
def defaultExperiment : String := "Default"

/-- Record a run that is to be executed at once, in the default experiment. -/
def recordExecution {σ : Type} (s : Services σ) (stamp : Stamp) (m : Manifest)
    (supplied : Dict Scalar) : Stateful σ Run := do
  m.validate
  let params ← bindParameters m.parameters supplied
  s.checkBodies m
  let experiment ← s.tracker.getOrCreateExperiment defaultExperiment none stamp.experiment stamp.now
  let run := Orchestrator.newRun m m.name experiment.id params stamp.token stamp
  let _ ← s.tracker.recordRun run
  return run

end Workflow
