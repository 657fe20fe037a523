import Workflow.Fault.Basic
import Workflow.Run.Record

/-!
# Run trackers

A tracker keeps experiments and runs. Experiments are made at most once a name and runs are recorded
at most once an idempotency key, whoever else does the same. `Tracker σ` lists the operations of a
tracker whose state is a `σ`; a failing operation may leave a changed state behind.
-/
namespace Workflow

/-- An operation on a state that gives a value or a fault. -/
abbrev Stateful (σ α : Type) := ExceptT Fault (StateM σ) α

/-- What comes of recording a run. -/
inductive RecordOutcome where
  | created
  /-- A run with the same idempotency key is recorded. -/
  | existing (run : Run)
  deriving Repr

/-- The operations of a tracker. New experiments take the id and the time that are offered. -/
structure Tracker (σ : Type) where
  getOrCreateExperiment (name : String) (description : Option String) (id : String)
    (now : Instant) : Stateful σ Experiment
  experiment? (name : String) : Stateful σ (Option Experiment)
  experiments : Stateful σ (List Experiment)
  recordRun (run : Run) : Stateful σ RecordOutcome
  updateNode (run node : String) (state : NodeState) : Stateful σ Unit
  updateRun (run : String) (status : RunStatus) (now : Instant) : Stateful σ Unit
  run (id : String) : Stateful σ Run
  runs (experiment : Option String) : Stateful σ (List Run)

/-- The fault of an update to a node that the run does not have. -/
def unknownNode (run node : String) : Fault :=
  .trackerError ("run '" ++ run ++ "' has no node '" ++ node ++ "'")

/-- Runs of an experiment, or all runs, the oldest first; of one time by id. -/
def orderRuns (experiment : Option String) (runs : List Run) : List Run :=
  let chosen := runs.filter fun r => experiment.all fun e => r.experiment = e
  chosen.mergeSort fun a b =>
    a.createdAt.before b.createdAt || (¬ b.createdAt.before a.createdAt && a.id ≤ b.id)

/-- Experiments by name; of one name the oldest first. -/
def orderExperiments (experiments : List Experiment) : List Experiment :=
  experiments.mergeSort fun a b =>
    a.name < b.name || (a.name = b.name && ¬ b.createdAt.before a.createdAt)

end Workflow
