import Workflow.Rehearsal

/-!
# The steps of a rehearsal

What a client can ask for during a rehearsal, one step at a time. Manifests are known by name.
-/
namespace Workflow

/-- How a submission refers to a manifest. -/
inductive RehearsalSource where
  | named (manifest : String)
  /-- The digest of a manifest that has a name, which need not be stored. -/
  | digestOf (manifest : String)
  | digest (digest : String)

inductive RehearsalStep where
  | execute (manifest : String) (params : Dict Scalar)
  | submit (source : RehearsalSource) (experiment name : String) (params : Dict Scalar)
  | store (manifest : String)
  | advance (ms : Nat)
  | wait (run : String)
  | cancel (run : String)
  | status (run : String)
  | inspect (run : String)
  | createExperiment (name : String) (description : Option String)
  | experiments
  /-- The runs of an experiment, or all runs. -/
  | runs (experiment : Option String)

inductive RehearsalAnswer where
  | done
  | absent
  | text (s : String)
  | flag (b : Bool)
  | run (r : Run)
  | summary (s : RunSummary)
  | experiment (e : Experiment)
  | experiments (es : List Experiment)
  | runs (rs : List Run)

namespace RehearsalStep

def answered {α : Type} (f : α → RehearsalAnswer) (r : Outcome α × Timeline Rehearsal) :
    Outcome RehearsalAnswer × Timeline Rehearsal := (r.1.map f, r.2)

/-- Something that is asked of the tracker or the store. -/
def asked {α : Type} (t : Timeline Rehearsal) (f : α → RehearsalAnswer)
    (operation : Stateful Rehearsal α) : Outcome RehearsalAnswer × Timeline Rehearsal :=
  answered f (t.onState operation.run)

/-- The manifest of a name. -/
def manifestNamed (manifests : Dict Manifest) (name : String) : Outcome Manifest :=
  match manifests.get? name with
  | some m => .ok m
  | none => .error (.manifestNotFound name)

def sourceOf (manifests : Dict Manifest) : RehearsalSource → Outcome ManifestSource
  | .named name => (manifestNamed manifests name).map .inline
  | .digestOf name => (manifestNamed manifests name).map fun m => .stored m.digest
  | .digest digest => .ok (.stored digest)

/-- The runs of an experiment, if there is one of this name. -/
def runsOf (t : Tracker Rehearsal) : Option String → Stateful Rehearsal RehearsalAnswer
  | none => do return .runs (← t.runs none)
  | some name => do
    match ← t.experiment? name with
    | some e => return .runs (← t.runs (some e.id))
    | none => return .absent

def perform (e : Engine Rehearsal) (manifests : Dict Manifest) (t : Timeline Rehearsal)
    (step : RehearsalStep) : Outcome RehearsalAnswer × Timeline Rehearsal :=
  let now := e.origin.addMillis t.clock
  let stamp := t.orchestrator.state.stamp now
  let tracker := e.services.tracker
  match step with
  | execute name params =>
    match manifestNamed manifests name with
    | .error f => (.error f, t)
    | .ok m => answered .run (t.execute e stamp m params)
  | submit source experiment name params =>
    match sourceOf manifests source with
    | .error f => (.error f, t)
    | .ok source =>
      match t.submit e stamp ⟨source, experiment, name, params⟩ with
      | some r => answered .text r
      | none => (.ok .absent, t)
  | store name =>
    match manifestNamed manifests name with
    | .error f => (.error f, t)
    | .ok m => asked t .text (e.services.manifests.store m now)
  | advance ms => (.ok .done, t.advance e ms)
  | wait run =>
    match t.wait e run with
    | some r => answered .run r
    | none => (.ok .absent, t)
  | cancel run => answered .flag (t.cancel e run)
  | status run => asked t (fun r => .summary r.summary) (tracker.run run)
  | inspect run => asked t .run (tracker.run run)
  | createExperiment name description =>
    asked t .experiment (tracker.getOrCreateExperiment name description stamp.experiment now)
  | experiments => asked t .experiments tracker.experiments
  | runs experiment => asked t id (runsOf tracker experiment)

end RehearsalStep
end Workflow
