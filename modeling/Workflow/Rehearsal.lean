import Workflow.Orchestrator.Timeline
import Workflow.Store.Memory
import Workflow.Task.Location
import Workflow.Task.Registry
import Workflow.Task.Script
import Workflow.Tracker.Memory

/-!
# Rehearsals

A rehearsal executes runs with scripted bodies, all in memory and in virtual time, and keeps a
journal: what the tracker took, and which bodies were invoked. Updates of chosen nodes and to chosen
run statuses can be made to fail.
-/
namespace Workflow

/-- An update of a run that the tracker took. -/
inductive Update where
  | status (s : RunStatus)
  | node (id : String) (state : NodeState)
  deriving Repr

/-- The services' state with the journal. -/
structure Rehearsal where
  tracker : MemoryTracker
  manifests : MemoryStore
  /-- Updates by run, in their order. -/
  updates : Dict (List Update)
  /-- Invocations by run, in their order. -/
  invocations : Dict (List TaskContext)

/-- What a rehearsal is carried out with. -/
structure RehearsalSetup where
  bodies : BodyRegistry ScriptedBody
  installed : String → Bool
  workers : Nat
  grace : Nat
  /-- Where artifacts lie, if they lie on disk. -/
  artifacts : Option ArtifactRoot
  /-- Nodes whose updates fail. -/
  failingNodes : List String
  /-- Run statuses that cannot be set. -/
  failingStatuses : List String

namespace Rehearsal

def empty : Rehearsal := ⟨.empty, .empty, Dict.empty, Dict.empty⟩

def trackerPart : Part MemoryTracker Rehearsal := ⟨tracker, fun t r => { r with tracker := t }⟩

def manifestsPart : Part MemoryStore Rehearsal := ⟨manifests, fun m r => { r with manifests := m }⟩

def noted {α : Type} (journal : Dict (List α)) (run : String) (entry : α) : Dict (List α) :=
  journal.insert run ((journal.get? run).getD [] ++ [entry])

def noteUpdate (run : String) (u : Update) : Stateful Rehearsal Unit :=
  modify fun r => { r with updates := noted r.updates run u }

def injected (what : String) : Fault := .trackerError ("injected fault: " ++ what)

/-- The tracker in memory, with its failing updates and the journal of the others. -/
def watched (s : RehearsalSetup) : Tracker Rehearsal :=
  let t := MemoryTracker.tracker.within trackerPart
  { t with
    updateNode := fun run node state => do
      if s.failingNodes.contains node then throw (injected node)
      t.updateNode run node state
      noteUpdate run (.node node state)
    updateRun := fun run status now => do
      if s.failingStatuses.contains status.name then throw (injected status.name)
      t.updateRun run status now
      noteUpdate run (.status status) }

/-- Carry out a scripted body and note the invocation. Shell commands are not rehearsed. -/
def invoke (s : RehearsalSetup) (i : Invocation) : StateM Rehearsal (Nat × Ending) := do
  modify fun r => { r with invocations := noted r.invocations i.context.run i.context }
  match i.body with
  | .shell .. => return (0, .returned Dict.empty)
  | .registered name =>
    match s.bodies.get? name with
    | none => return (0, .returned Dict.empty)
    | some body =>
      let script := body.scriptFor i.context.node
      return (script.duration, script.ending i.context)

def location (s : RehearsalSetup) (run node result : String) : String :=
  match s.artifacts with
  | none => "mem://" ++ node ++ "/" ++ result
  | some root => root.location run node result

/-- How a rehearsal executes runs. -/
def engine (s : RehearsalSetup) (origin : Instant) : Engine Rehearsal where
  services := ⟨watched s, MemoryStore.store.within manifestsPart, s.bodies.check s.installed⟩
  workers := s.workers
  grace := s.grace
  resolveBody := s.bodies.resolve
  location := location s
  invoke := invoke s
  origin := origin

/-- Ids that count the experiments and the runs, and a time that no two runs have in common. -/
def stamp (r : Rehearsal) (now : Instant) : Stamp :=
  let numbered (kind : String) (n : Nat) : String := kind ++ toString (n + 1)
  let runs := r.tracker.runs.size
  let run := numbered "run" runs
  ⟨numbered "exp" r.tracker.experiments.size, run, "execution-" ++ run, now.addNanos runs⟩

end Rehearsal
end Workflow
