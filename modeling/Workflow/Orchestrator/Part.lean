import Workflow.Store.Basic
import Workflow.Tracker.Basic

/-!
# Parts of a state

A tracker or a store that works on a state of its own also works on any state that has it as a part.
-/
namespace Workflow

/-- A `τ` within a `σ`. -/
structure Part (τ σ : Type) where
  get : σ → τ
  set : τ → σ → σ

namespace Part

variable {τ σ α : Type}

/-- Everything is a part of itself. -/
def whole : Part σ σ := ⟨id, fun s _ => s⟩

/-- Carry out an operation on a part. -/
def perform (p : Part τ σ) (operation : Stateful τ α) : Stateful σ α := do
  let s ← MonadState.get
  let (result, t) := operation.run.run (p.get s)
  MonadStateOf.set (p.set t s)
  match result with
  | .ok a => return a
  | .error f => throw f

end Part

/-- A tracker on a part of a state. -/
def Tracker.within {τ σ : Type} (t : Tracker τ) (p : Part τ σ) : Tracker σ where
  getOrCreateExperiment name description id now :=
    p.perform (t.getOrCreateExperiment name description id now)
  experiment? name := p.perform (t.experiment? name)
  experiments := p.perform t.experiments
  recordRun run := p.perform (t.recordRun run)
  updateNode run node state := p.perform (t.updateNode run node state)
  updateRun run status now := p.perform (t.updateRun run status now)
  run id := p.perform (t.run id)
  runs experiment := p.perform (t.runs experiment)

/-- A store on a part of a state. -/
def ManifestStore.within {τ σ : Type} (m : ManifestStore τ) (p : Part τ σ) : ManifestStore σ where
  get? digest := p.perform (m.get? digest)
  store manifest now := p.perform (m.store manifest now)
  remove digest := p.perform (m.remove digest)
  clear := p.perform m.clear
  list := p.perform m.list
  stats := p.perform m.stats

end Workflow
