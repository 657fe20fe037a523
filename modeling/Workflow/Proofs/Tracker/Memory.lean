import Workflow.Proofs.Data.Dict
import Workflow.Proofs.Tracker.Stateful
import Workflow.Tracker.Memory

/-!
# The tracker in memory

What each operation answers and which state it leaves, and what holds of all states: experiments are
kept under their names and runs under their ids, and every key belongs to a run that is there.
-/
namespace Workflow

namespace MemoryTracker

variable {m : MemoryTracker} {name id node : String} {description : Option String} {now : Instant}
  {e : Experiment} {run other : Run} {state : NodeState} {status : RunStatus}

/-! ## Operations -/

theorem getOrCreateExperiment_known (h : m.experiments.get? name = some e) :
    (getOrCreateExperiment name description id now).run.run m = (.ok e, m) := by
  rw [getOrCreateExperiment, Stateful.run_get_bind, h]
  rfl

theorem getOrCreateExperiment_new (h : m.experiments.get? name = none) :
    (getOrCreateExperiment name description id now).run.run m =
      (.ok ⟨id, name, description, now⟩,
        { m with experiments := m.experiments.insert name ⟨id, name, description, now⟩ }) := by
  rw [getOrCreateExperiment, Stateful.run_get_bind, h]
  rfl

theorem recordRun_known (hkey : m.keys.get? run.idempotencyKey = some id)
    (hrun : m.runs.get? id = some other) :
    (recordRun run).run.run m = (.ok (.existing other), m) := by
  rw [recordRun, Stateful.run_get_bind, hkey]
  simp only [hrun]
  rfl

theorem recordRun_lost (hkey : m.keys.get? run.idempotencyKey = some id)
    (hrun : m.runs.get? id = none) : (recordRun run).run.run m = (.error (.trackerError
      ("idempotency key " ++ run.idempotencyKey ++ " points at a missing run")), m) := by
  rw [recordRun, Stateful.run_get_bind, hkey]
  simp only [hrun]
  rfl

theorem recordRun_new (hkey : m.keys.get? run.idempotencyKey = none) :
    (recordRun run).run.run m = (.ok .created,
      { m with
        keys := m.keys.insert run.idempotencyKey run.id
        runs := m.runs.insert run.id run }) := by
  rw [recordRun, Stateful.run_get_bind, hkey]
  rfl

theorem find_known (h : m.runs.get? id = some run) : (find id).run.run m = (.ok run, m) := by
  rw [find, Stateful.run_get_bind, h]
  rfl

theorem find_missing (h : m.runs.get? id = none) :
    (find id).run.run m = (.error (.runNotFound id), m) := by
  rw [find, Stateful.run_get_bind, h]
  rfl

theorem updateNode_missing (h : m.runs.get? id = none) :
    (updateNode id node state).run.run m = (.error (.runNotFound id), m) :=
  Stateful.run_bind_error (find_missing h) _

theorem updateNode_unknown (h : m.runs.get? id = some run)
    (hnode : run.setNode? node state = none) :
    (updateNode id node state).run.run m = (.error (unknownNode run.id node), m) := by
  rw [updateNode, Stateful.run_bind_ok (find_known h), hnode]
  rfl

theorem updateNode_known (h : m.runs.get? id = some run)
    (hnode : run.setNode? node state = some other) :
    (updateNode id node state).run.run m = (.ok (), { m with runs := m.runs.insert id other }) := by
  rw [updateNode, Stateful.run_bind_ok (find_known h), hnode]
  rfl

theorem updateRun_missing (h : m.runs.get? id = none) :
    (updateRun id status now).run.run m = (.error (.runNotFound id), m) :=
  Stateful.run_bind_error (find_missing h) _

theorem updateRun_known (h : m.runs.get? id = some run) :
    (updateRun id status now).run.run m =
      (.ok (), { m with runs := m.runs.insert id (run.setStatus status now) }) := by
  rw [updateRun, Stateful.run_bind_ok (find_known h)]
  rfl

/-! ## States -/

/-- Experiments are kept under their names, runs under their ids, and every key is that of a run. -/
structure Sound (m : MemoryTracker) : Prop where
  experiment_name : ∀ name e, m.experiments.get? name = some e → e.name = name
  run_id : ∀ id r, m.runs.get? id = some r → r.id = id
  key_run : ∀ key id, m.keys.get? key = some id → ∃ r, m.runs.get? id = some r

theorem sound_empty : empty.Sound :=
  ⟨fun _ _ h => (nomatch h), fun _ _ h => (nomatch h), fun _ _ h => nomatch h⟩

theorem Sound.insertExperiment (h : m.Sound) (e : Experiment) :
    Sound { m with experiments := m.experiments.insert e.name e } where
  experiment_name name e' he' := by
    rw [Dict.get?_insert] at he'
    split_ifs at he' with heq
    · cases he'
      exact heq.symm
    · exact h.experiment_name name e' he'
  run_id := h.run_id
  key_run := h.key_run

theorem get?_insertRun (h : m.runs.get? id = some other) (id' : String) (run : Run) :
    ∃ r, (m.runs.insert id' run).get? id = some r := by
  rw [Dict.get?_insert]
  split_ifs
  · exact ⟨run, rfl⟩
  · exact ⟨other, h⟩

theorem Sound.insertRun (h : m.Sound) (hid : run.id = id) :
    Sound { m with runs := m.runs.insert id run } where
  experiment_name := h.experiment_name
  run_id id' r hr := by
    rw [Dict.get?_insert] at hr
    split_ifs at hr with heq
    · cases hr
      exact hid.trans heq.symm
    · exact h.run_id id' r hr
  key_run key id' hkey := by
    obtain ⟨r, hr⟩ := h.key_run key id' hkey
    exact get?_insertRun hr id run

theorem Sound.record (h : m.Sound) (run : Run) :
    Sound { m with
      keys := m.keys.insert run.idempotencyKey run.id
      runs := m.runs.insert run.id run } where
  experiment_name := h.experiment_name
  run_id := (h.insertRun rfl).run_id
  key_run key id hkey := by
    rw [Dict.get?_insert] at hkey
    split_ifs at hkey
    · cases hkey
      exact ⟨run, Dict.get?_insert_self ..⟩
    · obtain ⟨r, hr⟩ := h.key_run key id hkey
      exact get?_insertRun hr run.id run

theorem id_of_setNode? (h : run.setNode? node state = some other) : other.id = run.id := by
  rw [Run.setNode?] at h
  split_ifs at h
  cases h
  rfl

end MemoryTracker
end Workflow
