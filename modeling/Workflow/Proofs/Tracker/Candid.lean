import Workflow.Proofs.Orchestrator.Contract
import Workflow.Rehearsal
import Workflow.Store.Files

/-!
# Faults of services and faults of requests

A request is refused for what it says: it names a manifest that is unknown or invalid, its parameters
do not fit, or there is nothing to run a node with. Trackers and stores have faults of their own and
never give one of these when they write, so that a fault tells where a request has failed.
-/
namespace Workflow

/-- The fault refuses a request for what it says. -/
def Fault.isRefusal : Fault → Bool
  | manifestNotFound .. | invalidManifest .. | missingParameter .. | unexpectedParameter ..
  | parameterType .. | bodyNotFound .. | toolNotFound .. => true
  | _ => false

/-- If it is a fault, then no refusal. -/
def NoRefusal {α : Type} (result : Outcome α) : Prop :=
  ∀ fault, result = .error fault → fault.isRefusal = false

theorem noRefusal_ok {α : Type} (a : α) : NoRefusal (.ok a : Outcome α) := nofun

theorem noRefusal_error {α : Type} {fault : Fault} (h : fault.isRefusal = false) :
    NoRefusal (.error fault : Outcome α) := by
  intro f hf
  cases hf
  exact h

theorem noRefusal_bind {σ α β : Type} {x : Stateful σ α} {f : α → Stateful σ β} {s : σ}
    (hx : NoRefusal (x.run.run s).1) (hf : ∀ a s, NoRefusal ((f a).run.run s).1) :
    NoRefusal ((x >>= f).run.run s).1 := by
  rcases hrun : x.run.run s with ⟨fault | a, s'⟩
  · rw [Stateful.run_bind_error hrun]
    rw [hrun] at hx
    exact noRefusal_error (hx fault rfl)
  · rw [Stateful.run_bind_ok hrun]
    exact hf a s'

/-- The operations with which runs are recorded and driven do not refuse requests. -/
structure Tracker.Candid {σ : Type} (t : Tracker σ) : Prop where
  getOrCreateExperiment : ∀ name description id now s,
    NoRefusal ((t.getOrCreateExperiment name description id now).run.run s).1
  recordRun : ∀ run s, NoRefusal ((t.recordRun run).run.run s).1
  updateRun : ∀ run status now s, NoRefusal ((t.updateRun run status now).run.run s).1

/-- A manifest that cannot be stored is not refused for what it says. -/
def ManifestStore.Candid {σ : Type} (m : ManifestStore σ) : Prop :=
  ∀ manifest now s, NoRefusal ((m.store manifest now).run.run s).1

structure Services.Candid {σ : Type} (s : Services σ) : Prop where
  tracker : s.tracker.Candid
  manifests : s.manifests.Candid

theorem Tracker.Candid.within {τ σ : Type} {t : Tracker τ} (h : t.Candid) (p : Part τ σ) :
    (t.within p).Candid where
  getOrCreateExperiment name description id now s := by
    rw [Tracker.within, p.run_perform]
    exact h.getOrCreateExperiment name description id now (p.get s)
  recordRun run s := by
    rw [Tracker.within, p.run_perform]
    exact h.recordRun run (p.get s)
  updateRun run status now s := by
    rw [Tracker.within, p.run_perform]
    exact h.updateRun run status now (p.get s)

theorem ManifestStore.Candid.within {τ σ : Type} {m : ManifestStore τ} (h : m.Candid)
    (p : Part τ σ) : (m.within p).Candid := by
  intro manifest now s
  rw [ManifestStore.within, p.run_perform]
  exact h manifest now (p.get s)

/-! ## In memory -/

theorem MemoryStore.candid : store.Candid := fun _ _ _ => noRefusal_ok _

theorem MemoryTracker.candid : tracker.Candid where
  getOrCreateExperiment name description id now t := by
    change NoRefusal ((MemoryTracker.getOrCreateExperiment name description id now).run.run t).1
    cases hname : t.experiments.get? name with
    | some e =>
      rw [getOrCreateExperiment_known hname]
      exact noRefusal_ok e
    | none =>
      rw [getOrCreateExperiment_new hname]
      exact noRefusal_ok _
  recordRun run t := by
    change NoRefusal ((MemoryTracker.recordRun run).run.run t).1
    cases hkey : t.keys.get? run.idempotencyKey with
    | none =>
      rw [recordRun_new hkey]
      exact noRefusal_ok _
    | some id =>
      cases hrun : t.runs.get? id with
      | some earlier =>
        rw [recordRun_known hkey hrun]
        exact noRefusal_ok _
      | none =>
        rw [recordRun_lost hkey hrun]
        exact noRefusal_error rfl
  updateRun run status now t := by
    change NoRefusal ((MemoryTracker.updateRun run status now).run.run t).1
    cases hrun : t.runs.get? run with
    | some r =>
      rw [updateRun_known hrun]
      exact noRefusal_ok _
    | none =>
      rw [updateRun_missing hrun]
      exact noRefusal_error rfl

/-- Updates that are made to fail do so with a fault of the tracker. -/
theorem Rehearsal.candid_watched (s : RehearsalSetup) : (watched s).Candid := by
  have hmemory := MemoryTracker.candid.within trackerPart
  refine { hmemory with updateRun := fun run status now r => ?_ }
  change NoRefusal ((do
    if s.failingStatuses.contains status.name then throw (injected status.name)
    (MemoryTracker.tracker.within trackerPart).updateRun run status now
    noteUpdate run (.status status) : Stateful Rehearsal Unit).run.run r).1
  split_ifs
  · exact noRefusal_error rfl
  · exact noRefusal_bind (hmemory.updateRun run status now r) fun _ _ => noRefusal_ok _

/-! ## In files -/

-- Paths are made from digests, which no proof here needs to compute.
attribute [local irreducible] Blake3.hexDigest

namespace FileTracker
variable {α β : Type}

/-- However its steps are answered, the program gives no refusal. -/
abbrev Mild (p : FileProgram (Outcome α)) : Prop := p.Keeps (fun _ => True) NoRefusal

theorem Mild.andThen {p : FileProgram (Outcome α)} {f : α → FileProgram (Outcome β)}
    (hp : Mild p) (hf : ∀ a, Mild (f a)) : Mild (FileTracker.andThen p f) := by
  refine FileProgram.Keeps.bind hp fun result hresult => ?_
  cases result with
  | ok a => exact hf a
  | error fault => exact noRefusal_error (hresult fault rfl)

theorem mild_writeAtOnce (tag path content : String) : Mild (writeAtOnce tag path content) := by
  refine FileProgram.Keeps.bind (FileProgram.keeps_tryStep trivial) fun written _ => ?_
  cases written with
  | error e => exact noRefusal_error rfl
  | ok =>
    refine FileProgram.Keeps.bind (FileProgram.keeps_tryStep trivial) fun renamed _ => ?_
    cases renamed with
    | ok => exact noRefusal_ok _
    | error e =>
      refine FileProgram.Keeps.bind (FileProgram.keeps_tryStep trivial) fun _ _ => ?_
      exact noRefusal_error rfl

theorem mild_createOnce (tag path content : String) : Mild (createOnce tag path content) := by
  refine FileProgram.Keeps.bind (FileProgram.keeps_tryStep trivial) fun written _ => ?_
  cases written with
  | error e => exact noRefusal_error rfl
  | ok =>
    refine FileProgram.Keeps.bind (FileProgram.keeps_tryStep trivial) fun linked _ => ?_
    refine FileProgram.Keeps.bind (FileProgram.keeps_tryStep trivial) fun _ _ => ?_
    rcases linked with (_ | _ | _ | _ | _) | _
    all_goals first | exact noRefusal_ok _ | exact noRefusal_error rfl

theorem mild_readDocument (decode? : Document → Option α) (path : String) :
    Mild (readDocument decode? path) := by
  refine FileProgram.Keeps.bind (FileProgram.keeps_readText trivial) fun reply _ => ?_
  rcases reply with (_ | _ | _ | _ | _) | text
  case ok =>
    cases hread : (Json.read? text).bind decode? with
    | some v =>
      simp only [hread]
      exact noRefusal_ok _
    | none =>
      simp only [hread]
      exact noRefusal_error rfl
  all_goals first | exact noRefusal_ok _ | exact noRefusal_error rfl

theorem mild_loadRun (t : FileTracker) (id : String) : Mild (t.loadRun id) := by
  refine (mild_readDocument _ _).andThen fun found => ?_
  cases found with
  | some r => exact noRefusal_ok _
  | none => exact noRefusal_error rfl

theorem mild_getOrCreateExperiment (t : FileTracker) (tag name : String)
    (description : Option String) (id : String) (now : Instant) :
    Mild (t.getOrCreateExperiment tag name description id now) := by
  refine (mild_createOnce _ _ _).andThen fun created => ?_
  cases created with
  | true => exact noRefusal_ok _
  | false =>
    refine (mild_readDocument _ _).andThen fun found => ?_
    cases found with
    | some e => exact noRefusal_ok _
    | none => exact noRefusal_error rfl

theorem mild_recordRun (t : FileTracker) (tag : String) (run : Run) :
    Mild (t.recordRun tag run) := by
  refine (mild_writeAtOnce _ _ _).andThen fun _ => ?_
  refine (mild_createOnce _ _ _).andThen fun created => ?_
  cases created with
  | true => exact noRefusal_ok _
  | false =>
    refine FileProgram.Keeps.bind (FileProgram.keeps_tryStep trivial) fun _ _ => ?_
    refine FileProgram.Keeps.bind (FileProgram.keeps_readText trivial) fun reply _ => ?_
    cases reply with
    | error e => exact noRefusal_error rfl
    | ok id => exact (mild_loadRun t _).andThen fun existing => noRefusal_ok _

theorem mild_modifyRun (t : FileTracker) (tag id : String) {f : Run → Outcome Run}
    (hf : ∀ r, NoRefusal (f r)) : Mild (t.modifyRun tag id f) := by
  refine (mild_loadRun t id).andThen fun r => ?_
  cases hr : f r with
  | ok r' => exact mild_writeAtOnce _ _ _
  | error fault => exact noRefusal_error (hf r fault hr)

theorem noRefusal_onDisk {program : String → FileProgram (Outcome α)}
    (h : ∀ tag, Mild (program tag)) (disk : Disk) :
    NoRefusal ((onDisk program).run.run disk).1 := by
  rw [run_onDisk]
  exact (h _).run disk.tree

theorem candid (t : FileTracker) : t.tracker.Candid := by
  constructor
  case getOrCreateExperiment =>
    intro name description id now disk
    exact noRefusal_onDisk (fun tag => mild_getOrCreateExperiment t tag name description id now) disk
  case recordRun =>
    intro run disk
    exact noRefusal_onDisk (fun tag => mild_recordRun t tag run) disk
  case updateRun =>
    intro run status now disk
    have hmild (tag : String) : Mild (t.modifyRun tag run fun r => .ok (r.setStatus status now)) :=
      mild_modifyRun t tag run fun _ => noRefusal_ok _
    exact noRefusal_onDisk hmild disk

end FileTracker

namespace FileStore
open FileTracker (Mild)

theorem mild_must (what : String) (step : FileStep) : Mild (must what step) := by
  refine FileProgram.Keeps.bind (FileProgram.keeps_tryStep trivial) fun reply _ => ?_
  cases reply with
  | ok => exact noRefusal_ok _
  | error e => exact noRefusal_error rfl

theorem mild_put (s : FileStore) (tag : String) (m : Manifest) (now : Instant) :
    Mild (s.put tag m now) := by
  refine FileProgram.Keeps.bind (FileProgram.keeps_exists? trivial) fun there _ => ?_
  cases there with
  | true => exact noRefusal_ok _
  | false =>
    refine (mild_must _ _).andThen fun _ => (mild_must _ _).andThen fun _ => ?_
    refine FileProgram.Keeps.bind (FileProgram.keeps_tryStep trivial) fun reply _ => ?_
    cases reply with
    | ok => exact noRefusal_ok _
    | error e =>
      refine FileProgram.Keeps.bind (FileProgram.keeps_tryStep trivial) fun _ _ => ?_
      exact noRefusal_error rfl

theorem candid (s : FileStore) : s.store.Candid := fun m now disk =>
  FileTracker.noRefusal_onDisk (fun tag => s.mild_put tag m now) disk

end FileStore
end Workflow
