import Mathlib.Data.Set.Insert
import Workflow.Orchestrator.Submission
import Workflow.Proofs.Store.Integrity
import Workflow.Proofs.Tracker.Memory

/-!
# What an orchestrator relies on

A view reads from a state of the services which experiment has a name, which run has an idempotency
key and which manifest is stored under a digest. Services are faithful to a view when each operation
that a submission needs keeps to its description in these terms. The tracker and the store in memory
are, wherever in a state they are kept.
-/
namespace Workflow

/-- How a state of the services is read. -/
structure View (σ : Type) where
  /-- What holds of all states. -/
  Valid : σ → Prop
  experiment? : σ → String → Option Experiment
  /-- The id of the run that is recorded under an idempotency key. -/
  holder? : σ → String → Option String
  /-- The manifest that is stored under a digest. -/
  manifest? : σ → String → Option Manifest

/-- A change of the state that loses no experiment and no key. Keys are taken only from `keys`, and
of manifests only those of `manifests` may come to be stored. -/
structure View.Moves {σ : Type} (v : View σ) (keys : Set String) (manifests : Set Manifest)
    (s s' : σ) : Prop where
  valid : v.Valid s'
  experiment : ∀ name e, v.experiment? s name = some e → v.experiment? s' name = some e
  held : ∀ key id, v.holder? s key = some id → v.holder? s' key = some id
  taken : ∀ key id, v.holder? s' key = some id → v.holder? s key = some id ∨ key ∈ keys
  stored : ∀ d m, v.manifest? s' d = some m → v.manifest? s d = some m ∨ m ∈ manifests

/-- The operations of a submission do what they are there for: experiments are found or made, a run
is recorded unless its key is taken, and a manifest is stored under its digest. An operation that
fails has no such effect. -/
structure Services.Faithful {σ : Type} (services : Services σ) (v : View σ) : Prop where
  filed : ∀ {s d m}, v.Valid s → v.manifest? s d = some m → m.digest = d
  get? : ∀ {s s' d r}, v.Valid s → (services.manifests.get? d).run.run s = (r, s') →
    v.Moves ∅ ∅ s s' ∧ ∀ m, r = .ok (some m) → v.manifest? s d = some m
  store : ∀ {s s' m now r}, v.Valid s → (services.manifests.store m now).run.run s = (r, s') →
    v.Moves ∅ {m} s s'
  getOrCreate : ∀ {s s' name description id now r}, v.Valid s →
    (services.tracker.getOrCreateExperiment name description id now).run.run s = (r, s') →
    v.Moves ∅ ∅ s s' ∧ ∀ e, r = .ok e → v.experiment? s' name = some e
  created : ∀ {s s' run}, v.Valid s →
    (services.tracker.recordRun run).run.run s = (.ok .created, s') →
    v.Moves {run.idempotencyKey} ∅ s s' ∧ v.holder? s run.idempotencyKey = none ∧
      v.holder? s' run.idempotencyKey = some run.id
  existing : ∀ {s s' run earlier}, v.Valid s →
    (services.tracker.recordRun run).run.run s = (.ok (.existing earlier), s') →
    v.Moves ∅ ∅ s s' ∧ v.holder? s' run.idempotencyKey = some earlier.id
  unrecorded : ∀ {s s' run fault}, v.Valid s →
    (services.tracker.recordRun run).run.run s = (.error fault, s') → v.Moves ∅ ∅ s s'

/-- The operations of a submission succeed in all valid states. -/
structure Services.Prompt {σ : Type} (services : Services σ) (v : View σ) : Prop where
  fetch : ∀ {s d m}, v.Valid s → v.manifest? s d = some m →
    ∃ s', (services.manifests.fetch d).run.run s = (.ok m, s')
  store : ∀ {s} m now, v.Valid s →
    ∃ d s', (services.manifests.store m now).run.run s = (.ok d, s')
  getOrCreate : ∀ {s} name description id now, v.Valid s → ∃ e s',
    (services.tracker.getOrCreateExperiment name description id now).run.run s = (.ok e, s')
  recordRun : ∀ {s} run, v.Valid s →
    ∃ outcome s', (services.tracker.recordRun run).run.run s = (.ok outcome, s')

variable {σ : Type}

namespace View
variable {v : View σ} {keys keys' : Set String} {manifests manifests' : Set Manifest} {s s' : σ}

theorem Moves.refl (h : v.Valid s) : v.Moves keys manifests s s where
  valid := h
  experiment _ _ := id
  held _ _ := id
  taken _ _ := .inl
  stored _ _ := .inl

theorem Moves.mono (h : v.Moves keys manifests s s') (hkeys : keys ⊆ keys')
    (hmanifests : manifests ⊆ manifests') : v.Moves keys' manifests' s s' :=
  { h with
    taken := fun key id hid => (h.taken key id hid).imp_right fun hmem => hkeys hmem
    stored := fun d m hm => (h.stored d m hm).imp_right fun hmem => hmanifests hmem }

end View

theorem Services.Faithful.fetch {services : Services σ} {v : View σ} {s s' : σ} {d : String}
    {r : Outcome Manifest} (h : services.Faithful v) (valid : v.Valid s)
    (run : (services.manifests.fetch d).run.run s = (r, s')) :
    v.Moves ∅ ∅ s s' ∧ ∀ m, r = .ok m → v.manifest? s d = some m := by
  rcases hget : (services.manifests.get? d).run.run s with ⟨fault | found, s₁⟩
  · rw [ManifestStore.fetch, Stateful.run_bind_error hget] at run
    cases run
    exact ⟨(h.get? valid hget).1, nofun⟩
  · rw [ManifestStore.fetch, Stateful.run_bind_ok hget] at run
    obtain ⟨moves, known⟩ := h.get? valid hget
    cases found with
    | none =>
      cases run
      exact ⟨moves, nofun⟩
    | some m =>
      cases run
      refine ⟨moves, fun m' hm => ?_⟩
      cases hm
      exact known m rfl

/-! ## Parts -/

namespace Part
variable {τ : Type}

theorem perform_eq (p : Part τ σ) {α : Type} (op : Stateful τ α) (s : σ) :
    (p.perform op).run.run s =
      (match (op.run.run (p.get s)).1 with
        | .ok a => (pure a : Stateful σ α)
        | .error fault => throw fault).run.run (p.set (op.run.run (p.get s)).2 s) := rfl

/-- An operation on a part changes the state there only. -/
theorem run_perform (p : Part τ σ) {α : Type} (op : Stateful τ α) (s : σ) :
    (p.perform op).run.run s =
      ((op.run.run (p.get s)).1, p.set (op.run.run (p.get s)).2 s) := by
  rw [perform_eq]
  cases (op.run.run (p.get s)).1 <;> rfl

/-- A part that is read as it was written, and of whose changes another part takes no notice. -/
structure Apart {υ : Type} (p : Part τ σ) (q : Part υ σ) : Prop where
  get_set : ∀ t s, p.get (p.set t s) = t
  get_other : ∀ t s, q.get (p.set t s) = q.get s

end Part

/-! ## Services in memory -/

/-- A tracker and a store in memory, read from the parts of a state in which they are kept. -/
def View.memory (p : Part MemoryTracker σ) (q : Part MemoryStore σ) : View σ where
  Valid s := (p.get s).Sound ∧ (q.get s).Filed
  experiment? s := (p.get s).experiments.get?
  holder? s := (p.get s).keys.get?
  manifest? s d := ((q.get s).entries.get? d).map (·.manifest)

section
variable {p : Part MemoryTracker σ} {q : Part MemoryStore σ} {s : σ} {keys : Set String}

/-- A change of the tracker, described in its own terms. -/
theorem View.memory_moves (apart : p.Apart q) (valid : (View.memory p q).Valid s)
    {t : MemoryTracker} (sound : t.Sound)
    (experiment : ∀ name e, (p.get s).experiments.get? name = some e →
      t.experiments.get? name = some e)
    (held : ∀ key id, (p.get s).keys.get? key = some id → t.keys.get? key = some id)
    (taken : ∀ key id, t.keys.get? key = some id →
      (p.get s).keys.get? key = some id ∨ key ∈ keys) :
    (View.memory p q).Moves keys ∅ s (p.set t s) := by
  have htracker := apart.get_set t s
  have hstore := apart.get_other t s
  constructor
  · simp only [View.memory, htracker, hstore]
    exact ⟨sound, valid.2⟩
  · simpa only [View.memory, htracker] using experiment
  · simpa only [View.memory, htracker] using held
  · simpa only [View.memory, htracker] using taken
  · intro d m hm
    simp only [View.memory, hstore] at hm
    exact .inl hm

/-- A change of the store, described in its own terms. -/
theorem View.memory_stores (apart : q.Apart p) (valid : (View.memory p q).Valid s)
    {t : MemoryStore} {manifests : Set Manifest} (filed : t.Filed)
    (stored : ∀ d entry, t.entries.get? d = some entry →
      (q.get s).entries.get? d = some entry ∨ entry.manifest ∈ manifests) :
    (View.memory p q).Moves keys manifests s (q.set t s) := by
  have hstore := apart.get_set t s
  have htracker := apart.get_other t s
  constructor
  · simp only [View.memory, htracker, hstore]
    exact ⟨valid.1, filed⟩
  · simp only [View.memory, htracker]
    exact fun _ _ h => h
  · simp only [View.memory, htracker]
    exact fun _ _ h => h
  · simp only [View.memory, htracker]
    exact fun _ _ => .inl
  · intro d m hm
    simp only [View.memory, hstore] at hm
    obtain ⟨entry, hentry, rfl⟩ := Option.map_eq_some_iff.mp hm
    refine (stored d entry hentry).imp_left fun hold => ?_
    simp only [View.memory, hold, Option.map_some]

theorem View.memory_kept (apart : p.Apart q) (valid : (View.memory p q).Valid s) :
    (View.memory p q).Moves keys ∅ s (p.set (p.get s) s) :=
  memory_moves apart valid valid.1 (fun _ _ => id) (fun _ _ => id) fun _ _ => .inl

theorem run_recordRun_within (valid : (View.memory p q).Valid s) (run : Run) :
    ((p.get s).keys.get? run.idempotencyKey = none ∧
      ((MemoryTracker.tracker.within p).recordRun run).run.run s =
        (.ok .created, p.set { p.get s with
          keys := (p.get s).keys.insert run.idempotencyKey run.id
          runs := (p.get s).runs.insert run.id run } s)) ∨
    ∃ earlier : Run, (p.get s).keys.get? run.idempotencyKey = some earlier.id ∧
      ((MemoryTracker.tracker.within p).recordRun run).run.run s =
        (.ok (.existing earlier), p.set (p.get s) s) := by
  have hrun : ((MemoryTracker.tracker.within p).recordRun run).run.run s =
    (((MemoryTracker.recordRun run).run.run (p.get s)).1,
      p.set ((MemoryTracker.recordRun run).run.run (p.get s)).2 s) := p.run_perform _ s
  cases hkey : (p.get s).keys.get? run.idempotencyKey with
  | none =>
    rw [MemoryTracker.recordRun_new hkey] at hrun
    exact .inl ⟨rfl, hrun⟩
  | some id =>
    obtain ⟨earlier, hearlier⟩ := valid.1.key_run _ _ hkey
    rw [MemoryTracker.recordRun_known hkey hearlier] at hrun
    obtain rfl := valid.1.run_id _ _ hearlier
    exact .inr ⟨earlier, rfl, hrun⟩

theorem run_getOrCreate_within (valid : (View.memory p q).Valid s) (name : String)
    (description : Option String) (id : String) (now : Instant) :
    ∃ e t, ((MemoryTracker.tracker.within p).getOrCreateExperiment name description id
        now).run.run s = (.ok e, p.set t s) ∧
      t.Sound ∧ t.keys = (p.get s).keys ∧ t.experiments.get? name = some e ∧
      ∀ other e', (p.get s).experiments.get? other = some e' →
        t.experiments.get? other = some e' := by
  have hrun : ((MemoryTracker.tracker.within p).getOrCreateExperiment name description id
      now).run.run s =
    (((MemoryTracker.getOrCreateExperiment name description id now).run.run (p.get s)).1,
      p.set ((MemoryTracker.getOrCreateExperiment name description id now).run.run
        (p.get s)).2 s) := p.run_perform _ s
  cases hname : (p.get s).experiments.get? name with
  | some e =>
    rw [MemoryTracker.getOrCreateExperiment_known hname] at hrun
    exact ⟨e, _, hrun, valid.1, rfl, hname, fun _ _ h => h⟩
  | none =>
    rw [MemoryTracker.getOrCreateExperiment_new hname] at hrun
    refine ⟨_, _, hrun, valid.1.insertExperiment ⟨id, name, description, now⟩, rfl,
      Dict.get?_insert_self .., ?_⟩
    intro other e' hother
    rw [Dict.get?_insert_of_ne, hother]
    rintro rfl
    rw [hname] at hother
    cases hother

/-- The services in memory keep to the descriptions. -/
theorem memory_faithful (apart : p.Apart q) (apart' : q.Apart p)
    (check : Manifest → Outcome Unit) :
    (Services.mk (MemoryTracker.tracker.within p) (MemoryStore.store.within q) check).Faithful
      (View.memory p q) where
  filed valid hm := by
    obtain ⟨entry, hentry, rfl⟩ := Option.map_eq_some_iff.mp hm
    exact valid.2 _ entry hentry
  get? {s s' d r} valid run := by
    have hrun := (q.run_perform (MemoryStore.store.get? d) s).symm.trans run
    cases hrun
    refine ⟨View.memory_stores apart' valid valid.2 fun _ _ => .inl, fun m hm => ?_⟩
    exact Except.ok.inj hm
  store {s s' m now r} valid run := by
    -- every entry afterwards was there before or is that of `m`
    obtain ⟨t, hput, hentries⟩ := MemoryStore.run_put m now (q.get s)
    have hrun := (q.run_perform (MemoryStore.store.store m now) s).symm.trans run
    rw [show MemoryStore.store.store m now = MemoryStore.put m now from rfl, hput] at hrun
    cases hrun
    refine View.memory_stores apart' valid (fun d entry hentry => ?_) fun d entry hentry => ?_
    · obtain hold | ⟨rfl, rfl⟩ := hentries d entry hentry
      · exact valid.2 d entry hold
      · rfl
    · exact (hentries d entry hentry).imp_right And.left
  getOrCreate {s s' name description id now r} valid run := by
    obtain ⟨e, t, hrun, sound, hkeys, hname, hkept⟩ :=
      run_getOrCreate_within valid name description id now
    cases hrun.symm.trans run
    refine ⟨View.memory_moves apart valid sound hkept ?_ ?_, fun e' he' => ?_⟩
    · rw [hkeys]
      exact fun _ _ h => h
    · rw [hkeys]
      exact fun _ _ => .inl
    · cases he'
      simp only [View.memory, apart.get_set, hname]
  created {s s' run} valid hrun := by
    obtain ⟨hfree, hcreated⟩ | ⟨earlier, -, hexisting⟩ := run_recordRun_within valid run
    · cases hcreated.symm.trans hrun
      refine ⟨View.memory_moves apart valid (valid.1.record run) ?_ ?_ ?_, hfree, ?_⟩
      · exact fun _ _ => id
      · intro key id hkey
        rw [Dict.get?_insert_of_ne, hkey]
        -- the key of the new run was free, so that no other run loses its own
        rintro rfl
        rw [hfree] at hkey
        cases hkey
      · intro key id hkey
        rw [Dict.get?_insert] at hkey
        split_ifs at hkey with heq
        · exact .inr heq
        · exact .inl hkey
      · simp only [View.memory, apart.get_set, Dict.get?_insert_self]
    · cases hexisting.symm.trans hrun
  existing {s s' run earlier} valid hrun := by
    obtain ⟨-, hcreated⟩ | ⟨earlier', hheld, hexisting⟩ := run_recordRun_within valid run
    · cases hcreated.symm.trans hrun
    · cases hexisting.symm.trans hrun
      refine ⟨View.memory_kept apart valid, ?_⟩
      simp only [View.memory, apart.get_set, hheld]
  unrecorded {s s' run fault} valid hrun := by
    obtain ⟨-, hcreated⟩ | ⟨earlier', -, hexisting⟩ := run_recordRun_within valid run
    · cases hcreated.symm.trans hrun
    · cases hexisting.symm.trans hrun

theorem memory_prompt (check : Manifest → Outcome Unit) :
    (Services.mk (MemoryTracker.tracker.within p) (MemoryStore.store.within q) check).Prompt
      (View.memory p q) where
  fetch {s d m} valid hm := by
    have hget : ((MemoryStore.store.within q).get? d).run.run s =
        (.ok (some m), q.set (q.get s) s) := by
      rw [← hm]
      exact q.run_perform _ s
    exact ⟨_, Stateful.run_bind_ok hget _⟩
  store m now _ := ⟨_, _, q.run_perform (MemoryStore.put m now) _⟩
  getOrCreate name description id now valid := by
    obtain ⟨e, t, hrun, -⟩ := run_getOrCreate_within valid name description id now
    exact ⟨e, _, hrun⟩
  recordRun run valid := by
    obtain ⟨-, hrun⟩ | ⟨earlier, -, hrun⟩ := run_recordRun_within valid run
    · exact ⟨_, _, hrun⟩
    · exact ⟨_, _, hrun⟩

end

/-! ## What drives write -/

section
variable {p : Part MemoryTracker σ} {q : Part MemoryStore σ} {s : σ}

/-- A write of a drive loses no experiment and no key, and takes none. -/
theorem View.memory_updateNode (apart : p.Apart q) (valid : (View.memory p q).Valid s)
    (id node : String) (state : NodeState) :
    (View.memory p q).Moves ∅ ∅ s
      (((MemoryTracker.tracker.within p).updateNode id node state).run.run s).2 := by
  have hrun : ((MemoryTracker.tracker.within p).updateNode id node state).run.run s =
    (((MemoryTracker.updateNode id node state).run.run (p.get s)).1,
      p.set ((MemoryTracker.updateNode id node state).run.run (p.get s)).2 s) := p.run_perform _ s
  rw [hrun]
  cases hr : (p.get s).runs.get? id with
  | none =>
    rw [MemoryTracker.updateNode_missing hr]
    exact View.memory_kept apart valid
  | some r =>
    cases hnode : r.setNode? node state with
    | none =>
      rw [MemoryTracker.updateNode_unknown hr hnode]
      exact View.memory_kept apart valid
    | some r' =>
      rw [MemoryTracker.updateNode_known hr hnode]
      have hid : r'.id = id := (MemoryTracker.id_of_setNode? hnode).trans (valid.1.run_id id r hr)
      exact View.memory_moves apart valid (valid.1.insertRun hid) (fun _ _ h => h)
        (fun _ _ h => h) fun _ _ => .inl

theorem View.memory_updateRun (apart : p.Apart q) (valid : (View.memory p q).Valid s)
    (id : String) (status : RunStatus) (now : Instant) :
    (View.memory p q).Moves ∅ ∅ s
      (((MemoryTracker.tracker.within p).updateRun id status now).run.run s).2 := by
  have hrun : ((MemoryTracker.tracker.within p).updateRun id status now).run.run s =
    (((MemoryTracker.updateRun id status now).run.run (p.get s)).1,
      p.set ((MemoryTracker.updateRun id status now).run.run (p.get s)).2 s) := p.run_perform _ s
  rw [hrun]
  cases hr : (p.get s).runs.get? id with
  | none =>
    rw [MemoryTracker.updateRun_missing hr]
    exact View.memory_kept apart valid
  | some r =>
    rw [MemoryTracker.updateRun_known hr]
    have hid : (r.setStatus status now).id = id := valid.1.run_id id r hr
    exact View.memory_moves apart valid (valid.1.insertRun hid) (fun _ _ h => h)
      (fun _ _ h => h) fun _ _ => .inl

end
end Workflow
