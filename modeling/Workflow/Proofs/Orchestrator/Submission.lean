import Workflow.Proofs.Orchestrator.Contract

/-!
# The course of a submission

Between two operations a submission knows little: which manifest it works with, what it asks for and
in which experiment. `Stage` lists what it can know, and `step?` tells which operation comes next and
which stage follows. `program_first` and `step?_program` say that this is the course of a submission.
-/
namespace Workflow

/-- What is asked for by a submission whose parameters are bound. -/
structure Errand where
  manifest : Manifest
  experiment : String
  runName : String
  params : Dict Scalar

namespace Errand

/-- The idempotency key of an errand, which goes by the experiment that has its name. -/
def key (x : Errand) (e : Experiment) : String :=
  idempotencyKey e.id x.runName x.manifest.digest x.params

def run (x : Errand) (e : Experiment) (stamp : Stamp) : Run :=
  Orchestrator.newRun x.manifest x.runName e.id x.params (x.key e) stamp

theorem run_nodes (x : Errand) (e : Experiment) (stamp : Stamp) : (x.run e stamp).nodes =
    Dict.ofList ((x.manifest.nodes.map (·.id)).map fun id => (id, NodeState.pending)) := rfl

end Errand

/-- A submission asks for an errand when it names the manifest, in one way or the other, the
experiment and the run, and its parameters are bound to those of the errand. -/
structure Submission.Asks (r : Submission) (x : Errand) : Prop where
  source : r.source = .inline x.manifest ∨ r.source = .stored x.manifest.digest
  experiment : r.experiment = x.experiment
  runName : r.runName = x.runName
  params : bindParameters x.manifest.parameters r.params = .ok x.params

/-- How far a submission has got. -/
inductive Stage where
  | storing (m : Manifest)
  | fetching (digest : String)
  | opening (x : Errand)
  | recording (x : Errand) (e : Experiment)
  /-- The run is recorded and not yet executed. -/
  | starting (x : Errand) (e : Experiment)
  | started (x : Errand) (e : Experiment)
  /-- A run with the same idempotency key was there. -/
  | found (x : Errand) (e : Experiment) (id : String)
  | failed (fault : Fault)

namespace Stage

/-- The stage after something that may fail. -/
def after {α : Type} (result : Outcome α) (next : α → Stage) : Stage :=
  match result with
  | .ok a => next a
  | .error fault => .failed fault

variable {σ ρ : Type} (s : Services σ) (start : Manifest → Run → ρ) (stamp : Stamp)
  (r : Submission)

/-- The stage of a submission that has its manifest. -/
def checked (m : Manifest) : Stage :=
  after (bindParameters m.parameters r.params) fun params =>
    after (s.checkBodies m) fun () => .opening ⟨m, r.experiment, r.runName, params⟩

def first : Stage :=
  match r.source with
  | .inline m => after m.validate fun () => .storing m
  | .stored digest => .fetching digest

/-- What comes of an attempt to record a run. -/
def recorded (x : Errand) (e : Experiment) : RecordOutcome → Stage
  | .created => .starting x e
  | .existing earlier => .found x e earlier.id

/-- The operation that comes next, if there is one, and the stage that it leads to. -/
def step? (o : Orchestrator σ ρ) : Stage → Option (Stage × Orchestrator σ ρ)
  | .storing m =>
    let (result, state) := (s.manifests.store m stamp.now).run.run o.state
    some (after result fun _ => checked s r m, { o with state })
  | .fetching digest =>
    let (result, state) := (s.manifests.fetch digest).run.run o.state
    some (after result fun m => after m.validate fun () => checked s r m, { o with state })
  | .opening x =>
    let (result, state) :=
      (s.tracker.getOrCreateExperiment x.experiment none stamp.experiment stamp.now).run.run o.state
    some (after result fun e => .recording x e, { o with state })
  | .recording x e =>
    let (result, state) := (s.tracker.recordRun (x.run e stamp)).run.run o.state
    some (after result (recorded x e), { o with state })
  | .starting x e =>
    let entry := start x.manifest (x.run e stamp)
    some (.started x e, { o with active := o.active.insert stamp.run entry })
  | .started .. | .found .. | .failed .. => none

def result? : Stage → Option (Outcome String)
  | .started .. => some (.ok stamp.run)
  | .found _ _ id => some (.ok id)
  | .failed fault => some (.error fault)
  | _ => none

/-- Nothing is left to be done once there is a result. -/
theorem step?_of_result? {s : Services σ} {start : Manifest → Run → ρ} {stamp : Stamp}
    {r : Submission} {o : Orchestrator σ ρ} (x : Stage) {result : Outcome String}
    (h : x.result? stamp = some result) : x.step? s start stamp r o = none := by
  cases x with
  | started | found | failed => rfl
  | storing | fetching | opening | recording | starting => cases h

end Stage

/-! ## A submission follows its stages -/

section
variable {σ ρ α : Type} (s : Services σ) (start : Manifest → Run → ρ) (stamp : Stamp)
  (r : Submission)

/-- A computation follows a stage when it carries out the operations that the stages prescribe and
ends with their result. -/
def Resumption.Follows : Resumption (Orchestrator σ ρ) (Outcome String) → Stage → Prop
  | .done result, x => x.result? stamp = some result
  | .act op next, x => ∀ o, ∃ y, x.step? s start stamp r o = some (y, (op.run.run o).2) ∧
    (next (op.run.run o).1).Follows y
  | .await .., _ => False

variable {s start stamp r}

theorem Resumption.Follows.step {rest rest' : Resumption (Orchestrator σ ρ) (Outcome String)}
    {x : Stage} {o o' : Orchestrator σ ρ} (h : rest.Follows s start stamp r x)
    (hstep : rest.step? o = some (rest', o')) :
    ∃ y, x.step? s start stamp r o = some (y, o') ∧ rest'.Follows s start stamp r y := by
  cases rest with
  | done => cases hstep
  | act op next =>
    cases hstep
    exact h o
  | await => exact h.elim

/-- Where a stage has a next operation, so has a computation that follows it. -/
theorem Resumption.Follows.exists_step
    {rest : Resumption (Orchestrator σ ρ) (Outcome String)} {x y : Stage}
    {o o' : Orchestrator σ ρ} (h : rest.Follows s start stamp r x)
    (hstep : x.step? s start stamp r o = some (y, o')) :
    ∃ rest', rest.step? o = some (rest', o') ∧ rest'.Follows s start stamp r y := by
  cases rest with
  | done result =>
    rw [x.step?_of_result? h] at hstep
    cases hstep
  | act op next =>
    obtain ⟨y', hstep', hnext⟩ := h o
    rw [hstep] at hstep'
    cases hstep'
    exact ⟨_, rfl, hnext⟩
  | await => exact h.elim

theorem Resumption.Follows.eq_done {rest : Resumption (Orchestrator σ ρ) (Outcome String)}
    {x : Stage} {result : Outcome String} (o : Orchestrator σ ρ)
    (h : rest.Follows s start stamp r x) (hresult : x.result? stamp = some result) :
    rest = .done result := by
  cases rest with
  | done result' =>
    rw [Option.some.inj (h.symm.trans hresult)]
  | act op next =>
    obtain ⟨y, hstep, -⟩ := h o
    rw [x.step?_of_result? hresult] at hstep
    cases hstep
  | await => exact h.elim

namespace Orchestrator

theorem follows_outcome {x : Outcome α} {f : α → Interruptible (Orchestrator σ ρ) String}
    {k : α → Stage} (h : ∀ a, x = .ok a → (f a).run.Follows s start stamp r (k a)) :
    ((liftM x : Interruptible (Orchestrator σ ρ) α) >>= f).run.Follows s start stamp r
      (.after x k) := by
  cases x with
  | ok a => exact h a rfl
  | error fault => exact rfl

theorem follows_service {x : Stage} {op : Stateful σ α}
    {f : α → Interruptible (Orchestrator σ ρ) String} {k : α → Stage}
    (hstep : ∀ o, x.step? s start stamp r o =
      some (.after (op.run.run o.state).1 k, { o with state := (op.run.run o.state).2 }))
    (hnext : ∀ a, (f a).run.Follows s start stamp r (k a)) :
    (service op >>= f).run.Follows s start stamp r x := by
  intro o
  rw [services.run_perform]
  refine ⟨_, hstep o, ?_⟩
  simp only [services]
  cases (op.run.run o.state).1 with
  | ok a => exact hnext a
  | error fault => exact rfl

/-- What a submission does in an experiment. -/
theorem record_follows (x : Errand) (e : Experiment) :
    (do match ← service (s.tracker.recordRun (x.run e stamp)) with
        | .existing earlier => return earlier.id
        | .created =>
          Interruptible.once (activate stamp.run (start x.manifest (x.run e stamp)))
          return stamp.run : Interruptible (Orchestrator σ ρ) String).run.Follows s start stamp r
      (.recording x e) := by
  refine follows_service (k := Stage.recorded x e) (fun o => rfl) fun outcome => ?_
  cases outcome with
  | created => exact fun o => ⟨_, rfl, rfl⟩
  | existing earlier => exact rfl

def proceed (s : Services σ) (start : Manifest → Run → ρ) (stamp : Stamp) (r : Submission)
    (m : Manifest) : Interruptible (Orchestrator σ ρ) String := do
  let params ← bindParameters m.parameters r.params
  s.checkBodies m
  let e ← service (s.tracker.getOrCreateExperiment r.experiment none stamp.experiment stamp.now)
  let x : Errand := ⟨m, r.experiment, r.runName, params⟩
  match ← service (s.tracker.recordRun (x.run e stamp)) with
  | .existing earlier => return earlier.id
  | .created =>
    Interruptible.once (activate stamp.run (start m (x.run e stamp)))
    return stamp.run

theorem proceed_follows (m : Manifest) :
    (proceed s start stamp r m).run.Follows s start stamp r (.checked s r m) := by
  refine follows_outcome fun params hparams => follows_outcome fun _ _ => ?_
  exact follows_service (fun o => rfl) fun e => record_follows _ e

theorem obtain_inline_bind (now : Instant) (m : Manifest)
    (f : Manifest → Interruptible (Orchestrator σ ρ) α) :
    (obtain s now (.inline m) >>= f).run =
      ((liftM m.validate : Interruptible (Orchestrator σ ρ) Unit) >>= fun () =>
        service (s.manifests.store m now) >>= fun _ => f m).run := by
  rw [obtain]
  cases m.validate with
  | error fault => rfl
  | ok => exact congrArg (Resumption.act _) (funext fun stored => by cases stored <;> rfl)

theorem obtain_stored_bind (now : Instant) (digest : String)
    (f : Manifest → Interruptible (Orchestrator σ ρ) α) :
    (obtain s now (.stored digest) >>= f).run =
      (service (s.manifests.fetch digest) >>= fun m =>
        (liftM m.validate : Interruptible (Orchestrator σ ρ) Unit) >>= fun () => f m).run := by
  refine congrArg (Resumption.act _) (funext fun fetched => ?_)
  cases fetched with
  | error fault => rfl
  | ok m =>
    have hlift (x : Outcome Unit) : (((liftM x : Interruptible (Orchestrator σ ρ) Unit) >>= fun () =>
        return m) >>= f).run = ((liftM x : Interruptible _ Unit) >>= fun () => f m).run := by
      cases x <;> rfl
    exact hlift m.validate

/-- A submission follows its stages from the first one on. -/
theorem submit_follows :
    (submit s start stamp r).run.Follows s start stamp r (.first r) := by
  have hsubmit : submit s start stamp r =
      obtain s stamp.now r.source >>= proceed s start stamp r := rfl
  rw [hsubmit]
  cases hsource : r.source with
  | inline m =>
    rw [obtain_inline_bind, Stage.first, hsource]
    refine follows_outcome fun _ _ => ?_
    exact follows_service (fun o => rfl) fun _ => proceed_follows m
  | stored digest =>
    rw [obtain_stored_bind, Stage.first, hsource]
    refine follows_service (fun o => rfl) fun m => ?_
    exact follows_outcome fun _ _ => proceed_follows m

end Orchestrator
end

/-! ## What is known at a stage -/

/-- A submission asks for an errand with a manifest that is known, in the experiment of that name. -/
structure Submission.Pursues {σ : Type} (r : Submission) (v : View σ) (known : Set Manifest) (s : σ)
    (x : Errand) (e : Experiment) : Prop where
  asks : r.Asks x
  known : x.manifest ∈ known
  experiment : v.experiment? s x.experiment = some e

namespace Stage
variable {σ ρ : Type}

/-- The run of the submission is recorded under the key of the errand. -/
inductive Owns : Stage → Errand → Experiment → Prop
  | starting (x : Errand) (e : Experiment) : Owns (.starting x e) x e
  | started (x : Errand) (e : Experiment) : Owns (.started x e) x e

/-- What a stage tells about the submission and the state of the services. -/
def Apt (v : View σ) (known : Set Manifest) (stamp : Stamp) (r : Submission) (s : σ) :
    Stage → Prop
  | .storing m => r.source = .inline m
  | .fetching digest => r.source = .stored digest
  | .opening x => r.Asks x ∧ x.manifest ∈ known
  | .recording x e => r.Pursues v known s x e
  | .starting x e | .started x e =>
    r.Pursues v known s x e ∧ v.holder? s (x.key e) = some stamp.run
  | .found x e id => r.Pursues v known s x e ∧ v.holder? s (x.key e) = some id
  | .failed _ => True

variable {services : Services σ} {v : View σ} {known : Set Manifest} {stamp : Stamp}
  {r : Submission} {s s' : σ} {x y : Stage}

/-- Whatever others do, what has been known stays true. -/
theorem Apt.kept {keys : Set String} {manifests : Set Manifest} (h : x.Apt v known stamp r s)
    (moves : v.Moves keys manifests s s') : x.Apt v known stamp r s' := by
  have hpursues {z e} (hz : r.Pursues v known s z e) : r.Pursues v known s' z e :=
    { hz with experiment := moves.experiment _ _ hz.experiment }
  cases x with
  | storing | fetching | opening | failed => exact h
  | recording => exact hpursues h
  | starting | started | found => exact ⟨hpursues h.1, moves.held _ _ h.2⟩

theorem after_apt {α : Type} {result : Outcome α} {k : α → Stage}
    (h : ∀ a, result = .ok a → (k a).Apt v known stamp r s) :
    (after result k).Apt v known stamp r s := by
  cases result with
  | ok a => exact h a rfl
  | error => trivial

theorem checked_apt {m : Manifest} (source : r.source = .inline m ∨ r.source = .stored m.digest)
    (hm : m ∈ known) : (checked services r m).Apt v known stamp r s :=
  after_apt fun _ hparams => after_apt fun _ _ => ⟨⟨source, rfl, rfl, hparams⟩, hm⟩

theorem first_apt : (first r).Apt v known stamp r s := by
  rw [first]
  cases hsource : r.source with
  | inline m => exact after_apt fun _ _ => hsource
  | stored digest => exact hsource

/-- One step of a submission: what it changes, and what is known afterwards. -/
theorem Apt.step {start : Manifest → Run → ρ} {o o' : Orchestrator σ ρ}
    (faithful : services.Faithful v) (valid : v.Valid o.state)
    (hstored : ∀ d m, v.manifest? o.state d = some m → m ∈ known)
    (hinline : ∀ m, r.source = .inline m → m ∈ known) (h : x.Apt v known stamp r o.state)
    (hstep : x.step? services start stamp r o = some (y, o')) :
    v.Moves {key | ∃ z e, y.Owns z e ∧ z.key e = key} known o.state o'.state ∧
      y.Apt v known stamp r o'.state ∧ ∀ z e, x.Owns z e → y.Owns z e := by
  -- every stage but the last asks one service, and `faithful` says what its answer means
  cases x with
  | storing m =>
    rcases hrun : (services.manifests.store m stamp.now).run.run o.state with ⟨result, state⟩
    simp only [step?, hrun, Option.some.injEq, Prod.mk.injEq] at hstep
    obtain ⟨rfl, rfl⟩ := hstep
    refine ⟨(faithful.store valid hrun).mono (Set.empty_subset _) ?_, ?_, nofun⟩
    · exact Set.singleton_subset_iff.mpr (hinline m h)
    · exact after_apt fun _ _ => checked_apt (.inl h) (hinline m h)
  | fetching digest =>
    rcases hrun : (services.manifests.fetch digest).run.run o.state with ⟨result, state⟩
    simp only [step?, hrun, Option.some.injEq, Prod.mk.injEq] at hstep
    obtain ⟨rfl, rfl⟩ := hstep
    obtain ⟨moves, fetched⟩ := faithful.fetch valid hrun
    refine ⟨moves.mono (Set.empty_subset _) (Set.empty_subset _), ?_, nofun⟩
    refine after_apt fun m hm => after_apt fun _ _ => ?_
    have hmem := fetched m hm
    exact checked_apt (.inr (faithful.filed valid hmem ▸ h)) (hstored _ _ hmem)
  | opening x =>
    rcases hrun : (services.tracker.getOrCreateExperiment x.experiment none stamp.experiment
      stamp.now).run.run o.state with ⟨result, state⟩
    simp only [step?, hrun, Option.some.injEq, Prod.mk.injEq] at hstep
    obtain ⟨rfl, rfl⟩ := hstep
    obtain ⟨moves, opened⟩ := faithful.getOrCreate valid hrun
    refine ⟨moves.mono (Set.empty_subset _) (Set.empty_subset _), ?_, nofun⟩
    exact after_apt fun e he => ⟨h.1, h.2, opened e he⟩
  | recording x e =>
    rcases hrun : (services.tracker.recordRun (x.run e stamp)).run.run o.state with
      ⟨fault | _ | earlier, state⟩ <;>
    simp only [step?, hrun, Option.some.injEq, Prod.mk.injEq] at hstep <;>
    obtain ⟨rfl, rfl⟩ := hstep
    · have moves := faithful.unrecorded valid hrun
      exact ⟨moves.mono (Set.empty_subset _) (Set.empty_subset _), trivial, nofun⟩
    · obtain ⟨moves, -, held⟩ := faithful.created valid hrun
      refine ⟨moves.mono ?_ (Set.empty_subset _), ⟨Apt.kept (x := .recording x e) h moves, held⟩, nofun⟩
      -- the key that has been taken is the one that the new stage owns
      exact Set.singleton_subset_iff.mpr ⟨x, e, .starting x e, rfl⟩
    · obtain ⟨moves, held⟩ := faithful.existing valid hrun
      refine ⟨moves.mono (Set.empty_subset _) (Set.empty_subset _), ?_, nofun⟩
      exact ⟨Apt.kept (x := .recording x e) h moves, held⟩
  | starting x e =>
    simp only [step?, Option.some.injEq, Prod.mk.injEq] at hstep
    obtain ⟨rfl, rfl⟩ := hstep
    refine ⟨.refl valid, h, fun z e' howns => ?_⟩
    cases howns
    exact .started x e
  | started | found | failed => cases hstep

theorem after_ne_started {α : Type} {result : Outcome α} {k : α → Stage} {z : Errand}
    {e : Experiment} (h : ∀ a, k a ≠ .started z e) : after result k ≠ .started z e := by
  cases result with
  | ok a => exact h a
  | error => exact nofun

theorem checked_ne_started (m : Manifest) (z : Errand) (e : Experiment) :
    checked services r m ≠ .started z e :=
  after_ne_started fun _ => after_ne_started fun _ => nofun

theorem first_ne_started (z : Errand) (e : Experiment) : first r ≠ .started z e := by
  rw [first]
  cases r.source with
  | inline m => exact after_ne_started fun _ => nofun
  | stored digest => exact nofun

/-- Only the step that starts a run makes one active. -/
theorem step?_active {start : Manifest → Run → ρ} {o o' : Orchestrator σ ρ}
    (hstep : x.step? services start stamp r o = some (y, o')) :
    (o'.active = o.active ∧ ∀ z e, y ≠ .started z e) ∨
    ∃ z e, x = .starting z e ∧ y = .started z e ∧
      o'.active = o.active.insert stamp.run (start z.manifest (z.run e stamp)) := by
  cases x with
  | storing m =>
    cases hstep
    exact .inl ⟨rfl, fun z e => after_ne_started fun _ => checked_ne_started m z e⟩
  | fetching digest =>
    cases hstep
    refine .inl ⟨rfl, fun z e => after_ne_started fun m => ?_⟩
    exact after_ne_started fun _ => checked_ne_started m z e
  | opening x =>
    cases hstep
    exact .inl ⟨rfl, fun z e => after_ne_started fun _ => nofun⟩
  | recording x e =>
    cases hstep
    refine .inl ⟨rfl, fun z e' => after_ne_started fun outcome => ?_⟩
    cases outcome <;> exact nofun
  | starting x e =>
    cases hstep
    exact .inr ⟨x, e, rfl, rfl, rfl⟩
  | started | found | failed => cases hstep

/-! ## Submissions that are not interrupted -/

/-- One step of a submission, with the state in which it happens and the state afterwards. -/
def Advance (services : Services σ) (start : Manifest → Run → ρ) (stamp : Stamp) (r : Submission)
    (a b : Stage × Orchestrator σ ρ) : Prop :=
  a.1.step? services start stamp r a.2 = some b

section
variable (start : Manifest → Run → ρ) {o : Orchestrator σ ρ} {z : Errand}

theorem recording_succeeds (prompt : services.Prompt v) (valid : v.Valid o.state)
    (e : Experiment) : ∃ y o' id,
      Relation.ReflTransGen (Advance services start stamp r) (.recording z e, o) (y, o') ∧
        y.result? stamp = some (.ok id) := by
  obtain ⟨outcome, state, hrun⟩ := prompt.recordRun (z.run e stamp) valid
  have hstep : Advance services start stamp r (.recording z e, o)
      (recorded z e outcome, { o with state }) := by
    simp only [Advance, step?, hrun, after]
  cases outcome with
  | existing earlier => exact ⟨_, _, _, .single hstep, rfl⟩
  | created => exact ⟨_, _, _, .head hstep (.single rfl), rfl⟩

theorem checked_succeeds (faithful : services.Faithful v) (prompt : services.Prompt v)
    (valid : v.Valid o.state) (asks : r.Asks z) (bodies : services.checkBodies z.manifest = .ok ()) :
    ∃ y o' id, Relation.ReflTransGen (Advance services start stamp r)
      (checked services r z.manifest, o) (y, o') ∧ y.result? stamp = some (.ok id) := by
  have hchecked : checked services r z.manifest = .opening z := by
    rw [checked, asks.params, bodies, asks.experiment, asks.runName]
    rfl
  obtain ⟨e, state, hrun⟩ :=
    prompt.getOrCreate z.experiment none stamp.experiment stamp.now valid
  have hstep : Advance services start stamp r (.opening z, o)
      (.recording z e, { o with state }) := by
    simp only [Advance, step?, hrun, after]
  obtain ⟨y, o', id, hcourse, hresult⟩ :=
    recording_succeeds start (o := { o with state }) prompt (faithful.getOrCreate valid hrun).1.valid e
  rw [hchecked]
  exact ⟨y, o', id, .head hstep hcourse, hresult⟩

/-- A submission that asks for something with a good manifest succeeds when nothing interrupts it
and the services do not fail. -/
theorem first_succeeds (faithful : services.Faithful v) (prompt : services.Prompt v)
    (valid : v.Valid o.state) (asks : r.Asks z) (good : z.manifest.validate = .ok ())
    (bodies : services.checkBodies z.manifest = .ok ())
    (copy : r.source = .stored z.manifest.digest →
      v.manifest? o.state z.manifest.digest = some z.manifest) :
    ∃ y o' id, Relation.ReflTransGen (Advance services start stamp r) (first r, o) (y, o') ∧
      y.result? stamp = some (.ok id) := by
  rcases asks.source with hsource | hsource
  · obtain ⟨d, state, hrun⟩ := prompt.store z.manifest stamp.now valid
    have hstep : Advance services start stamp r (first r, o)
        (checked services r z.manifest, { o with state }) := by
      simp only [Advance, first, hsource, good, after, step?, hrun]
    obtain ⟨y, o', id, hcourse, hresult⟩ := checked_succeeds start (o := { o with state })
      faithful prompt (faithful.store valid hrun).valid asks bodies
    exact ⟨y, o', id, .head hstep hcourse, hresult⟩
  · obtain ⟨state, hrun⟩ := prompt.fetch valid (copy hsource)
    have hstep : Advance services start stamp r (first r, o)
        (checked services r z.manifest, { o with state }) := by
      simp only [Advance, first, hsource, good, after, step?, hrun]
    obtain ⟨y, o', id, hcourse, hresult⟩ := checked_succeeds start (o := { o with state })
      faithful prompt (faithful.fetch valid hrun).1.valid asks bodies
    exact ⟨y, o', id, .head hstep hcourse, hresult⟩

end

end Stage
end Workflow
