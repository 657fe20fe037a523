import Workflow.Proofs.Orchestrator.Timeline
import Workflow.Proofs.Orchestrator.Traffic
import Workflow.Proofs.Store.Footprint
import Workflow.Proofs.Tracker.Candid

/-!
# Refused requests leave no trace

Everything that can be wrong with a request is looked at before anything is recorded. When a request
is refused, the tracker is as it was, no body has been invoked and no run is active because of it.
The manifest store may have gained the manifest of the request, which is valid then, or lost a
damaged entry.
-/
namespace Workflow

variable {σ ρ α β : Type}

/-! ## What a computation does among others -/

/-- The operations of a computation that comes to a value, each with the state before it and the
state after it. In between others may have changed the state in any way. -/
inductive Resumption.Course : Resumption σ α → List (σ × σ) → α → Prop
  | done (value : α) : Course (.done value) [] value
  | step {c c' : Resumption σ α} {s s' : σ} {steps : List (σ × σ)} {value : α}
      (first : c.step? s = some (c', s')) (rest : c'.Course steps value) :
      Course c ((s, s') :: steps) value

/-! ## Submissions -/

/-- What the examination of a request does to the services: it stores a manifest that is valid, or
looks for one that is named. -/
inductive Services.Examined (s : Services σ) (now : Instant) : ManifestSource → σ → σ → Prop
  | stored {m : Manifest} {d : String} {a b : σ} (valid : m.validate = .ok ())
      (run : (s.manifests.store m now).run.run a = (.ok d, b)) : Examined s now (.inline m) a b
  | fetched (d : String) (a : σ) :
      Examined s now (.stored d) a ((s.manifests.fetch d).run.run a).2

namespace Stage
variable {s : Services σ} {start : Manifest → Run → ρ} {stamp : Stamp} {r : Submission}
  {x y : Stage} {o o' : Orchestrator σ ρ}

/-- The request is no longer refused. -/
def Passed : Stage → Prop
  | .storing _ | .fetching _ => False
  | .failed fault => fault.isRefusal = false
  | _ => True

theorem passed_after {result : Outcome α} {next : α → Stage} (h : NoRefusal result)
    (hnext : ∀ a, (next a).Passed) : (after result next).Passed := by
  cases result with
  | ok a => exact hnext a
  | error fault => exact h fault rfl

/-- What the tracker and the orchestrator do from then on is no refusal. -/
theorem Passed.step (h : x.Passed) (candid : s.tracker.Candid)
    (hstep : x.step? s start stamp r o = some (y, o')) : y.Passed := by
  cases x with
  | storing | fetching => exact h.elim
  | opening x =>
    cases hstep
    exact passed_after (candid.getOrCreateExperiment _ _ _ _ _) fun e => trivial
  | recording x e =>
    cases hstep
    refine passed_after (candid.recordRun _ _) fun outcome => ?_
    cases outcome <;> trivial
  | starting x e =>
    cases hstep
    trivial
  | started | found | failed => cases hstep

theorem Passed.result (h : x.Passed) {fault : Fault} (hresult : x.result? stamp = some (.error fault)) :
    fault.isRefusal = false := by
  cases x with
  | failed fault' =>
    cases hresult
    exact h
  | found | started | opening | recording | starting | storing | fetching => cases hresult

/-- A submission with its manifest has failed or is no longer refused. -/
theorem checked_cases (s : Services σ) (r : Submission) (m : Manifest) :
    (∃ fault, checked s r m = .failed fault) ∨ (checked s r m).Passed := by
  rw [checked]
  cases bindParameters m.parameters r.params with
  | error fault => exact .inl ⟨fault, rfl⟩
  | ok params =>
    cases s.checkBodies m with
    | error fault => exact .inl ⟨fault, rfl⟩
    | ok => exact .inr trivial

end Stage

section
variable {s : Services σ} {start : Manifest → Run → ρ} {stamp : Stamp} {r : Submission}
  {c : Resumption (Orchestrator σ ρ) (Outcome String)} {x : Stage} {fault : Fault}
  {steps : List (Orchestrator σ ρ × Orchestrator σ ρ)}

theorem Resumption.Follows.no_refusal (h : c.Follows s start stamp r x) (passed : x.Passed)
    (candid : s.tracker.Candid) (course : c.Course steps (.error fault)) :
    fault.isRefusal = false := by
  induction steps generalizing c x with
  | nil =>
    cases course
    exact passed.result h
  | cons _ rest ih =>
    cases course with
    | step first rest =>
      obtain ⟨y, hstep, hnext⟩ := h.step first
      exact ih hnext (passed.step candid hstep) rest

theorem Resumption.Follows.course_failed {result : Outcome String} {fault' : Fault}
    (h : c.Follows s start stamp r (.failed fault')) (course : c.Course steps result) :
    steps = [] := by
  cases course with
  | done => rfl
  | step first rest =>
    obtain ⟨y, hstep, -⟩ := h.step first
    cases hstep

/-- Where a result is missing, a step is taken. -/
theorem Resumption.Follows.course_step {result : Outcome String}
    (h : c.Follows s start stamp r x) (unfinished : x.result? stamp = none)
    (course : c.Course steps result) :
    ∃ (o : Orchestrator σ ρ) (y : Stage) (o' : Orchestrator σ ρ)
      (c' : Resumption (Orchestrator σ ρ) (Outcome String)) (rest : List _),
      x.step? s start stamp r o = some (y, o') ∧ steps = (o, o') :: rest ∧
        c'.Follows s start stamp r y ∧ c'.Course rest result := by
  cases course with
  | done =>
    rw [Resumption.Follows, unfinished] at h
    cases h
  | step first rest =>
    obtain ⟨y, hstep, hnext⟩ := h.step first
    exact ⟨_, y, _, _, _, hstep, rfl, hnext, rest⟩

/-- A submission that is refused with its manifest at hand is refused at once. -/
theorem Resumption.Follows.course_checked {m : Manifest}
    (h : c.Follows s start stamp r (.checked s r m)) (candid : s.tracker.Candid)
    (course : c.Course steps (.error fault)) (refusal : fault.isRefusal = true) : steps = [] := by
  obtain ⟨fault', hfailed⟩ | passed := Stage.checked_cases s r m
  · rw [hfailed] at h
    exact h.course_failed course
  · rw [h.no_refusal passed candid course] at refusal
    cases refusal

theorem Resumption.Follows.course_storing {m : Manifest}
    (h : c.Follows s start stamp r (.storing m)) (candid : s.Candid)
    (course : c.Course steps (.error fault)) (refusal : fault.isRefusal = true) :
    ∃ o d b, steps = [(o, { o with state := b })] ∧
      (s.manifests.store m stamp.now).run.run o.state = (.ok d, b) := by
  obtain ⟨o, y, o', c', rest, hstep, rfl, hnext, hrest⟩ := h.course_step rfl course
  rcases hrun : (s.manifests.store m stamp.now).run.run o.state with ⟨fault' | d, b⟩ <;>
  simp only [Stage.step?, hrun, Stage.after, Option.some.injEq, Prod.mk.injEq] at hstep <;>
  obtain ⟨rfl, rfl⟩ := hstep
  · have hmild : fault'.isRefusal = false :=
      candid.manifests m stamp.now o.state fault' (by rw [hrun])
    rw [hnext.no_refusal hmild candid.tracker hrest] at refusal
    cases refusal
  · rw [hnext.course_checked candid.tracker hrest refusal]
    exact ⟨o, d, b, rfl, hrun⟩

theorem Resumption.Follows.course_fetching {digest : String}
    (h : c.Follows s start stamp r (.fetching digest)) (candid : s.Candid)
    (course : c.Course steps (.error fault)) (refusal : fault.isRefusal = true) :
    ∃ o, steps =
      [(o, { o with state := ((s.manifests.fetch digest).run.run o.state).2 })] := by
  obtain ⟨o, y, o', c', rest, hstep, rfl, hnext, hrest⟩ := h.course_step rfl course
  rcases hrun : (s.manifests.fetch digest).run.run o.state with ⟨fault' | m, b⟩ <;>
  simp only [Stage.step?, hrun, Stage.after, Option.some.injEq, Prod.mk.injEq] at hstep <;>
  obtain ⟨rfl, rfl⟩ := hstep
  · rw [hnext.course_failed hrest]
    exact ⟨o, by rw [hrun]⟩
  · refine ⟨o, ?_⟩
    rw [hrun]
    cases hvalid : m.validate with
    | error fault' =>
      simp only [hvalid] at hnext
      rw [hnext.course_failed hrest]
    | ok =>
      simp only [hvalid] at hnext
      rw [hnext.course_checked candid.tracker hrest refusal]

/-- A submission that is refused has at most stored or fetched its manifest. -/
theorem Orchestrator.submit_refused (candid : s.Candid)
    (course : (submit s start stamp r).run.Course steps (.error fault))
    (refusal : fault.isRefusal = true) :
    steps = [] ∨ ∃ o b, steps = [(o, { o with state := b })] ∧
      s.Examined stamp.now r.source o.state b := by
  have follows : (submit s start stamp r).run.Follows s start stamp r (.first r) := submit_follows
  rw [Stage.first] at follows
  cases hsource : r.source with
  | inline m =>
    rw [hsource] at follows
    cases hvalid : m.validate with
    | error fault' =>
      simp only [hvalid, Stage.after] at follows
      exact .inl (follows.course_failed course)
    | ok =>
      simp only [hvalid, Stage.after] at follows
      obtain ⟨o, d, b, hsteps, hrun⟩ := follows.course_storing candid course refusal
      exact .inr ⟨o, b, hsteps, .stored hvalid hrun⟩
  | stored digest =>
    rw [hsource] at follows
    obtain ⟨o, hsteps⟩ := follows.course_fetching candid course refusal
    exact .inr ⟨o, _, hsteps, .fetched digest o.state⟩

end

/-! ## Runs that are executed at once -/

/-- When the operation gives a refusal, it has left the state as it was. -/
def RefusesFirst (op : Stateful σ α) : Prop :=
  ∀ a b fault, op.run.run a = (.error fault, b) → fault.isRefusal = true → b = a

theorem refusesFirst_outcome {x : Outcome α} {f : α → Stateful σ β}
    (h : ∀ a, RefusesFirst (f a)) : RefusesFirst ((liftM x : Stateful σ α) >>= f) := by
  cases x with
  | ok a => exact h a
  | error fault =>
    intro a b fault' hrun _
    cases hrun
    rfl

theorem refusesFirst_of_noRefusal {op : Stateful σ α}
    (h : ∀ a, NoRefusal (op.run.run a).1) : RefusesFirst op := by
  intro a b fault hrun refusal
  rw [h a fault (by rw [hrun])] at refusal
  cases refusal

theorem recordExecution_refusesFirst {s : Services σ} (candid : s.tracker.Candid) (stamp : Stamp)
    (m : Manifest) (supplied : Dict Scalar) :
    RefusesFirst (recordExecution s stamp m supplied) := by
  refine refusesFirst_outcome fun _ => refusesFirst_outcome fun params =>
    refusesFirst_outcome fun _ => refusesFirst_of_noRefusal fun a => ?_
  refine noRefusal_bind (candid.getOrCreateExperiment _ _ _ _ a) fun e a => ?_
  exact noRefusal_bind (candid.recordRun _ a) fun _ _ => noRefusal_ok _

namespace ActiveRun
variable {e : Engine σ}

/-- What ends a run that is being executed is no refusal. -/
def EndsMildly : Progress → Prop
  | .waiting _ => True
  | .over _ _ result => NoRefusal result

theorem endsMildly_await (p : Plan) (limit : Option Nat) (r : ActiveRun)
    {next : Nat → ActiveRun → StateM σ Progress}
    (hnext : ∀ due r, Yields (next due r) EndsMildly) :
    Yields (r.await e p limit next) EndsMildly := by
  unfold await
  split
  · exact yields_pure trivial
  · split_ifs
    · exact hnext _ _
    · exact yields_pure trivial

theorem endsMildly_go (candid : e.services.tracker.Candid) (p : Plan) (limit : Option Nat)
    (fuel time : Nat) (waited : Bool) (r : ActiveRun) :
    Yields (go e p limit fuel time waited r) EndsMildly := by
  induction fuel using Nat.strong_induction_on generalizing time waited r with
  | _ fuel ih =>
    rw [go]
    refine Yields.bind (P := fun _ => True) (fun _ => trivial) fun r _ => ?_
    split_ifs
    · refine Yields.bind (candid.updateRun _ _ _) fun written hwritten => yields_pure ?_
      cases written with
      | ok => exact noRefusal_ok _
      | error fault => exact noRefusal_error (hwritten fault rfl)
    · cases fuel with
      | zero => exact yields_pure trivial
      | succ fuel =>
        exact endsMildly_await p limit r fun due r => ih fuel fuel.lt_succ_self due true r

theorem endsMildly_progress (candid : e.services.tracker.Candid) (limit : Option Nat) (time : Nat)
    (r : ActiveRun) : Yields (r.progress e limit time) EndsMildly := by
  rw [progress, TaskGraph.topologicalOrder]
  cases r.manifest.graph.topologicalOrder? with
  | none => exact yields_pure (noRefusal_error rfl)
  | some order =>
    simp only
    split_ifs
    · exact endsMildly_go candid _ limit _ time false r
    · exact endsMildly_await _ limit r fun due r => endsMildly_go candid _ limit _ due true r
    · refine Yields.bind (candid.updateRun _ _ _) fun written hwritten => ?_
      cases written with
      | ok => exact endsMildly_go candid _ limit _ time false _
      | error fault => exact yields_pure (noRefusal_error (hwritten fault rfl))

end ActiveRun

/-- A refused execution leaves everything as it was. -/
theorem Timeline.execute_refused {e : Engine σ} (candid : e.services.tracker.Candid)
    {stamp : Stamp} {m : Manifest} {supplied : Dict Scalar} {t t' : Timeline σ} {fault : Fault}
    (h : t.execute e stamp m supplied = (.error fault, t')) (refusal : fault.isRefusal = true) :
    t' = t := by
  unfold execute onState at h
  rcases hrecorded : (recordExecution e.services stamp m supplied).run.run t.orchestrator.state
    with ⟨fault' | run, b⟩
  · rw [hrecorded] at h
    cases h
    rw [recordExecution_refusesFirst candid stamp m supplied _ _ _ hrecorded refusal]
  · rw [hrecorded] at h
    have hmild := ActiveRun.endsMildly_progress candid none t.clock (.start m run) b
    rcases hprogress : ((ActiveRun.start m run).progress e none t.clock).run b
      with ⟨r | ⟨time, waited, result⟩, c⟩
    · simp only [hprogress] at h
      cases h
    · rw [hprogress] at hmild
      simp only [hprogress] at h
      cases h
      rw [hmild fault rfl] at refusal
      cases refusal

/-! ## What is left of a refused request -/

/-- The examination of a request leaves everything beside a store in memory as it is. The store gains
the manifest at most. -/
theorem Services.Examined.memory {τ : Type} {s : Services σ} {p : Part τ σ}
    {q : Part MemoryStore σ} (hs : s.manifests = MemoryStore.store.within q) (apart : q.Apart p)
    {now : Instant} {source : ManifestSource} {a b : σ} (h : s.Examined now source a b) :
    p.get b = p.get a ∧ (q.get b = q.get a ∨ ∃ m, source = .inline m ∧ m.validate = .ok () ∧
      (q.get a).entries.get? m.digest = none ∧
      q.get b = ⟨(q.get a).entries.insert m.digest ⟨now, m.digest, m⟩⟩) := by
  cases h with
  | @stored m d a b valid run =>
    have hrun := q.run_perform (MemoryStore.put m now) a
    rw [hs] at run
    obtain rfl := congrArg Prod.snd (hrun.symm.trans run)
    refine ⟨apart.get_other _ _, ?_⟩
    simp only [apart.get_set]
    exact (MemoryStore.run_put_or m now (q.get a)).imp_right fun ⟨hfree, hnew⟩ =>
      ⟨m, rfl, valid, hfree, hnew⟩
  | fetched d a =>
    have hget := q.run_perform (MemoryStore.store.get? d) a
    rw [ManifestStore.state_fetch, hs, ManifestStore.within, hget]
    exact ⟨apart.get_other _ _, .inl (apart.get_set _ _)⟩

/-- A store in files gains the manifest or loses a damaged entry at most, and what is in a directory
beside it stays as it is. -/
theorem Services.Examined.files {s : Services FileTracker.Disk} {f : FileStore}
    (hs : s.manifests = f.store) {now : Instant} {source : ManifestSource}
    {a b : FileTracker.Disk} (h : s.Examined now source a b) :
    (b.tree = a.tree ∨
      (∃ m, source = .inline m ∧ m.validate = .ok () ∧
        f.Gains (toString a.serial) m now a.tree b.tree) ∨
      ∃ d, source = .stored d ∧ f.Drops d a.tree b.tree) ∧
    ∀ dir q, FileStore.Beside dir (a.tree.spot f.root) → dir <:+ q →
      b.tree.entry q = a.tree.entry q := by
  cases h with
  | @stored m d a b valid run =>
    rw [hs] at run
    obtain hsame | hgains := FileStore.gains_of_run_store run
    · exact ⟨.inl hsame, fun _ _ _ _ => by rw [hsame]⟩
    · refine ⟨.inr (.inl ⟨m, rfl, valid, hgains⟩), fun dir q hdir hq => ?_⟩
      exact hgains.beside (FileTracker.marks_toString _).1 hdir hq
  | fetched d a =>
    rw [hs]
    obtain hsame | hdrops := FileStore.drops_of_run_fetch f d a
    · exact ⟨.inl hsame, fun _ _ _ _ => by rw [hsame]⟩
    · exact ⟨.inr (.inr ⟨d, rfl, hdrops⟩), fun dir q hdir hq => hdrops.beside hdir hq⟩

/-- A request that is refused has changed nothing but the manifest store: a submission has at most
stored or looked for its manifest, whatever others did meanwhile, and an execution not even that.
This needs trackers and stores that do not refuse requests when they write, and those of the library
do not. What is stored is valid, and what is lost was damaged; the rest of the state is as it was, in
particular the part or the directory of a tracker. -/
theorem refused_without_trace :
    (∀ {σ : Type} (s : Services σ), s.Candid →
      (∀ {ρ : Type} (start : Manifest → Run → ρ) (stamp : Stamp) (r : Submission)
        (steps : List (Orchestrator σ ρ × Orchestrator σ ρ)) (fault : Fault),
        (Orchestrator.submit s start stamp r).run.Course steps (.error fault) →
        fault.isRefusal = true →
          steps = [] ∨ ∃ o b, steps = [(o, { o with state := b })] ∧
            s.Examined stamp.now r.source o.state b) ∧
      ∀ (e : Engine σ), e.services = s → ∀ stamp m supplied t t' fault,
        Timeline.execute e stamp m supplied t = (.error fault, t') → fault.isRefusal = true →
          t' = t) ∧
    ((∀ {σ : Type} (p : Part MemoryTracker σ), (MemoryTracker.tracker.within p).Candid) ∧
      (∀ setup, (Rehearsal.watched setup).Candid) ∧
      (∀ t : FileTracker, t.tracker.Candid) ∧
      (∀ {σ : Type} (q : Part MemoryStore σ), (MemoryStore.store.within q).Candid) ∧
      ∀ f : FileStore, f.store.Candid) ∧
    (∀ {σ τ : Type} (s : Services σ) (p : Part τ σ) (q : Part MemoryStore σ),
      s.manifests = MemoryStore.store.within q → q.Apart p →
      ∀ now source a b, s.Examined now source a b → p.get b = p.get a ∧
        (q.get b = q.get a ∨ ∃ m, source = .inline m ∧ m.validate = .ok () ∧
          (q.get a).entries.get? m.digest = none ∧
          q.get b = ⟨(q.get a).entries.insert m.digest ⟨now, m.digest, m⟩⟩)) ∧
    ∀ (s : Services FileTracker.Disk) (f : FileStore), s.manifests = f.store →
      ∀ now source a b, s.Examined now source a b →
        (b.tree = a.tree ∨
          (∃ m, source = .inline m ∧ m.validate = .ok () ∧
            f.Gains (toString a.serial) m now a.tree b.tree) ∨
          ∃ d, source = .stored d ∧ f.Drops d a.tree b.tree) ∧
        (∀ dir q, FileStore.Beside dir (a.tree.spot f.root) → dir <:+ q →
          b.tree.entry q = a.tree.entry q) ∧
        ∀ state : String, f.root = Path.join state "manifests" →
          FileStore.Beside (a.tree.spot (Path.join state "tracker")) (a.tree.spot f.root) := by
  refine ⟨fun s candid => ⟨?_, ?_⟩, ⟨?_, Rehearsal.candid_watched, FileTracker.candid, ?_,
    FileStore.candid⟩, ?_, fun s f hs now source a b h => ⟨(h.files hs).1, (h.files hs).2, ?_⟩⟩
  · intro ρ start stamp r steps fault course refusal
    exact Orchestrator.submit_refused candid course refusal
  · rintro e rfl stamp m supplied t t' fault h refusal
    exact Timeline.execute_refused candid.tracker h refusal
  · exact fun p => MemoryTracker.candid.within p
  · exact fun q => MemoryStore.candid.within q
  · exact fun s p q hs apart now source a b h => h.memory hs apart
  · rintro state hroot
    rw [hroot]
    exact FileStore.beside_tracker a.tree.cwd state

/-- A submission with a parameter that is not declared stores its manifest and does no more, and an
execution with that parameter does nothing. -/
theorem unexpected_parameter_without_trace :
    let m := Batch.fitManifest []
    let r : Submission := ⟨.inline m, "models", "nightly", Dict.empty.insert "speed" (.int 3)⟩
    let stamp : Stamp := ⟨"exp1", "run1", "execution1", ⟨0, 0⟩⟩
    let o : Orchestrator Rehearsal ActiveRun := ⟨Rehearsal.empty, Dict.empty⟩
    let b : Rehearsal := { Rehearsal.empty with
      manifests := ⟨Dict.empty.insert m.digest ⟨stamp.now, m.digest, m⟩⟩ }
    (Orchestrator.submit Batch.fitEngine.services ActiveRun.start stamp r).run.Course
        [(o, { o with state := b })] (.error (.unexpectedParameter "speed")) ∧
      Batch.fitEngine.services.Examined stamp.now r.source o.state b ∧
      b.tracker = MemoryTracker.empty ∧
      Timeline.execute Batch.fitEngine stamp m r.params ⟨o, 0⟩ =
        (.error (.unexpectedParameter "speed"), ⟨o, 0⟩) := by
  intro m r stamp o b
  obtain ⟨requests, ⟨-, hwatched, -, hstore, -⟩, hmemory, -⟩ := refused_without_trace
  obtain ⟨hsubmit, hexecute⟩ := requests Batch.fitEngine.services ⟨hwatched _, hstore _⟩
  have course : (Orchestrator.submit Batch.fitEngine.services ActiveRun.start stamp r).run.Course
      [(o, { o with state := b })] (.error (.unexpectedParameter "speed")) := .step rfl (.done _)
  obtain hnone | ⟨o', b', hsteps, examined⟩ := hsubmit _ _ _ _ _ course rfl
  · cases hnone
  · obtain ⟨rfl, hafter⟩ := Prod.ext_iff.mp (List.cons.inj hsteps).1
    obtain rfl : b = b' := congrArg Orchestrator.state hafter
    have hsame := (hmemory _ Rehearsal.trackerPart Rehearsal.manifestsPart rfl
      Rehearsal.parts_apart.2 _ _ _ _ examined).1
    refine ⟨course, examined, hsame, ?_⟩
    have hrefused : (Timeline.execute Batch.fitEngine stamp m r.params ⟨o, 0⟩).1 =
      .error (.unexpectedParameter "speed") := rfl
    exact Prod.ext hrefused (hexecute _ rfl _ _ _ _ _ _ (Prod.ext hrefused rfl) rfl)

end Workflow
