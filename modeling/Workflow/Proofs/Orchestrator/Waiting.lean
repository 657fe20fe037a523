import Workflow.Proofs.Orchestrator.Office
import Workflow.Proofs.Store.Footprint

/-!
# Waiting for runs

A wait for a run that has become active here ends, and with a run whose status is terminal. A wait
for any other run does not wait at all: it gives what the tracker has.
-/
namespace Workflow

variable {ι κ σ : Type}

namespace Office
variable {b : Office ι κ σ} {k : b.engine.services.tracker.Keeping} {s : σ} {t t' : Affairs ι κ σ}
  {stage : ι → Stage} {j : κ}

/-! ## A wait for a run that has been launched -/

/-- What becomes of a wait for a run that has been launched. -/
inductive Assured (b : Office ι κ σ) (j : κ) (t : Affairs ι κ σ) : Prop
  | waiting (rest : t.waiting j = b.wait j)
  | reading (rest : t.waiting j = b.reading j) (gone : t.now.isActive (b.awaited j) = false)
  | done {run : Run} (rest : t.waiting j = .done (.ok run)) (same : run.id = b.awaited j)
      (terminal : run.status.isTerminal = true)

theorem Assured.kept (h : b.Assured j t) (rest : t'.waiting j = t.waiting j)
    (inactive : t.now.isActive (b.awaited j) = false → t'.now.isActive (b.awaited j) = false) :
    b.Assured j t' := by
  cases h with
  | waiting hrest => exact .waiting (rest.trans hrest)
  | reading hrest gone => exact .reading (rest.trans hrest) (inactive gone)
  | done hrest same terminal => exact .done (rest.trans hrest) same terminal

theorem Assured.result (h : b.Assured j t) {result : Outcome Run}
    (hdone : t.waiting j = .done result) :
    ∃ run, result = .ok run ∧ run.id = b.awaited j ∧ run.status.isTerminal = true := by
  cases h with
  | waiting hrest => cases hrest.symm.trans hdone
  | reading hrest => cases hrest.symm.trans hdone
  | @done run hrest same terminal =>
    cases hrest.symm.trans hdone
    exact ⟨run, rfl, same, terminal⟩

variable [DecidableEq ι] [DecidableEq κ]

theorem Assured.step (h : b.Assured j t) (proper : b.Proper k s) (horder : t.Orderly b k s stage)
    (hid : b.awaited j ∈ t.launched) (hstep : b.Step k t t') : b.Assured j t' := by
  have hinactive := hstep.inactive proper.distinct horder hid
  cases hstep with
  | @wait i rest now step =>
    by_cases hi : j = i
    case neg => exact h.kept (Function.update_of_ne hi ..) hinactive
    subst hi
    cases h with
    | waiting hrest =>
      rw [hrest, step?_wait] at step
      split_ifs at step with hactive
      cases step
      exact .reading (Function.update_self ..) (Bool.eq_false_of_not_eq_true hactive)
    | reading hrest gone =>
      rw [hrest, step?_reading] at step
      cases step
      obtain ⟨stored, hsame, held, terminal⟩ := (horder.settled _ hid).resolve_left (by simp [gone])
      refine .done ((Function.update_self ..).trans ?_) hsame terminal
      rw [← hsame, k.read held]
    | done hrest =>
      rw [hrest] at step
      cases step
  | submit | cancel | work | leave | other => exact h.kept rfl hinactive

/-! ### Its end -/

/-- The work on a run goes on while nothing else happens. -/
theorem Reaches.leads {id : String} {w : Stint} (active : t.now.active.get? id = some w)
    {x : Stint.Phase × σ} (h : w.assignment.Leads b.engine b.bodies (w.phase, t.now.state) x) :
    ∃ t', b.Reaches k t t' ∧ t'.now.active.get? id = some { w with phase := x.1 } ∧
      t'.now.state = x.2 ∧ t'.waiting = t.waiting := by
  induction h with
  | refl => exact ⟨t, .refl, active, rfl, rfl⟩
  | @tail x y _ step ih =>
    obtain ⟨t', hreach, hactive, hstate, hwaiting⟩ := ih
    obtain ⟨phase, state⟩ := y
    rw [← Prod.mk.eta (p := x), ← hstate] at step
    exact ⟨_, .tail hreach (.work hactive step), Dict.get?_insert_self .., rfl, hwaiting⟩

theorem exists_read (rest : t.waiting j = b.reading j) :
    ∃ t', b.Reaches k t t' ∧ t'.waiting j =
      .done ((b.engine.services.tracker.run (b.awaited j)).run.run t.now.state).1 := by
  have hstep := step?_reading b j t.now
  rw [← rest] at hstep
  exact ⟨_, .single (.wait hstep), Function.update_self ..⟩

theorem exists_waited (rest : t.waiting j = b.wait j)
    (gone : t.now.isActive (b.awaited j) = false) :
    ∃ t', b.Reaches k t t' ∧ t'.waiting j =
      .done ((b.engine.services.tracker.run (b.awaited j)).run.run t.now.state).1 := by
  have hstep := step?_wait b j t.now
  rw [← rest, gone] at hstep
  obtain ⟨t', hreach, hdone⟩ := exists_read (k := k) (b := b) (j := j)
    (t := { t with waiting := Function.update t.waiting j (b.reading j) }) (Function.update_self ..)
  exact ⟨t', .head (.wait hstep) hreach, hdone⟩

/-- A wait can always come to its end. -/
theorem Assured.ends (h : b.Assured j t) (proper : b.Proper k s) (horder : t.Orderly b k s stage) :
    ∃ t' result, b.Reaches k t t' ∧ t'.waiting j = .done result := by
  cases h with
  | done rest => exact ⟨t, _, .refl, rest⟩
  | reading rest =>
    obtain ⟨t', hreach, hdone⟩ := exists_read rest
    exact ⟨t', _, hreach, hdone⟩
  | waiting rest =>
    cases hactive : t.now.isActive (b.awaited j) with
    | false =>
      obtain ⟨t', hreach, hdone⟩ := exists_waited rest hactive
      exact ⟨t', _, hreach, hdone⟩
    | true =>
      obtain ⟨w, hw⟩ := Dict.contains_iff.mp hactive
      obtain ⟨-, -, hsound⟩ := horder.active _ w hw
      obtain ⟨s', hleads⟩ := hsound.leaves proper.ends
      obtain ⟨t₁, hreach, hw', -, hwaiting⟩ := Reaches.leads hw hleads
      have hgone : (t₁.now.active.erase (b.awaited j)).contains (b.awaited j) = false := by
        rw [Dict.contains, Dict.get?_erase, if_pos rfl]
        rfl
      obtain ⟨t₂, hrest, hdone⟩ := exists_waited (k := k) (b := b) (j := j)
        (t := { t₁ with now := { t₁.now with active := t₁.now.active.erase (b.awaited j) } })
        ((congrFun hwaiting j).trans rest) hgone
      exact ⟨t₂, _, hreach.trans (.head (.leave hw' rfl) hrest), hdone⟩

/-! ### Waiting for runs that have been submitted -/

/-- However submissions, waits, cancellations and the work on the runs are interleaved: a submission
that succeeds gives the id of a run that has been launched here, or of one that the tracker had. A
wait for a run that has been launched before comes to its end, and then with that run and a terminal
status. A wait for any other run ends at once, with what the tracker has. -/
theorem Reaches.waited (proper : b.Proper k s) (h : b.Reaches k (b.begin s) t) :
    (∀ i id, t.submitting i = .done (.ok id) → id ∈ t.launched ∨ b.Met k s i id) ∧
    (∀ j, b.awaited j ∈ t.launched → t.waiting j = b.wait j → ∀ t', b.Reaches k t t' →
      (∀ result, t'.waiting j = .done result →
        ∃ run, result = .ok run ∧ run.id = b.awaited j ∧ run.status.isTerminal = true) ∧
      ∃ t'' result, b.Reaches k t' t'' ∧ t''.waiting j = .done result) ∧
    ∀ id, id ∉ t.launched → (Orchestrator.wait b.engine.services id).run.run? t.now =
      some (((b.engine.services.tracker.run id).run.run t.now.state).1,
        { t.now with state := ((b.engine.services.tracker.run id).run.run t.now.state).2 }) := by
  obtain ⟨stage, horder⟩ := h.kept proper
  refine ⟨fun i id hdone => horder.returned hdone, fun j hid hrest t' hreach => ?_, fun id hid => ?_⟩
  · have hassured : b.Assured j t' ∧ b.awaited j ∈ t'.launched := by
      induction hreach with
      | refl => exact ⟨.waiting hrest, hid⟩
      | tail hreach hstep ih =>
        obtain ⟨_, horder'⟩ := Reaches.kept proper (h.trans hreach)
        exact ⟨ih.1.step proper horder' ih.2 hstep, hstep.launched_subset ih.2⟩
    obtain ⟨_, horder'⟩ := Reaches.kept proper (h.trans hreach)
    exact ⟨fun result hdone => hassured.1.result hdone, hassured.1.ends proper horder'⟩
  · refine Orchestrator.run?_wait _ (Bool.eq_false_of_not_eq_true fun hactive => ?_)
    exact hid (horder.mem_launched hactive)

/-! ## Submissions that nobody interrupts -/

/-- A submission goes on alone, from one stage and state to another. -/
theorem Reaches.advance {i : ι} {x y : Stage × Orchestrator σ Stint} (hnow : t.now = x.2)
    (follows : (t.submitting i).Follows b.engine.services Stint.start (b.stamp i) (b.request i) x.1)
    (course : Relation.ReflTransGen
      (Stage.Advance b.engine.services Stint.start (b.stamp i) (b.request i)) x y) :
    ∃ t', b.Reaches k t t' ∧ t'.now = y.2 ∧ t'.waiting = t.waiting ∧
      (t'.submitting i).Follows b.engine.services Stint.start (b.stamp i) (b.request i) y.1 := by
  induction course with
  | refl => exact ⟨t, .refl, hnow, rfl, follows⟩
  | @tail y z _ hstep ih =>
    obtain ⟨t', hreach, hnow', hwaiting, hfollows⟩ := ih
    obtain ⟨stage, o⟩ := z
    obtain ⟨rest, hrest, hfollows'⟩ := hfollows.exists_step hstep
    rw [← hnow'] at hrest
    refine ⟨_, .tail hreach (.submit hrest), rfl, hwaiting, ?_⟩
    simpa only [Function.update_self] using hfollows'

end Office

/-! ## Services that mind their own business -/

/-- Whatever the services are asked for, they leave the runs alone that it is not about, and a run is
held from its creation on. -/
structure Services.Considerate (s : Services σ) (k : s.tracker.Keeping) : Prop where
  fetch : ∀ id d a, k.Undisturbed id a ((s.manifests.fetch d).run.run a).2
  store : ∀ id m now a, k.Undisturbed id a ((s.manifests.store m now).run.run a).2
  getOrCreateExperiment : ∀ id name description fresh now a, k.Undisturbed id a
    ((s.tracker.getOrCreateExperiment name description fresh now).run.run a).2
  find : ∀ id other a, k.Undisturbed id a ((s.tracker.run other).run.run a).2
  recordRun : ∀ id r a, r.id ≠ id → k.Undisturbed id a ((s.tracker.recordRun r).run.run a).2
  update : ∀ id other u a, other ≠ id → k.Undisturbed id a ((s.tracker.update other u).run.run a).2
  created : ∀ {r a b}, (s.tracker.recordRun r).run.run a = (.ok .created, b) → k.Holds b r

theorem Stage.leaves_of_step? {ρ : Type} {s : Services σ} {k : s.tracker.Keeping}
    (hs : s.Considerate k) {start : Manifest → Run → ρ} {stamp : Stamp} {r : Submission}
    {x y : Stage} {o o' : Orchestrator σ ρ} (hstep : x.step? s start stamp r o = some (y, o'))
    {id : String} (hid : stamp.run ≠ id) : k.Undisturbed id o.state o'.state := by
  cases x with
  | storing m =>
    cases hstep
    exact hs.store id m stamp.now o.state
  | fetching d =>
    cases hstep
    exact hs.fetch id d o.state
  | opening z =>
    cases hstep
    exact hs.getOrCreateExperiment id _ _ _ _ o.state
  | recording z e =>
    cases hstep
    exact hs.recordRun id (z.run e stamp) o.state hid
  | starting z e =>
    cases hstep
    exact .refl
  | started | found | failed => cases hstep

namespace Office
variable [DecidableEq ι] [DecidableEq κ] {b : Office ι κ σ}
  {k : b.engine.services.tracker.Keeping} {s : σ} {t : Affairs ι κ σ}

theorem Reaches.follows (h : b.Reaches k (b.begin s) t) : ∀ i, ∃ stage,
    (t.submitting i).Follows b.engine.services Stint.start (b.stamp i) (b.request i) stage := by
  induction h with
  | refl => exact fun _ => ⟨_, Orchestrator.submit_follows⟩
  | @tail t _ _ hstep ih =>
    cases hstep with
    | @submit j rest now step =>
      obtain ⟨stage, hfollows⟩ := ih j
      obtain ⟨y, -, hfollows'⟩ := hfollows.step step
      exact (Function.forall_update_iff t.submitting fun i rest => ∃ stage,
        rest.Follows b.engine.services Stint.start (b.stamp i) (b.request i) stage).mpr
          ⟨⟨y, hfollows'⟩, fun i _ => ih i⟩
    | wait | cancel | work | leave | other => exact ih

/-- Such services do their part if the tracker is reliable. -/
theorem proper_of_considerate (considerate : b.engine.services.Considerate k) (reliable : k.Reliable)
    (distinct : Function.Injective fun i => (b.stamp i).run)
    (ends : ∀ i, ∃ ending, b.bodies i ending) (s : σ) : b.Proper k s where
  distinct := distinct
  ends := ends
  served t h := {
    submit := fun {i} _ _ step j hj => by
      obtain ⟨stage, hfollows⟩ := h.follows i
      obtain ⟨y, hstep, -⟩ := hfollows.step step
      exact Stage.leaves_of_step? considerate hstep fun hrun => hj (distinct hrun).symm
    created := fun _ hrun => considerate.created hrun
    find := fun id i => considerate.find _ id _
    takes := fun _ _ => reliable.takes _ _ _
    tell := fun _ _ i hi => considerate.update _ _ _ _ hi }

end Office

/-! ## Rehearsals -/

namespace MemoryTracker
variable {m : MemoryTracker} {id : String}

theorem state_find (m : MemoryTracker) (id : String) : ((find id).run.run m).2 = m := by
  cases h : m.runs.get? id with
  | none => rw [find_missing h]
  | some r => rw [find_known h]

theorem runs_getOrCreateExperiment (m : MemoryTracker) (name : String) (description : Option String)
    (fresh : String) (now : Instant) :
    ((getOrCreateExperiment name description fresh now).run.run m).2.runs = m.runs := by
  cases h : m.experiments.get? name with
  | none => rw [getOrCreateExperiment_new h]
  | some e => rw [getOrCreateExperiment_known h]

theorem get?_recordRun {r : Run} (h : r.id ≠ id) :
    ((recordRun r).run.run m).2.runs.get? id = m.runs.get? id := by
  cases hkey : m.keys.get? r.idempotencyKey with
  | none =>
    rw [recordRun_new hkey]
    exact Dict.get?_insert_of_ne h.symm
  | some holder =>
    cases hrun : m.runs.get? holder with
    | none => rw [recordRun_lost hkey hrun]
    | some other => rw [recordRun_known hkey hrun]

theorem get?_update {other : String} (h : other ≠ id) (u : Run.Update) :
    ((tracker.update other u).run.run m).2.runs.get? id = m.runs.get? id := by
  have hinsert (r : Run) : (m.runs.insert other r).get? id = m.runs.get? id :=
    Dict.get?_insert_of_ne h.symm
  cases hrun : m.runs.get? other with
  | none =>
    cases u with
    | node node state => exact congrArg (·.2.runs.get? id) (updateNode_missing hrun)
    | status status now => exact congrArg (·.2.runs.get? id) (updateRun_missing hrun)
  | some r =>
    cases u with
    | node node state =>
      cases hnode : r.setNode? node state with
      | none => exact congrArg (·.2.runs.get? id) (updateNode_unknown hrun hnode)
      | some r' =>
        exact (congrArg (·.2.runs.get? id) (updateNode_known hrun hnode)).trans (hinsert _)
    | status status now =>
      exact (congrArg (·.2.runs.get? id) (updateRun_known hrun)).trans (hinsert _)

end MemoryTracker

namespace Rehearsal
variable {setup : RehearsalSetup} {r : Rehearsal}

/-- An update that is watched is one of the tracker in memory, or it is made to fail. -/
theorem tracker_update (setup : RehearsalSetup) (id : String) (u : Run.Update) (r : Rehearsal) :
    (((watched setup).update id u).run.run r).2.tracker = r.tracker ∨
      (((watched setup).update id u).run.run r).2.tracker =
        ((MemoryTracker.tracker.update id u).run.run r.tracker).2 := by
  -- an update that is made to fail does not come to the tracker in memory
  by_cases hadmits : Admits setup u
  case neg =>
    obtain ⟨fault, hfails⟩ := update_watched_of_not_admits (r := r) hadmits id
    exact .inl (congrArg (·.2.tracker) hfails)
  refine .inr ?_
  have hnoted (op : Stateful Rehearsal Unit) (entry : Update) :
      ((do op; noteUpdate id entry : Stateful Rehearsal Unit).run.run r).2.tracker =
        (op.run.run r).2.tracker := by
    rcases hop : op.run.run r with ⟨fault | _, r'⟩
    · rw [Stateful.run_bind_error hop]
    · rw [Stateful.run_bind_ok hop]
      rfl
  have hwithin : (((MemoryTracker.tracker.within trackerPart).update id u).run.run r).2.tracker =
      ((MemoryTracker.tracker.update id u).run.run r.tracker).2 := by
    rw [Tracker.update_within, Part.run_perform]
    rfl
  rw [← hwithin]
  cases u with
  | node node state =>
    have hpasses : setup.failingNodes.contains node = false := hadmits
    simp only [Tracker.update, watched, hpasses]
    exact hnoted _ _
  | status status now =>
    have hpasses : setup.failingStatuses.contains status.name = false := hadmits
    simp only [Tracker.update, watched, hpasses]
    exact hnoted _ _

/-- The services of a rehearsal mind their own business. -/
theorem considerate (setup : RehearsalSetup) (origin : Instant) :
    (engine setup origin).services.Considerate (keeping setup) := by
  have hstate {α : Type} (op : Stateful MemoryTracker α) (r : Rehearsal) :
      ((trackerPart.perform op).run.run r).2.tracker = (op.run.run r.tracker).2 := by
    rw [Part.run_perform]
    rfl
  have hbeside {α : Type} (op : Stateful MemoryStore α) (r : Rehearsal) :
      ((manifestsPart.perform op).run.run r).2.tracker = r.tracker := by
    rw [Part.run_perform]
    rfl
  have hkept {id : String} {r r' : Rehearsal}
      (h : r'.tracker.runs.get? id = r.tracker.runs.get? id) :
      (keeping setup).Undisturbed id r r' := by
    rintro run rfl held
    exact h.trans held
  -- operations of the store keep the tracker; those of the tracker keep the runs they are not about
  constructor
  case fetch =>
    intro id d r
    refine hkept ?_
    rw [ManifestStore.state_fetch]
    exact congrArg (·.runs.get? id) (hbeside (MemoryStore.store.get? d) r)
  case store =>
    exact fun id m now r => hkept (congrArg (·.runs.get? id) (hbeside (MemoryStore.put m now) r))
  case getOrCreateExperiment =>
    intro id name description fresh now r
    refine hkept (congrArg (·.get? id) (Eq.trans ?_ (r.tracker.runs_getOrCreateExperiment name
      description fresh now)))
    exact congrArg MemoryTracker.runs (hstate _ r)
  case find =>
    intro id other r
    exact hkept (congrArg (·.runs.get? id) ((hstate _ r).trans (r.tracker.state_find other)))
  case recordRun =>
    intro id run r hne
    exact hkept ((congrArg (·.runs.get? id) (hstate _ r)).trans (MemoryTracker.get?_recordRun hne))
  case update =>
    intro id other u r hne
    rcases tracker_update setup other u r with heq | heq
    · exact hkept (congrArg (·.runs.get? id) heq)
    · exact hkept ((congrArg (·.runs.get? id) heq).trans (MemoryTracker.get?_update hne u))
  case created =>
    intro run r r' h
    have hrun := (trackerPart.run_perform (MemoryTracker.recordRun run) r).symm.trans h
    obtain ⟨hanswer, rfl⟩ := Prod.ext_iff.mp hrun
    exact MemoryTracker.keeping_created (Prod.ext hanswer rfl)

end Rehearsal

/-! ## A run that is submitted and waited for -/

namespace Office

/-- One submission, and waits for two runs. -/
def nightly : Office Unit Bool Rehearsal where
  engine := Batch.fitEngine
  bodies _ _ := True
  request _ := ⟨.inline (Batch.fitManifest []), "models", "nightly", Dict.empty⟩
  stamp _ := ⟨"exp1", "run1", "execution1", ⟨0, 0⟩⟩
  awaited
    | false => "run0"
    | true => "run1"

/-- How the runs of its rehearsal are kept. -/
abbrev nightlyKeeping : nightly.engine.services.tracker.Keeping := Rehearsal.keeping _

theorem nightly_proper (s : Rehearsal) : nightly.Proper nightlyKeeping s :=
  proper_of_considerate (Rehearsal.considerate _ _) (Rehearsal.keeping_reliable rfl rfl)
    (fun _ _ _ => rfl) (fun _ => ⟨.returned Dict.empty, trivial⟩) s

attribute [local irreducible] Blake3.hexDigest

/-- What the submission meets when nobody interrupts it. -/
theorem nightly_records {s : Rehearsal} {e : Experiment} {m m' : MemoryTracker}
    {outcome : RecordOutcome}
    (opened : (MemoryTracker.getOrCreateExperiment "models" none "exp1" ⟨0, 0⟩).run.run s.tracker =
      (.ok e, m))
    (recorded : (MemoryTracker.recordRun ((Batch.fitting []).run e (nightly.stamp ()))).run.run m =
      (.ok outcome, m')) :
    ∃ manifests, Relation.ReflTransGen
      (Stage.Advance nightly.engine.services Stint.start (nightly.stamp ()) (nightly.request ()))
      (.first (nightly.request ()), ⟨s, Dict.empty⟩)
      (.recorded (Batch.fitting []) e outcome, ⟨{ s with tracker := m', manifests }, Dict.empty⟩) := by
  obtain ⟨manifests, hput, -⟩ := MemoryStore.run_put (Batch.fitManifest []) ⟨0, 0⟩ s.manifests
  have hstored : (nightly.engine.services.manifests.store (Batch.fitManifest []) ⟨0, 0⟩).run.run s =
      (.ok (Batch.fitManifest []).digest, { s with manifests }) :=
    (Rehearsal.manifestsPart.run_perform _ s).trans
      (congrArg (fun out => (out.1, Rehearsal.manifestsPart.set out.2 s)) hput)
  have htracker {α : Type} {op : Stateful MemoryTracker α} {result : Outcome α} {r : Rehearsal}
      {m : MemoryTracker} (h : op.run.run r.tracker = (result, m)) :
      (Rehearsal.trackerPart.perform op).run.run r = (result, { r with tracker := m }) :=
    (Rehearsal.trackerPart.run_perform op r).trans
      (congrArg (fun out => (out.1, Rehearsal.trackerPart.set out.2 r)) h)
  have hopened := htracker (r := { s with manifests }) opened
  have hrecorded := htracker (r := { s with tracker := m, manifests }) recorded
  refine ⟨manifests, .head (b := (.opening (Batch.fitting []), ⟨{ s with manifests }, Dict.empty⟩)) ?_
    (.head (b := (.recording (Batch.fitting []) e, ⟨{ s with tracker := m, manifests }, Dict.empty⟩)) ?_
      (.single ?_))⟩
  · have hfirst : Stage.first (nightly.request ()) = .storing (Batch.fitManifest []) := rfl
    have hchecked : Stage.checked nightly.engine.services (nightly.request ())
      (Batch.fitManifest []) = .opening (Batch.fitting []) := rfl
    have hnow : (nightly.stamp ()).now = ⟨0, 0⟩ := rfl
    simp only [Stage.Advance, hfirst, Stage.step?, hnow, hstored, Stage.after, hchecked]
  · exact congrArg (fun out : Outcome Experiment × Rehearsal =>
      some (Stage.after out.1 fun e => .recording (Batch.fitting []) e,
        (⟨out.2, Dict.empty⟩ : Orchestrator Rehearsal Stint))) hopened
  · exact congrArg (fun out : Outcome RecordOutcome × Rehearsal =>
      some (Stage.after out.1 (Stage.recorded (Batch.fitting []) e),
        (⟨out.2, Dict.empty⟩ : Orchestrator Rehearsal Stint))) hrecorded

/-- The submission goes on alone from the beginning. -/
theorem nightly_advances {s : Rehearsal} {y : Stage} {o : Orchestrator Rehearsal Stint}
    {result : Outcome String} (course : Relation.ReflTransGen
      (Stage.Advance nightly.engine.services Stint.start (nightly.stamp ()) (nightly.request ()))
      (.first (nightly.request ()), ⟨s, Dict.empty⟩) (y, o))
    (hresult : y.result? (nightly.stamp ()) = some result) :
    ∃ t, nightly.Reaches nightlyKeeping (nightly.begin s) t ∧ t.now = o ∧
      t.waiting = nightly.wait ∧ t.submitting () = .done result := by
  obtain ⟨t, hreach, hnow, hwaiting, hfollows⟩ :=
    Reaches.advance (k := nightlyKeeping) (t := nightly.begin s) (i := ()) rfl
      Orchestrator.submit_follows course
  exact ⟨t, hreach, hnow, hwaiting, hfollows.eq_done o hresult⟩

/-- The run of the submission is launched, and a wait for it comes to its end. -/
theorem nightly_waited : nightly.Proper nightlyKeeping .empty ∧
    ∃ t, nightly.Reaches nightlyKeeping (nightly.begin .empty) t ∧
      t.submitting () = .done (.ok "run1") ∧ t.waiting true = nightly.wait true ∧
      ∃ t' run, nightly.Reaches nightlyKeeping t t' ∧ t'.waiting true = .done (.ok run) ∧
        run.id = "run1" ∧ run.status.isTerminal = true := by
  obtain ⟨manifests, course⟩ := nightly_records (s := .empty)
    (MemoryTracker.getOrCreateExperiment_new rfl) (MemoryTracker.recordRun_new rfl)
  obtain ⟨t, hreach, hnow, hwaiting, hdone⟩ := nightly_advances (course.tail rfl) rfl
  have hlaunched : "run1" ∈ t.launched := by
    obtain ⟨_, horder⟩ := hreach.kept (nightly_proper _)
    refine horder.mem_launched ?_
    rw [hnow]
    rfl
  have hwait := (Reaches.waited (nightly_proper _) hreach).2.1 true hlaunched (congrFun hwaiting true)
  obtain ⟨t', result, hreach', hresult⟩ := (hwait t .refl).2
  obtain ⟨run, rfl, hid, hterminal⟩ := (hwait t' hreach').1 result hresult
  exact ⟨nightly_proper _, t, hreach, hdone, congrFun hwaiting true, t', run, hreach', hresult, hid,
    hterminal⟩

/-- A run that was submitted to another orchestrator and has not come to its end. -/
def unfinished : Run :=
  ((Batch.fitting []).run ⟨"exp1", "models", none, ⟨0, 0⟩⟩
    ⟨"exp1", "run0", "execution0", ⟨0, 0⟩⟩).setStatus .running ⟨0, 0⟩

def interrupted : Rehearsal :=
  { Rehearsal.empty with
    tracker := ⟨Dict.empty.insert "models" ⟨"exp1", "models", none, ⟨0, 0⟩⟩,
      Dict.empty.insert "run0" unfinished,
      Dict.empty.insert unfinished.idempotencyKey "run0"⟩ }

/-- The submission gives the id of that run. A later wait gives it as the tracker has it, and that
has not come to its end. -/
theorem nightly_unwaited : nightly.Proper nightlyKeeping interrupted ∧
    ∃ t, nightly.Reaches nightlyKeeping (nightly.begin interrupted) t ∧
      t.submitting () = .done (.ok "run0") ∧ t.waiting false = nightly.wait false ∧
      ∃ t' run, nightly.Reaches nightlyKeeping t t' ∧ t'.waiting false = .done (.ok run) ∧
        run.status.isTerminal = false := by
  have hrun : interrupted.tracker.runs.get? "run0" = some unfinished := Dict.get?_insert_self ..
  obtain ⟨manifests, course⟩ := nightly_records (s := interrupted)
    (MemoryTracker.getOrCreateExperiment_known (Dict.get?_insert_self ..))
    (MemoryTracker.recordRun_known (Dict.get?_insert_self ..) hrun)
  obtain ⟨t, hreach, hnow, hwaiting, hdone⟩ := nightly_advances course rfl
  obtain ⟨t', hreach', hresult⟩ := exists_waited (k := nightlyKeeping) (congrFun hwaiting false)
    (hnow ▸ rfl)
  have held : nightlyKeeping.Holds t.now.state unfinished := by
    rw [hnow]
    exact hrun
  have hid : unfinished.id = "run0" := rfl
  have hread : ((nightly.engine.services.tracker.run "run0").run.run t.now.state).1 =
      .ok unfinished := by
    rw [← hid]
    exact nightlyKeeping.read held
  exact ⟨nightly_proper _, t, hreach, hdone, congrFun hwaiting false, t', unfinished, hreach',
    hresult.trans (congrArg Resumption.done hread), rfl⟩

end Office
end Workflow
