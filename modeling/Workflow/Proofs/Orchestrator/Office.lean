import Workflow.Proofs.Orchestrator.Stint
import Workflow.Proofs.Orchestrator.Traffic

/-!
# An orchestrator at work

Submissions, waits and cancellations meet at one orchestrator, and each can be interrupted by the
others and by the work on the runs in the background wherever it waits for the services. At every
point a run that has become active here is being worked on, or its status is terminal.
-/
namespace Workflow

variable {ι κ σ : Type}

/-! ## Stages -/

namespace Stage
variable {ρ α : Type} {s : Services σ} {start : Manifest → Run → ρ} {stamp : Stamp} {r : Submission}
  {x y : Stage} {o o' : Orchestrator σ ρ}

/-- The tracker has not been asked to record the run, or it has failed to. -/
def Unrecorded : Stage → Prop
  | .starting .. | .started .. | .found .. => False
  | _ => True

theorem unrecorded_after {result : Outcome α} {next : α → Stage} (h : ∀ a, (next a).Unrecorded) :
    (after result next).Unrecorded := by
  cases result with
  | ok a => exact h a
  | error => trivial

theorem unrecorded_checked (s : Services σ) (r : Submission) (m : Manifest) :
    (checked s r m).Unrecorded :=
  unrecorded_after fun _ => unrecorded_after fun _ => trivial

theorem unrecorded_first (r : Submission) : (first r).Unrecorded := by
  rw [first]
  cases r.source with
  | inline m => exact unrecorded_after fun _ => trivial
  | stored digest => trivial

/-- A step that gets past the recording of the run goes by what the tracker answers, or starts the
run. -/
theorem step?_cases (hstep : x.step? s start stamp r o = some (y, o')) :
    y.Unrecorded ∨
    (∃ z e outcome, (s.tracker.recordRun (z.run e stamp)).run.run o.state = (.ok outcome, o'.state) ∧
      y = recorded z e outcome) ∨
    ∃ z e, y = .started z e := by
  cases x with
  | storing m =>
    cases hstep
    exact .inl (unrecorded_after fun _ => unrecorded_checked s r m)
  | fetching d =>
    cases hstep
    exact .inl (unrecorded_after fun m => unrecorded_after fun _ => unrecorded_checked s r m)
  | opening z =>
    cases hstep
    exact .inl (unrecorded_after fun _ => trivial)
  | recording z e =>
    rcases hrun : (s.tracker.recordRun (z.run e stamp)).run.run o.state with ⟨fault | outcome, state⟩ <;>
    simp only [step?, hrun, Option.some.injEq, Prod.mk.injEq] at hstep <;>
    obtain ⟨rfl, rfl⟩ := hstep
    · exact .inl trivial
    · exact .inr (.inl ⟨z, e, outcome, hrun, rfl⟩)
  | starting z e =>
    cases hstep
    exact .inr (.inr ⟨z, e, rfl⟩)
  | started | found | failed => cases hstep

variable {z : Errand} {e : Experiment} {id : String}

theorem created_of_step? (hstep : x.step? s start stamp r o = some (.starting z e, o')) :
    (s.tracker.recordRun (z.run e stamp)).run.run o.state = (.ok .created, o'.state) := by
  rcases step?_cases hstep with h | ⟨z', e', outcome, hrun, heq⟩ | ⟨z', e', heq⟩
  · exact h.elim
  · cases outcome <;> cases heq
    exact hrun
  · cases heq

theorem existing_of_step? (hstep : x.step? s start stamp r o = some (.found z e id, o')) :
    ∃ earlier, (s.tracker.recordRun (z.run e stamp)).run.run o.state =
      (.ok (.existing earlier), o'.state) ∧ earlier.id = id := by
  rcases step?_cases hstep with h | ⟨z', e', outcome, hrun, heq⟩ | ⟨z', e', heq⟩
  · exact h.elim
  · cases outcome <;> cases heq
    exact ⟨_, hrun, rfl⟩
  · cases heq

end Stage

namespace Orchestrator

/-- The state after a request for a cancellation. -/
theorem state_cancel {ρ : Type} (s : Services σ) (mark : ρ → ρ) (id : String)
    (o : Orchestrator σ ρ) : ((cancel s mark id).run.run o).2 =
      if o.isActive id then { o with active := o.active.modify id mark }
      else { o with state := ((s.tracker.run id).run.run o.state).2 } := by
  rw [cancel, Stateful.run_get_bind]
  split_ifs
  · rfl
  · have hrun := services.run_perform (s.tracker.run id) o
    rcases hfind : (services.perform (s.tracker.run id)).run.run o with ⟨fault | r, o'⟩
    · rw [Stateful.run_bind_error hfind]
      exact congrArg Prod.snd (hfind.symm.trans hrun)
    · rw [Stateful.run_bind_ok hfind]
      exact congrArg Prod.snd (hfind.symm.trans hrun)

/-- A wait for a run that is not executed here does not wait. -/
theorem run?_wait {ρ : Type} (s : Services σ) {id : String} {o : Orchestrator σ ρ}
    (inactive : o.isActive id = false) : (wait s id).run.run? o =
      some (((s.tracker.run id).run.run o.state).1,
        { o with state := ((s.tracker.run id).run.run o.state).2 }) := by
  have hwait : (wait s id).run.run? o =
      if (decide ¬ o.isActive id = true) = true then
        (service (s.tracker.run id) : Interruptible (Orchestrator σ ρ) Run).run.run? o
      else none := rfl
  rw [hwait, inactive, service, Interruptible.once, ExceptT.run_mk, Resumption.run?,
    services.run_perform]
  rfl

end Orchestrator

/-! ## An orchestrator and those who call it -/

/-- The submissions and the waits that are made, and what they are made with. -/
structure Office (ι κ σ : Type) where
  engine : Engine σ
  bodies : Bodies
  request : ι → Submission
  stamp : ι → Stamp
  awaited : κ → String

/-- How far the calls have got, the state of the orchestrator, and the ids of all runs that have
become active so far. -/
structure Affairs (ι κ σ : Type) where
  submitting : ι → Resumption (Orchestrator σ Stint) (Outcome String)
  waiting : κ → Resumption (Orchestrator σ Stint) (Outcome Run)
  now : Orchestrator σ Stint
  launched : Set String

namespace Office

/-- A wait that has not begun. -/
def wait (b : Office ι κ σ) (j : κ) : Resumption (Orchestrator σ Stint) (Outcome Run) :=
  (Orchestrator.wait b.engine.services (b.awaited j)).run

/-- The rest of a wait whose run is not executed here, or no longer. -/
def reading (b : Office ι κ σ) (j : κ) : Resumption (Orchestrator σ Stint) (Outcome Run) :=
  (Orchestrator.service (b.engine.services.tracker.run (b.awaited j))).run

/-- How far a wait can have got. -/
inductive Attends (b : Office ι κ σ) (j : κ) :
    Resumption (Orchestrator σ Stint) (Outcome Run) → Prop
  | waiting : Attends b j (b.wait j)
  | reading : Attends b j (b.reading j)
  | done (result : Outcome Run) : Attends b j (.done result)

/-- A new orchestrator, and calls that are about to begin. -/
def begin (b : Office ι κ σ) (s : σ) : Affairs ι κ σ where
  submitting i := (Orchestrator.submit b.engine.services Stint.start (b.stamp i) (b.request i)).run
  waiting := b.wait
  now := ⟨s, Dict.empty⟩
  launched := ∅

/-- One step: a submission or a wait carries out its next operation, somebody asks for a
cancellation, the work on a run goes on or ends, or others change the services. Among these are the
bodies; they leave the runs alone that are submitted here. -/
inductive Step [DecidableEq ι] [DecidableEq κ] (b : Office ι κ σ)
    (k : b.engine.services.tracker.Keeping) (t : Affairs ι κ σ) : Affairs ι κ σ → Prop
  | submit {i : ι} {rest : Resumption (Orchestrator σ Stint) (Outcome String)}
      {now : Orchestrator σ Stint} (step : (t.submitting i).step? t.now = some (rest, now)) :
      Step b k t { t with
        submitting := Function.update t.submitting i rest
        now
        launched := t.launched ∪ {id | now.isActive id = true} }
  | wait {j : κ} {rest : Resumption (Orchestrator σ Stint) (Outcome Run)}
      {now : Orchestrator σ Stint} (step : (t.waiting j).step? t.now = some (rest, now)) :
      Step b k t { t with waiting := Function.update t.waiting j rest, now }
  | cancel (id : String) :
      Step b k t { t with
        now := ((Orchestrator.cancel b.engine.services Stint.cancelled id).run.run t.now).2 }
  | work {id : String} {w : Stint} {phase : Stint.Phase} {state : σ}
      (active : t.now.active.get? id = some w)
      (step : w.assignment.Step b.engine b.bodies (w.phase, t.now.state) (phase, state)) :
      Step b k t { t with now := ⟨state, t.now.active.insert id { w with phase }⟩ }
  | leave {id : String} {w : Stint} (active : t.now.active.get? id = some w)
      (leaving : w.phase = .leaving) :
      Step b k t { t with now := { t.now with active := t.now.active.erase id } }
  | other {state : σ} (leaves : ∀ i, k.Undisturbed (b.stamp i).run t.now.state state) :
      Step b k t { t with now := { t.now with state } }

/-! ### Steps of a wait -/

section
variable {b : Office ι κ σ} {j : κ} {o o' : Orchestrator σ Stint}
  {rest rest' : Resumption (Orchestrator σ Stint) (Outcome Run)} {t t' : Affairs ι κ σ}

theorem step?_wait (b : Office ι κ σ) (j : κ) (o : Orchestrator σ Stint) : (b.wait j).step? o =
    if o.isActive (b.awaited j) then none else some (b.reading j, o) := by
  have hstep : (b.wait j).step? o =
      if (decide ¬ o.isActive (b.awaited j) = true) = true then some (b.reading j, o) else none := rfl
  rw [hstep]
  cases o.isActive (b.awaited j) <;> rfl

theorem step?_reading (b : Office ι κ σ) (j : κ) (o : Orchestrator σ Stint) :
    (b.reading j).step? o =
      some (.done ((b.engine.services.tracker.run (b.awaited j)).run.run o.state).1,
        { o with state := ((b.engine.services.tracker.run (b.awaited j)).run.run o.state).2 }) := by
  rw [reading, Orchestrator.service, Interruptible.once, ExceptT.run_mk, Resumption.step?,
    Orchestrator.services.run_perform]
  rfl

/-- All that a wait does is to look for its run. -/
theorem Attends.step (h : b.Attends j rest) (hstep : rest.step? o = some (rest', o')) :
    b.Attends j rest' ∧ o'.active = o.active ∧ (o'.state = o.state ∨
      o'.state = ((b.engine.services.tracker.run (b.awaited j)).run.run o.state).2) := by
  cases h with
  | waiting =>
    rw [step?_wait] at hstep
    split_ifs at hstep
    cases hstep
    exact ⟨.reading, rfl, .inl rfl⟩
  | reading =>
    rw [step?_reading] at hstep
    cases hstep
    exact ⟨.done _, rfl, .inr rfl⟩
  | done => cases hstep

end

/-! ### What can come of it -/

variable [DecidableEq ι] [DecidableEq κ]

/-- What can come of a state of affairs. -/
abbrev Reaches (b : Office ι κ σ) (k : b.engine.services.tracker.Keeping) :
    Affairs ι κ σ → Affairs ι κ σ → Prop := Relation.ReflTransGen (b.Step k)

/-- The submission has come to record its run, and the tracker had another one with its key. -/
def Met (b : Office ι κ σ) (k : b.engine.services.tracker.Keeping) (s : σ) (i : ι) (id : String) :
    Prop :=
  ∃ t now, b.Reaches k (b.begin s) t ∧
    (t.submitting i).step? t.now = some (.done (.ok id), now) ∧
    ∃ (x : Errand) (e : Experiment) (earlier : Run),
      (b.engine.services.tracker.recordRun (x.run e (b.stamp i))).run.run t.now.state =
        (.ok (.existing earlier), now.state) ∧ earlier.id = id

/-- What the services do for those who are here at some point. A submission leaves the runs of others
alone, and the tracker has its run from the creation on. So does whoever looks for a run. What the
work on a run tells the tracker is taken, and leaves other runs alone. -/
structure Served (b : Office ι κ σ) (k : b.engine.services.tracker.Keeping) (t : Affairs ι κ σ) :
    Prop where
  submit : ∀ {i rest now}, (t.submitting i).step? t.now = some (rest, now) →
    ∀ j, j ≠ i → k.Undisturbed (b.stamp j).run t.now.state now.state
  created : ∀ {i rest now} {x : Errand} {e : Experiment},
    (t.submitting i).step? t.now = some (rest, now) →
    (b.engine.services.tracker.recordRun (x.run e (b.stamp i))).run.run t.now.state =
      (.ok .created, now.state) → k.Holds now.state (x.run e (b.stamp i))
  find : ∀ id i, k.Undisturbed (b.stamp i).run t.now.state
    ((b.engine.services.tracker.run id).run.run t.now.state).2
  takes : ∀ {id w u}, t.now.active.get? id = some w → w.phase.Tells u → k.Takes id u t.now.state
  tell : ∀ {id w u}, t.now.active.get? id = some w → w.phase.Tells u →
    ∀ i, id ≠ (b.stamp i).run → k.Undisturbed (b.stamp i).run t.now.state
      ((b.engine.services.tracker.update id u).run.run t.now.state).2

/-- What is relied on: ids that are given out once, services that do their part at all times, and
bodies that can end. -/
structure Proper (b : Office ι κ σ) (k : b.engine.services.tracker.Keeping) (s : σ) : Prop where
  distinct : Function.Injective fun i => (b.stamp i).run
  served : ∀ t, b.Reaches k (b.begin s) t → b.Served k t
  ends : ∀ i, ∃ ending, b.bodies i ending

end Office

/-! ## What holds at every point -/

namespace Affairs
variable [DecidableEq ι] [DecidableEq κ] {b : Office ι κ σ}
  {k : b.engine.services.tracker.Keeping} {s : σ} {t t' : Affairs ι κ σ} {stage : ι → Stage}

/-- The submissions are at their stages, a run that has been launched is worked on or settled, and
the tracker has those that are about to be launched. -/
structure Orderly (b : Office ι κ σ) (k : b.engine.services.tracker.Keeping) (s : σ)
    (t : Affairs ι κ σ) (stage : ι → Stage) : Prop where
  follows : ∀ i, (t.submitting i).Follows b.engine.services Stint.start (b.stamp i) (b.request i)
    (stage i)
  starting : ∀ i x e, stage i = .starting x e → k.Holds t.now.state (x.run e (b.stamp i))
  started : ∀ i x e, stage i = .started x e → (b.stamp i).run ∈ t.launched
  found : ∀ i x e id, stage i = .found x e id → b.Met k s i id
  launched : ∀ id ∈ t.launched, ∃ i x e, stage i = .started x e ∧ (b.stamp i).run = id
  active : ∀ id w, t.now.active.get? id = some w → id ∈ t.launched ∧ w.assignment.run.id = id ∧
    w.assignment.Sound b.engine k b.bodies (w.phase, t.now.state)
  settled : ∀ id ∈ t.launched, t.now.isActive id = true ∨ k.Settled id t.now.state
  attends : ∀ j, b.Attends j (t.waiting j)

theorem orderly_begin (b : Office ι κ σ) (k : b.engine.services.tracker.Keeping) (s : σ) :
    Orderly b k s (b.begin s) fun i => .first (b.request i) := by
  have hfirst {i y} (h : Stage.first (b.request i) = y) : y.Unrecorded :=
    h ▸ Stage.unrecorded_first (b.request i)
  constructor
  case follows => exact fun _ => Orchestrator.submit_follows
  case starting => exact fun i x e h => (hfirst h).elim
  case started => exact fun i x e h => (hfirst h).elim
  case found => exact fun i x e id h => (hfirst h).elim
  case launched => exact fun _ h => h.elim
  case active => exact fun id w h => nomatch (Dict.get?_empty id).symm.trans h
  case settled => exact fun _ h => h.elim
  case attends => exact fun _ => .waiting

/-- A step that is not about the runs that are submitted here. -/
theorem Orderly.framed (h : Orderly b k s t stage) {now : Orchestrator σ Stint}
    {waiting : κ → Resumption (Orchestrator σ Stint) (Outcome Run)}
    (attends : ∀ j, b.Attends j (waiting j)) (active : now.active = t.now.active)
    (leaves : ∀ i, k.Undisturbed (b.stamp i).run t.now.state now.state) :
    Orderly b k s { t with waiting, now } stage where
  follows := h.follows
  starting i x e hi := leaves i _ rfl (h.starting i x e hi)
  started := h.started
  found := h.found
  launched := h.launched
  active id w hw := by
    obtain ⟨hid, hrun, hsound⟩ := h.active id w ((congrArg (·.get? id) active).symm.trans hw)
    obtain ⟨i, x, e, -, rfl⟩ := h.launched id hid
    exact ⟨hid, hrun, hsound.undisturbed (hrun.symm ▸ leaves i)⟩
  settled id hid := by
    obtain ⟨i, x, e, -, rfl⟩ := h.launched id hid
    exact (h.settled _ hid).imp (Orchestrator.isActive_congr active _).trans
      fun hsettled => hsettled.undisturbed (leaves i)
  attends := attends

/-- A step that is about one run that has been launched. -/
theorem Orderly.revised (h : Orderly b k s t stage)
    (distinct : Function.Injective fun i => (b.stamp i).run) {id : String} (hid : id ∈ t.launched)
    {now : Orchestrator σ Stint}
    (leaves : ∀ i, id ≠ (b.stamp i).run → k.Undisturbed (b.stamp i).run t.now.state now.state)
    (others : ∀ other, id ≠ other → now.active.get? other = t.now.active.get? other)
    (active : ∀ w, now.active.get? id = some w → w.assignment.run.id = id ∧
      w.assignment.Sound b.engine k b.bodies (w.phase, now.state))
    (settled : now.isActive id = true ∨ k.Settled id now.state) :
    Orderly b k s { t with now } stage where
  follows := h.follows
  starting i x e hi := by
    obtain ⟨j, y, e', hj, rfl⟩ := h.launched id hid
    refine leaves i (fun hrun => ?_) _ rfl (h.starting i x e hi)
    rw [distinct hrun, hi] at hj
    cases hj
  started := h.started
  found := h.found
  launched := h.launched
  active other w hw := by
    by_cases hother : id = other
    · subst hother
      exact ⟨hid, active w hw⟩
    · obtain ⟨hmem, hrun, hsound⟩ := h.active other w ((others other hother).symm.trans hw)
      obtain ⟨j, y, e, -, rfl⟩ := h.launched other hmem
      exact ⟨hmem, hrun, hsound.undisturbed (hrun.symm ▸ leaves j hother)⟩
  settled other hmem := by
    by_cases hother : id = other
    · exact hother ▸ settled
    · obtain ⟨j, y, e, -, rfl⟩ := h.launched other hmem
      refine (h.settled _ hmem).imp (fun hactive => ?_)
        fun hsettled => hsettled.undisturbed (leaves j hother)
      exact (congrArg Option.isSome (others _ hother)).trans hactive
  attends := h.attends

theorem Orderly.mem_launched (h : Orderly b k s t stage) {id : String}
    (hid : t.now.isActive id = true) : id ∈ t.launched := by
  obtain ⟨w, hw⟩ := Dict.contains_iff.mp hid
  exact (h.active id w hw).1

section
variable {i : ι} {y : Stage} {rest : Resumption (Orchestrator σ Stint) (Outcome String)}
  {now : Orchestrator σ Stint}

/-- A step of a submission that launches no run. -/
theorem Orderly.quiet (h : Orderly b k s t stage) (served : b.Served k t)
    (reached : b.Reaches k (b.begin s) t)
    (step : (t.submitting i).step? t.now = some (rest, now))
    (hstep : (stage i).step? b.engine.services Stint.start (b.stamp i) (b.request i) t.now =
      some (y, now))
    (follows : rest.Follows b.engine.services Stint.start (b.stamp i) (b.request i) y)
    (active : now.active = t.now.active) (hy : ∀ x e, y ≠ .started x e) :
    Orderly b k s { t with submitting := Function.update t.submitting i rest, now }
      (Function.update stage i y) := by
  -- a submission that has started its run has nothing left to do
  have hi (x e) : stage i ≠ .started x e := by
    intro hi
    rw [hi] at hstep
    cases hstep
  -- the step is about the run of this submission only
  have hleaves {j} (hj : j ≠ i) : k.Undisturbed (b.stamp j).run t.now.state now.state :=
    served.submit step j hj
  have hlaunched {id} (hid : id ∈ t.launched) :
      ∃ j x e, j ≠ i ∧ stage j = .started x e ∧ (b.stamp j).run = id := by
    obtain ⟨j, x, e, hj, hrun⟩ := h.launched id hid
    exact ⟨j, x, e, fun hji => hi x e (hji ▸ hj), hj, hrun⟩
  constructor
  case follows =>
    exact related_update t.submitting stage (fun j rest y => rest.Follows b.engine.services
      Stint.start (b.stamp j) (b.request j) y) follows fun j _ => h.follows j
  case starting =>
    refine (Function.forall_update_iff stage fun j z =>
      ∀ x e, z = .starting x e → k.Holds now.state (x.run e (b.stamp j))).mpr ⟨?_, ?_⟩
    · rintro x e rfl
      exact served.created step (Stage.created_of_step? hstep)
    · exact fun j hj x e hx => hleaves hj _ rfl (h.starting j x e hx)
  case started =>
    exact (Function.forall_update_iff stage fun j z =>
      ∀ x e, z = .started x e → (b.stamp j).run ∈ t.launched).mpr
        ⟨fun x e hx => absurd hx (hy x e), fun j _ => h.started j⟩
  case found =>
    refine (Function.forall_update_iff stage fun j z =>
      ∀ x e id, z = .found x e id → b.Met k s j id).mpr ⟨?_, fun j _ => h.found j⟩
    rintro x e id rfl
    obtain ⟨earlier, hrun, hid⟩ := Stage.existing_of_step? hstep
    rw [follows.eq_done t.now rfl] at step
    exact ⟨t, now, reached, step, x, e, earlier, hrun, hid⟩
  case launched =>
    intro id hid
    obtain ⟨j, x, e, hj, hx, hrun⟩ := hlaunched hid
    exact ⟨j, x, e, (Function.update_of_ne hj ..).trans hx, hrun⟩
  case active =>
    intro id w hw
    obtain ⟨hid, hrun, hsound⟩ := h.active id w ((congrArg (·.get? id) active).symm.trans hw)
    obtain ⟨j, x, e, hj, -, rfl⟩ := hlaunched hid
    exact ⟨hid, hrun, hsound.undisturbed (hrun.symm ▸ hleaves hj)⟩
  case settled =>
    intro id hid
    obtain ⟨j, x, e, hj, -, rfl⟩ := hlaunched hid
    exact (h.settled _ hid).imp (Orchestrator.isActive_congr active _).trans
      fun hsettled => hsettled.undisturbed (hleaves hj)
  case attends => exact h.attends

/-- The step that launches a run. -/
theorem Orderly.launch (h : Orderly b k s t stage) {x : Errand} {e : Experiment}
    (hi : stage i = .starting x e)
    (follows : rest.Follows b.engine.services Stint.start (b.stamp i) (b.request i) (.started x e)) :
    Orderly b k s
      { t with
        submitting := Function.update t.submitting i rest
        now := { t.now with
          active := t.now.active.insert (b.stamp i).run (.start x.manifest (x.run e (b.stamp i))) }
        launched := insert (b.stamp i).run t.launched }
      (Function.update stage i (.started x e)) := by
  have hne {j y e'} (hj : stage j = .started y e') : j ≠ i := by
    rintro rfl
    rw [hi] at hj
    cases hj
  -- of all runs only the one that is launched changes: it is active and recorded
  constructor
  case follows =>
    exact related_update t.submitting stage (fun j rest y => rest.Follows b.engine.services
      Stint.start (b.stamp j) (b.request j) y) follows fun j _ => h.follows j
  case starting =>
    exact (Function.forall_update_iff stage fun j z =>
      ∀ y e', z = .starting y e' → k.Holds t.now.state (y.run e' (b.stamp j))).mpr
        ⟨nofun, fun j _ => h.starting j⟩
  case started =>
    exact (Function.forall_update_iff stage fun j z =>
      ∀ y e', z = .started y e' → (b.stamp j).run ∈ insert (b.stamp i).run t.launched).mpr
        ⟨fun _ _ _ => Set.mem_insert .., fun j _ y e' hy => .inr (h.started j y e' hy)⟩
  case found =>
    exact (Function.forall_update_iff stage fun j z =>
      ∀ y e' id, z = .found y e' id → b.Met k s j id).mpr ⟨nofun, fun j _ => h.found j⟩
  case launched =>
    rintro id (rfl | hid)
    · exact ⟨i, x, e, Function.update_self .., rfl⟩
    · obtain ⟨j, y, e', hj, hrun⟩ := h.launched id hid
      exact ⟨j, y, e', (Function.update_of_ne (hne hj) ..).trans hj, hrun⟩
  case active =>
    intro id w hw
    rw [Dict.get?_insert] at hw
    split_ifs at hw with hid
    · cases hw
      subst hid
      exact ⟨Set.mem_insert _ _, rfl,
        .recorded (h.starting i x e hi) (x.run_nodes e (b.stamp i))⟩
    · obtain ⟨hmem, hrest⟩ := h.active id w hw
      exact ⟨Set.mem_insert_of_mem _ hmem, hrest⟩
  case settled =>
    intro id hid
    by_cases hrun : id = (b.stamp i).run
    · exact .inl (Dict.contains_iff.mpr ⟨_, (Dict.get?_insert ..).trans (if_pos hrun)⟩)
    · refine (h.settled id (Set.mem_of_mem_insert_of_ne hid hrun)).imp_left fun hactive => ?_
      obtain ⟨w, hw⟩ := Dict.contains_iff.mp hactive
      exact Dict.contains_iff.mpr ⟨w, (Dict.get?_insert_of_ne hrun).trans hw⟩
  case attends => exact h.attends

theorem Orderly.submit (h : Orderly b k s t stage) (served : b.Served k t)
    (reached : b.Reaches k (b.begin s) t)
    (step : (t.submitting i).step? t.now = some (rest, now)) :
    ∃ y, Orderly b k s
      { t with
        submitting := Function.update t.submitting i rest
        now
        launched := t.launched ∪ {id | now.isActive id = true} }
      (Function.update stage i y) := by
  obtain ⟨y, hstep, follows⟩ := (h.follows i).step step
  refine ⟨y, ?_⟩
  -- the step leaves the list of active runs alone, or it is the one that launches a run
  rcases Stage.step?_active hstep with ⟨hactive, hy⟩ | ⟨x, e, hi, rfl, hactive⟩
  · have hlaunched : t.launched ∪ {id | now.isActive id = true} = t.launched :=
      Set.union_eq_left.mpr fun id hid =>
        h.mem_launched ((Orchestrator.isActive_congr hactive id).symm.trans hid)
    rw [hlaunched]
    exact h.quiet served reached step hstep follows hactive hy
  · have hlaunched : t.launched ∪ {id | now.isActive id = true} =
        insert (b.stamp i).run t.launched := by
      ext id
      rw [Set.mem_union, Set.mem_ofPred_eq, Orchestrator.isActive, hactive, Set.mem_insert_iff]
      refine ⟨?_, ?_⟩
      · rintro (hid | hid)
        · exact .inr hid
        · obtain ⟨w, hw⟩ := Dict.contains_iff.mp hid
          rw [Dict.get?_insert] at hw
          split_ifs at hw with heq
          · exact .inl heq
          · exact .inr (h.active id w hw).1
      · rintro (rfl | hid)
        · exact .inr (Dict.contains_iff.mpr ⟨_, Dict.get?_insert_self ..⟩)
        · exact .inl hid
    rw [hlaunched]
    rw [hi] at hstep
    cases hstep
    exact h.launch hi follows

end

theorem Orderly.work (h : Orderly b k s t stage)
    (distinct : Function.Injective fun i => (b.stamp i).run) (served : b.Served k t) {id : String} {w : Stint}
    {phase : Stint.Phase} {state : σ} (active : t.now.active.get? id = some w)
    (step : w.assignment.Step b.engine b.bodies (w.phase, t.now.state) (phase, state)) :
    Orderly b k s
      { t with now := ⟨state, t.now.active.insert id { w with phase }⟩ } stage := by
  obtain ⟨hid, rfl, hsound⟩ := h.active id w active
  refine h.revised distinct hid (fun i hi => ?_)
    (fun other hother => Dict.get?_insert_of_ne hother.symm) (fun w' hw => ?_) (.inl ?_)
  · obtain rfl | ⟨u, tells, rfl⟩ := step.tells
    · exact .refl
    · exact served.tell active tells i hi
  · obtain rfl := Option.some.inj ((Dict.get?_insert_self ..).symm.trans hw)
    exact ⟨rfl, hsound.step (fun u => served.takes active) step⟩
  · exact Dict.contains_iff.mpr ⟨_, Dict.get?_insert_self ..⟩

theorem Orderly.leave (h : Orderly b k s t stage)
    (distinct : Function.Injective fun i => (b.stamp i).run) {id : String} {w : Stint}
    (active : t.now.active.get? id = some w) (leaving : w.phase = .leaving) :
    Orderly b k s { t with now := { t.now with active := t.now.active.erase id } } stage := by
  obtain ⟨hid, rfl, hsound⟩ := h.active id w active
  rw [leaving] at hsound
  have herase (other : String) := Dict.get?_erase t.now.active w.assignment.run.id other
  refine h.revised distinct hid (fun _ _ => .refl)
    (fun other hother => (herase other).trans (if_neg hother.symm)) (fun w' hw => ?_) (.inr ?_)
  · cases ((herase _).trans (if_pos rfl)).symm.trans hw
  · cases hsound with
    | leaving settled => exact settled

theorem Orderly.cancel (h : Orderly b k s t stage)
    (distinct : Function.Injective fun i => (b.stamp i).run) (served : b.Served k t) (id : String) :
    Orderly b k s
      { t with
        now := ((Orchestrator.cancel b.engine.services Stint.cancelled id).run.run t.now).2 }
      stage := by
  rw [Orchestrator.state_cancel]
  split_ifs with hactive
  · obtain ⟨w, hw⟩ := Dict.contains_iff.mp hactive
    obtain ⟨hid, rfl, hsound⟩ := h.active id w hw
    have hmodify (other : String) := Dict.get?_modify t.now.active w.assignment.run.id other Stint.cancelled
    have hmine : (t.now.active.modify w.assignment.run.id Stint.cancelled).get?
        w.assignment.run.id = some w.cancelled := by
      rw [hmodify, if_pos rfl, hw, Option.map_some]
    refine h.revised distinct hid (fun _ _ => .refl)
      (fun other hother => (hmodify other).trans (if_neg hother.symm)) (fun w' hw' => ?_) (.inl ?_)
    · obtain rfl := Option.some.inj (hmine.symm.trans hw')
      exact ⟨rfl, hsound.cancelled⟩
    · exact Dict.contains_iff.mpr ⟨_, hmine⟩
  · exact h.framed h.attends rfl (served.find id)

/-- The id that a submission gives is that of a run that has been launched, or of one that the tracker
had. -/
theorem Orderly.returned (h : Orderly b k s t stage) {i : ι} {id : String}
    (hdone : t.submitting i = .done (.ok id)) : id ∈ t.launched ∨ b.Met k s i id := by
  have hresult : (stage i).result? (b.stamp i) = some (.ok id) := by
    have hfollows := h.follows i
    rwa [hdone] at hfollows
  cases hstage : stage i with
  | storing | fetching | opening | recording | starting | failed =>
    rw [hstage] at hresult
    cases hresult
  | started x e =>
    rw [hstage] at hresult
    cases hresult
    exact .inl (h.started i x e hstage)
  | found x e id' =>
    rw [hstage] at hresult
    cases hresult
    exact .inr (h.found i x e id hstage)

end Affairs

namespace Office
variable [DecidableEq ι] [DecidableEq κ] {b : Office ι κ σ}
  {k : b.engine.services.tracker.Keeping} {s : σ} {t t' : Affairs ι κ σ} {stage : ι → Stage}

theorem Step.kept (proper : b.Proper k s) (reached : b.Reaches k (b.begin s) t)
    (h : t.Orderly b k s stage) (hstep : b.Step k t t') : ∃ stage', t'.Orderly b k s stage' := by
  have served := proper.served t reached
  cases hstep with
  | submit step =>
    obtain ⟨y, hy⟩ := h.submit served reached step
    exact ⟨_, hy⟩
  | @wait j rest now step =>
    obtain ⟨hattends, hactive, hstate⟩ := (h.attends j).step step
    refine ⟨stage, h.framed ?_ hactive fun i => ?_⟩
    · exact (Function.forall_update_iff t.waiting b.Attends).mpr ⟨hattends, fun j _ => h.attends j⟩
    · rcases hstate with heq | heq <;> rw [heq]
      · exact .refl
      · exact served.find _ i
  | cancel id => exact ⟨stage, h.cancel proper.distinct served id⟩
  | work active step => exact ⟨stage, h.work proper.distinct served active step⟩
  | leave active leaving => exact ⟨stage, h.leave proper.distinct active leaving⟩
  | other leaves => exact ⟨stage, h.framed h.attends rfl leaves⟩

theorem Reaches.kept (proper : b.Proper k s) (h : b.Reaches k (b.begin s) t) :
    ∃ stage, t.Orderly b k s stage := by
  induction h with
  | refl => exact ⟨_, Affairs.orderly_begin b k s⟩
  | tail reached hstep ih =>
    obtain ⟨stage, horder⟩ := ih
    exact hstep.kept proper reached horder

/-! ### Runs that have been launched -/

theorem Step.launched_subset (hstep : b.Step k t t') : t.launched ⊆ t'.launched := by
  cases hstep with
  | submit => exact Set.subset_union_left
  | wait | cancel | work | leave | other => exact subset_rfl

/-- A run becomes active once. -/
theorem Step.inactive (distinct : Function.Injective fun i => (b.stamp i).run)
    (h : t.Orderly b k s stage) (hstep : b.Step k t t')
    {id : String} (hid : id ∈ t.launched) (hinactive : t.now.isActive id = false) :
    t'.now.isActive id = false := by
  have hnone : t.now.active.get? id = none :=
    Option.isNone_iff_eq_none.mp (Option.isSome_eq_false_iff.mp hinactive)
  have hinsert {other : String} (w : Stint) (hother : id ≠ other) :
      (t.now.active.insert other w).contains id = false := by
    rw [Dict.contains, Dict.get?_insert_of_ne hother]
    exact hinactive
  -- only the last step of a submission puts a run on the list, and no two runs share an id
  cases hstep with
  | @submit i rest now step =>
    obtain ⟨y, hstep, -⟩ := (h.follows i).step step
    rcases Stage.step?_active hstep with ⟨hactive, -⟩ | ⟨x, e, hi, -, hactive⟩
    · exact (Orchestrator.isActive_congr hactive id).trans hinactive
    · obtain ⟨j, y, e', hj, rfl⟩ := h.launched id hid
      refine (congrArg (fun d : Dict Stint => d.contains _) hactive).trans (hinsert _ fun hrun => ?_)
      rw [distinct hrun, hi] at hj
      cases hj
  | @wait j rest now step =>
    obtain ⟨-, hactive, -⟩ := (h.attends j).step step
    exact (Orchestrator.isActive_congr hactive id).trans hinactive
  | cancel other =>
    rw [Orchestrator.state_cancel]
    split_ifs
    · rw [Orchestrator.isActive, Dict.contains, Dict.get?_modify, hnone]
      split_ifs <;> rfl
    · exact hinactive
  | work active =>
    refine hinsert _ fun heq => ?_
    rw [← heq, hnone] at active
    cases active
  | leave =>
    rw [Orchestrator.isActive, Dict.contains, Dict.get?_erase, hnone]
    split_ifs <;> rfl
  | other => exact hinactive

end Office
end Workflow
