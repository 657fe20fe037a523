import Mathlib.Data.List.Nodup
import Mathlib.Logic.Function.Basic
import Workflow.Proofs.Orchestrator.Submission
import Workflow.Proofs.Schedule.Ledger
import Workflow.Rehearsal

/-!
# Submissions at the same time

Any number of submissions are under way, and each can be interrupted by the others wherever it waits
for the tracker or the store. The drives that they start go on meanwhile, and so do others who use
the same services. Submissions that ask for the same share one run and one drive.
-/
namespace Workflow

variable {ι σ : Type}

/-! ## The drive of a run -/

namespace ActiveRun

/-- One step of the drive of a run. -/
inductive Step (e : Engine σ) (bodies : Bodies) (r : ActiveRun) : ActiveRun → Prop
  | drive {order : List String} {d : Drive} (sorted : r.manifest.graph.topologicalOrder = .ok order)
      (step : Drive.Step (r.plan e order) bodies r.drive d) : Step e bodies r { r with drive := d }

/-- What the drive of a run comes to. -/
def Driven (e : Engine σ) (bodies : Bodies) (m : Manifest) (run : Run) (r : ActiveRun) : Prop :=
  Relation.ReflTransGen (Step e bodies) (start m run) r

variable {e : Engine σ} {bodies : Bodies} {m : Manifest} {run : Run} {r : ActiveRun}

theorem Driven.reachable (h : Driven e bodies m run r)
    (hnodes : run.nodes = Dict.ofList ((m.nodes.map (·.id)).map fun id => (id, .pending))) :
    r.manifest = m ∧ r.run = run ∧ ∀ order, m.graph.topologicalOrder = .ok order →
      Drive.Reachable ((start m run).plan e order) bodies run.params r.drive := by
  induction h with
  | refl =>
    refine ⟨rfl, rfl, fun order _ => ?_⟩
    rw [Drive.Reachable, Drive.begin]
    simp only [start, hnodes]
    exact .refl
  | @tail r _ _ hstep ih =>
    obtain ⟨sorted, step⟩ := hstep
    obtain ⟨rfl, rfl, hreach⟩ := ih
    refine ⟨rfl, rfl, fun order horder => ?_⟩
    rw [sorted] at horder
    cases horder
    exact (hreach _ sorted).tail step

/-- The drive of a run starts the body of a node at most once. -/
theorem Driven.invocation_nodes_nodup (h : Driven e bodies m run r)
    (hnodes : run.nodes = Dict.ofList ((m.nodes.map (·.id)).map fun id => (id, .pending))) :
    (r.drive.invocations.map (·.context.node)).Nodup := by
  obtain rfl | ⟨r', hr', hstep⟩ := h.cases_tail
  · exact List.nodup_nil
  · obtain ⟨sorted, -⟩ := id hstep
    obtain ⟨rfl, -⟩ := Driven.reachable hr' hnodes
    exact ((Driven.reachable h hnodes).2.2 _ sorted).ledger.invocation_nodes_nodup

end ActiveRun

/-! ## What has been started -/

namespace Orchestrator
variable {ρ : Type} {o o' : Orchestrator σ ρ}

/-- The runs that have become active from one state to another. -/
def launched (o o' : Orchestrator σ ρ) : List ρ :=
  (o'.active.entries.filter fun entry => !o.isActive entry.1).map (·.2)

theorem isActive_of_mem {entry : String × ρ} (h : entry ∈ o.active.entries) :
    o.isActive entry.1 = true :=
  Dict.contains_iff.mpr ⟨_, Dict.mem_entries_iff.mp h⟩

theorem isActive_congr (h : o'.active = o.active) (id : String) : o'.isActive id = o.isActive id :=
  congrArg (Dict.contains · id) h

theorem launched_of_active_eq (h : o'.active = o.active) : launched o o' = [] := by
  rw [launched, h, List.filter_eq_nil_iff.mpr, List.map_nil]
  intro entry hentry
  simp [isActive_of_mem hentry]

theorem launched_of_insert {id : String} {entry : ρ} (hfresh : o.isActive id = false)
    (h : o'.active = o.active.insert id entry) : launched o o' = [entry] := by
  have hentries : o'.active.entries.filter (fun entry => !o.isActive entry.1) = [(id, entry)] := by
    rw [h]
    exact Dict.filter_insertEntry (by simp [hfresh]) fun e he => by simp [isActive_of_mem he]
  rw [launched, hentries, List.map_singleton]

end Orchestrator

/-- Submissions that are made at the same time, and what they meet. -/
structure Batch (ι σ : Type) where
  engine : Engine σ
  bodies : Bodies
  request : ι → Submission
  stamp : ι → Stamp
  /-- Idempotency keys under which others record runs meanwhile. -/
  otherKeys : Set String
  /-- Manifests that others store meanwhile. -/
  otherManifests : Set Manifest

/-- How far the submissions have got, the state of the orchestrator, and the drives that have been
started, each with the submission that has started it. -/
structure Traffic (ι σ : Type) where
  rest : ι → Resumption (Orchestrator σ ActiveRun) (Outcome String)
  now : Orchestrator σ ActiveRun
  drives : List (ι × ActiveRun)

namespace Traffic

/-- The drives of some of the submissions. -/
noncomputable def drivesOf (t : Traffic ι σ) (group : Set ι) : List ActiveRun :=
  open Classical in (t.drives.filter fun d => d.1 ∈ group).map (·.2)

variable [DecidableEq ι]

/-- A submission has come to `rest`, and the orchestrator to `now`. -/
def move (t : Traffic ι σ) (i : ι) (rest : Resumption (Orchestrator σ ActiveRun) (Outcome String))
    (now : Orchestrator σ ActiveRun) : Traffic ι σ where
  rest := Function.update t.rest i rest
  now := now
  drives := t.drives ++ (t.now.launched now).map fun r => (i, r)

end Traffic

namespace Batch

/-- All submissions are about to begin. -/
def begin (b : Batch ι σ) (o : Orchestrator σ ActiveRun) : Traffic ι σ where
  rest i := (Orchestrator.submit b.engine.services ActiveRun.start (b.stamp i) (b.request i)).run
  now := o
  drives := []

/-- One step: a submission carries out its next operation, a drive goes on, or others use the
services. They can take runs off the list of active ones, but put none there. -/
inductive Step [DecidableEq ι] (b : Batch ι σ) (v : View σ) (t : Traffic ι σ) : Traffic ι σ → Prop
  | call {i : ι} {rest : Resumption (Orchestrator σ ActiveRun) (Outcome String)}
      {now : Orchestrator σ ActiveRun} (step : (t.rest i).step? t.now = some (rest, now)) :
      Step b v t (t.move i rest now)
  | drive {i : ι} {r r' : ActiveRun} {before after : List (ι × ActiveRun)}
      (split : t.drives = before ++ (i, r) :: after) (step : r.Step b.engine b.bodies r') :
      Step b v t { t with drives := before ++ (i, r') :: after }
  | other {now : Orchestrator σ ActiveRun}
      (moves : v.Moves b.otherKeys b.otherManifests t.now.state now.state)
      (active : ∀ id, now.isActive id = true → t.now.isActive id = true) :
      Step b v t { t with now }

/-- What the submissions can come to when they begin in a state. -/
def Reachable [DecidableEq ι] (b : Batch ι σ) (v : View σ) (o : Orchestrator σ ActiveRun)
    (t : Traffic ι σ) : Prop :=
  Relation.ReflTransGen (b.Step v) (b.begin o) t

/-- The manifests that can come to be stored: those that are stored in the beginning, those that are
submitted and those that others store. -/
def manifests (b : Batch ι σ) (v : View σ) (o : Orchestrator σ ActiveRun) : Set Manifest :=
  {m | (∃ d, v.manifest? o.state d = some m) ∨ (∃ i, (b.request i).source = .inline m) ∨
    m ∈ b.otherManifests}

end Batch

/-! ## What holds at every point -/

namespace Traffic
variable {b : Batch ι σ} {v : View σ} {o : Orchestrator σ ActiveRun} {t : Traffic ι σ}
  {stage : ι → Stage}

/-- The submissions are at stages that fit the state of the services, and every key that has been
taken has been taken by one of them or by others. -/
structure Orderly (b : Batch ι σ) (v : View σ) (o : Orchestrator σ ActiveRun) (t : Traffic ι σ)
    (stage : ι → Stage) : Prop where
  valid : v.Valid t.now.state
  follows : ∀ i, (t.rest i).Follows b.engine.services ActiveRun.start (b.stamp i) (b.request i)
    (stage i)
  apt : ∀ i, (stage i).Apt v (b.manifests v o) (b.stamp i) (b.request i) t.now.state
  stored : ∀ d m, v.manifest? t.now.state d = some m → m ∈ b.manifests v o
  taken : ∀ key id, v.holder? t.now.state key = some id → v.holder? o.state key = some id ∨
    key ∈ b.otherKeys ∨ ∃ i x e, (stage i).Owns x e ∧ x.key e = key

/-- The submissions that have started a run are those that have a drive, and they have one each. -/
structure Accounted (b : Batch ι σ) (o : Orchestrator σ ActiveRun) (t : Traffic ι σ)
    (stage : ι → Stage) : Prop where
  active : ∀ id, t.now.isActive id = true → o.isActive id = true ∨
    ∃ i x e, stage i = .started x e ∧ id = (b.stamp i).run
  driven : ∀ i r, (i, r) ∈ t.drives → ∃ x e, stage i = .started x e ∧
    ActiveRun.Driven b.engine b.bodies x.manifest (x.run e (b.stamp i)) r
  drives_nodup : (t.drives.map (·.1)).Nodup
  has_drive : ∀ i x e, stage i = .started x e → i ∈ t.drives.map (·.1)

/-! ### Others, and drives -/

theorem Orderly.other (h : Orderly b v o t stage) {now : Orchestrator σ ActiveRun}
    (moves : v.Moves b.otherKeys b.otherManifests t.now.state now.state) :
    Orderly b v o { t with now } stage where
  valid := moves.valid
  follows := h.follows
  apt i := (h.apt i).kept moves
  stored d m hm := (moves.stored d m hm).elim (h.stored d m) fun hm => .inr (.inr hm)
  taken key id hid := (moves.taken key id hid).elim (h.taken key id) fun hkey => .inr (.inl hkey)

theorem Accounted.drive (h : Accounted b o t stage) {i : ι} {r r' : ActiveRun}
    {before after : List (ι × ActiveRun)} (split : t.drives = before ++ (i, r) :: after)
    (step : r.Step b.engine b.bodies r') :
    Accounted b o { t with drives := before ++ (i, r') :: after } stage := by
  have hcalls : (before ++ (i, r') :: after).map (·.1) = t.drives.map (·.1) := by
    simp only [split, List.map_append, List.map_cons]
  refine { active := h.active, driven := fun j r₁ hmem => ?_, drives_nodup := ?_, has_drive := ?_ }
  · have hold {d} (hd : d ∈ before ∨ d ∈ after) : d ∈ t.drives := by
      rw [split]
      exact List.mem_append.mpr (hd.imp_right (List.mem_cons_of_mem _))
    rcases List.mem_append.mp hmem with hmem | hmem
    · exact h.driven j r₁ (hold (.inl hmem))
    · rcases List.mem_cons.mp hmem with heq | hmem
      · cases heq
        obtain ⟨x, e, hstage, hdriven⟩ := h.driven i r (by simp [split])
        exact ⟨x, e, hstage, hdriven.tail step⟩
      · exact h.driven j r₁ (hold (.inr hmem))
  · rw [hcalls]
    exact h.drives_nodup
  · rw [hcalls]
    exact h.has_drive

/-! ### Submissions -/

theorem orderly_begin (hvalid : v.Valid o.state) :
    Orderly b v o (b.begin o) fun i => .first (b.request i) where
  valid := hvalid
  follows _ := Orchestrator.submit_follows
  apt _ := Stage.first_apt
  stored d _ hm := .inl ⟨d, hm⟩
  taken _ _ := .inl

theorem accounted_begin : Accounted b o (b.begin o) fun i => .first (b.request i) where
  active _ := .inl
  driven _ _ h := absurd h List.not_mem_nil
  drives_nodup := .nil
  has_drive _ x e h := absurd h (Stage.first_ne_started x e)

section
variable [DecidableEq ι] {i : ι} {y : Stage}
  {rest : Resumption (Orchestrator σ ActiveRun) (Outcome String)} {now : Orchestrator σ ActiveRun}

/-- A step of a submission, as its stage has it. -/
abbrev StageStep (b : Batch ι σ) (t : Traffic ι σ) (stage : ι → Stage) (i : ι) (y : Stage)
    (now : Orchestrator σ ActiveRun) : Prop :=
  (stage i).step? b.engine.services ActiveRun.start (b.stamp i) (b.request i) t.now = some (y, now)

theorem Orderly.call (h : Orderly b v o t stage) (faithful : b.engine.services.Faithful v)
    (hstep : StageStep b t stage i y now)
    (hfollows : rest.Follows b.engine.services ActiveRun.start (b.stamp i) (b.request i) y) :
    Orderly b v o (t.move i rest now) (Function.update stage i y) := by
  obtain ⟨moves, hapt, howns⟩ := (h.apt i).step faithful h.valid h.stored
    (fun m hm => .inr (.inl ⟨i, hm⟩)) hstep
  constructor
  case valid => exact moves.valid
  case follows =>
    exact related_update t.rest stage (fun j rest y => rest.Follows b.engine.services
      ActiveRun.start (b.stamp j) (b.request j) y) hfollows fun j _ => h.follows j
  case apt =>
    exact (Function.forall_update_iff stage fun j z =>
      z.Apt v (b.manifests v o) (b.stamp j) (b.request j) now.state).mpr
        ⟨hapt, fun j _ => (h.apt j).kept moves⟩
  case stored => exact fun d m hm => (moves.stored d m hm).elim (h.stored d m) id
  case taken =>
    intro key id hid
    -- a key is taken by now if it was before, or if this step has recorded a run under it
    rcases moves.taken key id hid with hid | ⟨x, e, hx, hkey⟩
    · refine (h.taken key id hid).imp_right (Or.imp_right ?_)
      rintro ⟨j, x, e, hx, hkey⟩
      refine ⟨j, x, e, ?_, hkey⟩
      by_cases hj : j = i
      · subst hj
        rw [Function.update_self]
        exact howns x e hx
      · rwa [Function.update_of_ne hj]
    · exact .inr (.inr ⟨i, x, e, by rwa [Function.update_self], hkey⟩)

theorem Accounted.quiet (h : Accounted b o t stage) (hi : ∀ z e, stage i ≠ .started z e)
    (hy : ∀ z e, y ≠ .started z e) (hactive : now.active = t.now.active) :
    Accounted b o (t.move i rest now) (Function.update stage i y) := by
  have hstarted {j x e} : Function.update stage i y j = .started x e ↔ stage j = .started x e := by
    by_cases hj : j = i
    · subst hj
      rw [Function.update_self]
      exact iff_of_false (hy x e) (hi x e)
    · rw [Function.update_of_ne hj]
  have hdrives : (t.move i rest now).drives = t.drives := by
    rw [move, Orchestrator.launched_of_active_eq hactive, List.map_nil, List.append_nil]
  constructor <;> simp only [hstarted, hdrives]
  · intro id hid
    exact h.active id ((Orchestrator.isActive_congr hactive id).symm.trans hid)
  · exact h.driven
  · exact h.drives_nodup
  · exact h.has_drive

/-- The step that starts a run. Its id is not active, so that the run comes to be a new one. -/
theorem Accounted.launch (h : Accounted b o t stage)
    (distinct : Function.Injective fun i => (b.stamp i).run)
    (fresh : ∀ i, o.isActive (b.stamp i).run = false) {z : Errand} {e : Experiment}
    (hi : stage i = .starting z e)
    (hactive : now.active = t.now.active.insert (b.stamp i).run
      (ActiveRun.start z.manifest (z.run e (b.stamp i)))) :
    Accounted b o (t.move i rest now) (Function.update stage i (.started z e)) := by
  have hne {j x e'} (hj : stage j = .started x e') : j ≠ i := by
    rintro rfl
    rw [hi] at hj
    cases hj
  -- what is active was so from the beginning or has another submission, and ids of runs differ
  have hfresh : t.now.isActive (b.stamp i).run = false := by
    by_contra hold
    rcases h.active _ (Bool.eq_true_of_not_eq_false hold) with hold | ⟨j, x, e', hj, hrun⟩
    · rw [fresh i] at hold
      cases hold
    · exact hne hj (distinct hrun.symm)
  have hdrives : (t.move i rest now).drives =
      t.drives ++ [(i, ActiveRun.start z.manifest (z.run e (b.stamp i)))] := by
    rw [move, Orchestrator.launched_of_insert hfresh hactive, List.map_singleton]
  have hcalls : (t.move i rest now).drives.map (·.1) = t.drives.map (·.1) ++ [i] := by
    rw [hdrives, List.map_append, List.map_singleton]
  have hother {j x e'} (hj : stage j = .started x e') :
      Function.update stage i (.started z e) j = .started x e' := by
    rw [Function.update_of_ne (hne hj), hj]
  constructor
  case active =>
    intro id hid
    obtain ⟨r, hr⟩ := Dict.contains_iff.mp hid
    rw [move, hactive, Dict.get?_insert] at hr
    split_ifs at hr with hid
    · exact .inr ⟨i, z, e, Function.update_self .., hid⟩
    · refine (h.active id (Dict.contains_iff.mpr ⟨r, hr⟩)).imp_right ?_
      rintro ⟨j, x, e', hj, hrun⟩
      exact ⟨j, x, e', hother hj, hrun⟩
  case driven =>
    intro j r hmem
    rw [hdrives] at hmem
    rcases List.mem_append.mp hmem with hmem | hmem
    · obtain ⟨x, e', hj, hdriven⟩ := h.driven j r hmem
      exact ⟨x, e', hother hj, hdriven⟩
    · cases List.mem_singleton.mp hmem
      exact ⟨z, e, Function.update_self .., .refl⟩
  case drives_nodup =>
    rw [hcalls, ← List.concat_eq_append]
    refine h.drives_nodup.concat fun hmem => ?_
    obtain ⟨⟨j, r⟩, hdrive, hj⟩ := List.mem_map.mp hmem
    obtain ⟨x, e', hstarted, -⟩ := h.driven j r hdrive
    exact hne hstarted hj
  case has_drive =>
    intro j x e' hj
    rw [hcalls]
    by_cases hji : j = i
    · exact List.mem_append_right _ (List.mem_singleton.mpr hji)
    · rw [Function.update_of_ne hji] at hj
      exact List.mem_append_left _ (h.has_drive j x e' hj)

theorem Accounted.call (h : Accounted b o t stage)
    (distinct : Function.Injective fun i => (b.stamp i).run)
    (fresh : ∀ i, o.isActive (b.stamp i).run = false) (hstep : StageStep b t stage i y now) :
    Accounted b o (t.move i rest now) (Function.update stage i y) := by
  rcases Stage.step?_active hstep with ⟨hactive, hy⟩ | ⟨z, e, hi, rfl, hactive⟩
  · refine h.quiet (fun z e hi => ?_) hy hactive
    rw [StageStep, hi] at hstep
    cases hstep
  · exact h.launch distinct fresh hi hactive

end

end Traffic

namespace Batch
variable [DecidableEq ι] {b : Batch ι σ} {v : View σ} {o : Orchestrator σ ActiveRun}
  {t t' : Traffic ι σ} {stage : ι → Stage}

/-- The services keep to their descriptions, and every submission has an id for its run that neither
another submission nor an active run has. -/
structure Proper (b : Batch ι σ) (v : View σ) (o : Orchestrator σ ActiveRun) : Prop where
  faithful : b.engine.services.Faithful v
  valid : v.Valid o.state
  distinct : Function.Injective fun i => (b.stamp i).run
  fresh : ∀ i, o.isActive (b.stamp i).run = false

theorem Step.kept (proper : b.Proper v o) (horder : t.Orderly b v o stage)
    (haccount : t.Accounted b o stage) (h : b.Step v t t') :
    ∃ stage', t'.Orderly b v o stage' ∧ t'.Accounted b o stage' := by
  cases h with
  | call step =>
    obtain ⟨y, hstep, hfollows⟩ := (horder.follows _).step step
    exact ⟨_, horder.call proper.faithful hstep hfollows,
      haccount.call proper.distinct proper.fresh hstep⟩
  | drive split step => exact ⟨stage, { horder with }, haccount.drive split step⟩
  | other moves active =>
    exact ⟨stage, horder.other moves,
      { haccount with active := fun id hid => haccount.active id (active id hid) }⟩

theorem Reachable.kept (proper : b.Proper v o) (h : b.Reachable v o t) :
    ∃ stage, t.Orderly b v o stage ∧ t.Accounted b o stage := by
  induction h with
  | refl => exact ⟨_, Traffic.orderly_begin proper.valid, Traffic.accounted_begin⟩
  | tail _ hstep ih =>
    obtain ⟨stage, horder, haccount⟩ := ih
    exact hstep.kept proper horder haccount

end Batch

/-! ## Submissions that ask for the same -/

/-- Submissions that ask for one errand have one idempotency key, as long as all manifests with the
digest of its manifest declare the same parameters. -/
theorem Submission.Asks.key_eq {r : Submission} {x y : Errand} (hx : r.Asks x) (hy : r.Asks y)
    (copies : y.manifest.digest = x.manifest.digest →
      y.manifest.parameters = x.manifest.parameters) (e : Experiment) : y.key e = x.key e := by
  have hsame : y.manifest.digest = x.manifest.digest ∧
      y.manifest.parameters = x.manifest.parameters := by
    rcases hx.source with hsource | hsource <;> rcases hy.source with hsource' | hsource' <;>
    rw [hsource] at hsource'
    · rw [ManifestSource.inline.inj hsource']
      exact ⟨rfl, rfl⟩
    · exact ManifestSource.noConfusion hsource'
    · exact ManifestSource.noConfusion hsource'
    · have hdigest := (ManifestSource.stored.inj hsource').symm
      exact ⟨hdigest, copies hdigest⟩
  have hparams : y.params = x.params := by
    have hbind := hy.params
    rw [hsame.2, hx.params] at hbind
    exact (Except.ok.inj hbind).symm
  rw [Errand.key, Errand.key, hparams, hsame.1, ← hx.runName, ← hy.runName]

/-- A submission works in the experiment of the errand that it asks for, and under its key. -/
theorem Submission.Pursues.keyed {v : View σ} {known : Set Manifest} {s : σ} {r : Submission}
    {x y : Errand} {e : Experiment} (h : r.Pursues v known s y e) (hr : r.Asks x)
    (copies : ∀ m ∈ known, m.digest = x.manifest.digest → m.parameters = x.manifest.parameters) :
    v.experiment? s x.experiment = some e ∧ y.key e = x.key e := by
  refine ⟨?_, hr.key_eq h.asks (copies _ h.known) e⟩
  rw [← hr.experiment, h.asks.experiment]
  exact h.experiment

theorem Submission.Pursues.key_eq {v : View σ} {known : Set Manifest} {s : σ} {r r' : Submission}
    {x y z : Errand} {e e' : Experiment} (hy : r.Pursues v known s y e) (hr : r.Asks x)
    (hz : r'.Pursues v known s z e') (hr' : r'.Asks x)
    (copies : ∀ m ∈ known, m.digest = x.manifest.digest → m.parameters = x.manifest.parameters) :
    y.key e = z.key e' := by
  obtain ⟨he, hkey⟩ := hy.keyed hr copies
  obtain ⟨he', hkey'⟩ := hz.keyed hr' copies
  rw [he] at he'
  rw [hkey, hkey', Option.some.inj he']

theorem Stage.Owns.holder {v : View σ} {known : Set Manifest} {stamp : Stamp} {r : Submission}
    {s : σ} {stage : Stage} {x : Errand} {e : Experiment} (h : stage.Owns x e)
    (apt : stage.Apt v known stamp r s) :
    r.Pursues v known s x e ∧ v.holder? s (x.key e) = some stamp.run := by
  cases h <;> exact apt

namespace Traffic
variable {b : Batch ι σ} {v : View σ} {o : Orchestrator σ ActiveRun} {t : Traffic ι σ}
  {stage : ι → Stage} {i j : ι}

/-- A submission that has succeeded gives the id of the run that has its key. -/
theorem Orderly.returned (h : Orderly b v o t stage) {id : String}
    (hreturn : t.rest i = .done (.ok id)) :
    ∃ x e, (b.request i).Pursues v (b.manifests v o) t.now.state x e ∧
      v.holder? t.now.state (x.key e) = some id ∧
      (stage i = .started x e ∨ stage i = .found x e id) := by
  have hresult : (stage i).result? (b.stamp i) = some (.ok id) := by
    have hfollows := h.follows i
    rwa [hreturn] at hfollows
  have hapt := h.apt i
  cases hstage : stage i with
  | storing | fetching | opening | recording | starting | failed =>
    rw [hstage] at hresult
    cases hresult
  | started x e =>
    rw [hstage] at hresult hapt
    cases hresult
    exact ⟨x, e, hapt.1, hapt.2, .inl rfl⟩
  | found x e id' =>
    rw [hstage] at hresult hapt
    cases hresult
    exact ⟨x, e, hapt.1, hapt.2, .inr rfl⟩

theorem mem_drivesOf {group : Set ι} {r : ActiveRun} :
    r ∈ t.drivesOf group ↔ ∃ i ∈ group, (i, r) ∈ t.drives := by
  simp [drivesOf, and_comm]

/-- When no two of some submissions have started a run, they have at most one drive. -/
theorem Accounted.length_drivesOf_le (h : Accounted b o t stage) {group : Set ι}
    (single : ∀ i ∈ group, ∀ j ∈ group, ∀ x e y e', stage i = .started x e →
      stage j = .started y e' → i = j) : (t.drivesOf group).length ≤ 1 := by
  classical
  let calls := (t.drives.filter fun d => d.1 ∈ group).map (·.1)
  have hnodup : calls.Nodup := (List.filter_sublist.map _).nodup h.drives_nodup
  have hlength : (t.drivesOf group).length = calls.length := by
    simp [drivesOf, calls]
  have hcalls : ∀ i ∈ calls, i ∈ group ∧ ∃ x e, stage i = .started x e := by
    intro i hi
    obtain ⟨⟨i, r⟩, hd, rfl⟩ := List.mem_map.mp hi
    obtain ⟨hmem, hgroup⟩ := List.mem_filter.mp hd
    obtain ⟨x, e, hstage, -⟩ := h.driven i r hmem
    exact ⟨of_decide_eq_true hgroup, x, e, hstage⟩
  rw [hlength]
  match calls, hnodup, hcalls with
  | [], _, _ => exact Nat.zero_le 1
  | [_], _, _ => exact Nat.le_refl 1
  | i :: j :: rest, hnodup, hcalls =>
    obtain ⟨hi, x, e, hx⟩ := hcalls i (by simp)
    obtain ⟨hj, y, e', hy⟩ := hcalls j (by simp)
    have heq := single i hi j hj x e y e' hx hy
    exact absurd (heq ▸ List.mem_cons_self) (List.nodup_cons.mp hnodup).1

theorem Accounted.invocations_nodup (h : Accounted b o t stage) {group : Set ι}
    (hlength : (t.drivesOf group).length ≤ 1) :
    ((t.drivesOf group).flatMap fun r => r.drive.invocations.map (·.context.node)).Nodup := by
  rcases hdrives : t.drivesOf group with _ | ⟨r, _ | ⟨r', rest⟩⟩
  · exact List.nodup_nil
  · have hmem : r ∈ t.drivesOf group := hdrives ▸ List.mem_singleton_self r
    obtain ⟨i, -, hr⟩ := mem_drivesOf.mp hmem
    obtain ⟨x, e, -, hdriven⟩ := h.driven i r hr
    rw [List.flatMap_singleton]
    exact hdriven.invocation_nodes_nodup (x.run_nodes e (b.stamp i))
  · rw [hdrives] at hlength
    simp at hlength

/-- A submission that has recorded its run and returned has started the run. -/
theorem Orderly.owner_started (h : Orderly b v o t stage) {x : Errand} {e : Experiment}
    {result : Outcome String} (howns : (stage i).Owns x e) (hreturn : t.rest i = .done result) :
    stage i = .started x e := by
  have hfollows := h.follows i
  rw [hreturn] at hfollows
  generalize stage i = s at howns hfollows
  cases howns with
  | starting => cases hfollows
  | started => rfl

/-- A key belongs to one submission. -/
theorem Orderly.owner_eq (h : Orderly b v o t stage)
    (distinct : Function.Injective fun i => (b.stamp i).run) {x y : Errand} {e e' : Experiment}
    (hi : (stage i).Owns x e) (hj : (stage j).Owns y e') (hkey : x.key e = y.key e') : i = j := by
  have hheld := (hi.holder (h.apt i)).2
  rw [hkey, (hj.holder (h.apt j)).2] at hheld
  exact distinct (Option.some.inj hheld).symm

end Traffic

namespace Batch

/-- The submissions that ask for an errand. -/
def asking (b : Batch ι σ) (x : Errand) : Set ι := {i | (b.request i).Asks x}

end Batch

namespace Batch
variable [DecidableEq ι] {b : Batch ι σ} {v : View σ} {o : Orchestrator σ ActiveRun}
  {t : Traffic ι σ}

/-- However submissions are interleaved, those that ask for one errand and succeed give one id. At
most one of them starts a drive, so that the bodies of all their drives are started at most once a
node. Exactly one does when all of them have returned and one has succeeded, provided that the key
of the errand was free in the beginning and nobody else comes to use it. -/
theorem Reachable.shared (h : b.Reachable v o t) (proper : b.Proper v o) (x : Errand)
    (copies : ∀ m ∈ b.manifests v o, m.digest = x.manifest.digest →
      m.parameters = x.manifest.parameters) :
    (∀ i ∈ b.asking x, ∀ j ∈ b.asking x, ∀ id id', t.rest i = .done (.ok id) →
      t.rest j = .done (.ok id') → id = id') ∧
    (t.drivesOf (b.asking x)).length ≤ 1 ∧
    ((t.drivesOf (b.asking x)).flatMap fun r =>
      r.drive.invocations.map (·.context.node)).Nodup ∧
    ∀ e, v.experiment? t.now.state x.experiment = some e → v.holder? o.state (x.key e) = none →
      x.key e ∉ b.otherKeys →
      (∀ j y e', (b.request j).Pursues v (b.manifests v o) t.now.state y e' →
        y.key e' = x.key e → j ∈ b.asking x) →
      (∀ i ∈ b.asking x, ∃ result, t.rest i = .done result) →
      (∃ i ∈ b.asking x, ∃ id, t.rest i = .done (.ok id)) →
      (t.drivesOf (b.asking x)).length = 1 := by
  obtain ⟨stage, horder, haccount⟩ := h.kept proper
  have hlength : (t.drivesOf (b.asking x)).length ≤ 1 := by
    refine haccount.length_drivesOf_le fun i hi j hj y e z e' hy hz => ?_
    have howns : (stage i).Owns y e := hy ▸ .started y e
    have howns' : (stage j).Owns z e' := hz ▸ .started z e'
    refine horder.owner_eq proper.distinct howns howns' ?_
    exact (howns.holder (horder.apt i)).1.key_eq hi (howns'.holder (horder.apt j)).1 hj copies
  refine ⟨?_, hlength, ?_, ?_⟩
  · intro i hi j hj id id' hreturn hreturn'
    obtain ⟨y, e, hy, hheld, -⟩ := horder.returned hreturn
    obtain ⟨z, e', hz, hheld', -⟩ := horder.returned hreturn'
    rw [hy.key_eq hi hz hj copies, hheld'] at hheld
    exact (Option.some.inj hheld).symm
  · exact haccount.invocations_nodup hlength
  · intro e he hfree hother sole hreturned ⟨i, hi, id, hreturn⟩
    refine Nat.le_antisymm hlength (List.length_pos_iff_exists_mem.mpr ?_)
    obtain ⟨y, e', hy, hheld, -⟩ := horder.returned hreturn
    obtain ⟨he', hkey⟩ := hy.keyed hi copies
    rw [he] at he'
    rw [hkey, ← Option.some.inj he'] at hheld
    -- the key was taken by one of the submissions, which has gone on to start its run
    rcases horder.taken _ _ hheld with hheld | hmem | ⟨j, z, e₁, howns, hz⟩
    · rw [hfree] at hheld
      cases hheld
    · exact absurd hmem hother
    · have hj := sole j z e₁ (howns.holder (horder.apt j)).1 hz
      obtain ⟨result, hresult⟩ := hreturned j hj
      have hstarted := horder.owner_started howns hresult
      obtain ⟨⟨j, r⟩, hr, rfl⟩ := List.mem_map.mp (haccount.has_drive j z e₁ hstarted)
      exact ⟨r, Traffic.mem_drivesOf.mpr ⟨j, hj, hr⟩⟩

/-! ## A run that is submitted twice -/

/-- A submission goes on alone, from one stage and state to another. -/
theorem Reachable.advance (h : b.Reachable v o t) {i : ι}
    {start now : Stage × Orchestrator σ ActiveRun} (hnow : t.now = start.2)
    (follows : (t.rest i).Follows b.engine.services ActiveRun.start (b.stamp i) (b.request i)
      start.1)
    (course : Relation.ReflTransGen
      (Stage.Advance b.engine.services ActiveRun.start (b.stamp i) (b.request i)) start now) :
    ∃ t', b.Reachable v o t' ∧ t'.now = now.2 ∧
      (t'.rest i).Follows b.engine.services ActiveRun.start (b.stamp i) (b.request i) now.1 ∧
      ∀ j, j ≠ i → t'.rest j = t.rest j := by
  induction course with
  | refl => exact ⟨t, h, hnow, follows, fun _ _ => rfl⟩
  | @tail a c _ hstep ih =>
    obtain ⟨t', hreach, hnow', hfollows, hothers⟩ := ih
    obtain ⟨y, o'⟩ := c
    obtain ⟨rest, hrest, hfollows'⟩ := hfollows.exists_step hstep
    rw [← hnow'] at hrest
    refine ⟨_, .tail hreach (.call hrest), rfl, ?_, fun j hj => ?_⟩
    · simpa only [Traffic.move, Function.update_self] using hfollows'
    · simpa only [Traffic.move, Function.update_of_ne hj] using hothers j hj

/-- A submission that has not begun can be carried out and succeeds, if the services do not fail and
the manifest is good. -/
theorem Reachable.answered (h : b.Reachable v o t) (proper : b.Proper v o)
    (prompt : b.engine.services.Prompt v) {i : ι} (unbegun : t.rest i = (b.begin o).rest i)
    {x : Errand} (asks : (b.request i).Asks x) (good : x.manifest.validate = .ok ())
    (bodies : b.engine.services.checkBodies x.manifest = .ok ())
    (copy : (b.request i).source = .stored x.manifest.digest →
      v.manifest? t.now.state x.manifest.digest = some x.manifest) :
    ∃ t', b.Reachable v o t' ∧ (∃ id, t'.rest i = .done (.ok id)) ∧
      ∀ j, j ≠ i → t'.rest j = t.rest j := by
  obtain ⟨_, horder, -⟩ := h.kept proper
  obtain ⟨y, now, id, course, hresult⟩ := Stage.first_succeeds ActiveRun.start proper.faithful
    prompt horder.valid asks good bodies copy
  have follows : (t.rest i).Follows b.engine.services ActiveRun.start (b.stamp i) (b.request i)
      (.first (b.request i)) := by
    rw [unbegun]
    exact Orchestrator.submit_follows
  obtain ⟨t', hreach, -, hfollows, hothers⟩ := h.advance rfl follows course
  exact ⟨t', hreach, ⟨id, hfollows.eq_done now hresult⟩, hothers⟩

end Batch

namespace Rehearsal

theorem parts_apart : trackerPart.Apart manifestsPart ∧ manifestsPart.Apart trackerPart :=
  ⟨⟨fun _ _ => rfl, fun _ _ => rfl⟩, ⟨fun _ _ => rfl, fun _ _ => rfl⟩⟩

/-- How the services of a rehearsal are read. -/
def view : View Rehearsal := .memory trackerPart manifestsPart

/-- The services of a rehearsal keep to their descriptions, and they do not fail. -/
theorem engine_faithful (setup : RehearsalSetup) (origin : Instant) :
    (engine setup origin).services.Faithful view := by
  have h := memory_faithful parts_apart.1 parts_apart.2 (setup.bodies.check setup.installed)
  exact ⟨h.filed, h.get?, h.store, h.getOrCreate, h.created, h.existing, h.unrecorded⟩

theorem engine_prompt (setup : RehearsalSetup) (origin : Instant) :
    (engine setup origin).services.Prompt view := by
  have h := memory_prompt (p := trackerPart) (q := manifestsPart)
    (setup.bodies.check setup.installed)
  exact ⟨h.fetch, h.store, h.getOrCreate, h.recordRun⟩

end Rehearsal

namespace Batch

/-- One parameter, whose default is an integer, and one node with some inputs. -/
def fitManifest (inputs : List NodeInput) : Manifest :=
  ⟨manifestVersion, ⟨"nightly", none⟩, [⟨"rate", .float, some (.int 2)⟩],
    [⟨"fit", "fit", "fit", inputs, [], .empty, .always, .registered "fit"⟩], []⟩

/-- The run of such a manifest with the default. -/
def fitting (inputs : List NodeInput) : Errand :=
  ⟨fitManifest inputs, "models", "nightly", Dict.empty.insert "rate" (.float (.ofInt 2))⟩

def fitEngine : Engine Rehearsal :=
  Rehearsal.engine ⟨BodyRegistry.empty.replace "fit" ⟨⟨0, []⟩, Dict.empty⟩, fun _ => true, 1, 0, none,
    [], []⟩ ⟨0, 0⟩

theorem fitEngine_prompt : fitEngine.services.Prompt Rehearsal.view := Rehearsal.engine_prompt _ _

theorem fitEngine_checkBodies (inputs : List NodeInput) :
    fitEngine.services.checkBodies (fitManifest inputs) = .ok () := rfl

/-- Two submissions to the same services, which nobody else uses. -/
def twoSubmissions (request : Bool → Submission) : Batch Bool Rehearsal where
  engine := fitEngine
  bodies _ _ := True
  request := request
  stamp
    | false => ⟨"exp1", "run1", "execution1", ⟨0, 0⟩⟩
    | true => ⟨"exp2", "run2", "execution2", ⟨1, 0⟩⟩
  otherKeys := ∅
  otherManifests := ∅

/-- The manifest without inputs is stored, and nothing else has happened. -/
def fitBegin : Orchestrator Rehearsal ActiveRun where
  state := { Rehearsal.empty with
    manifests := ⟨Dict.empty.insert (fitManifest []).digest
      ⟨⟨0, 0⟩, (fitManifest []).digest, fitManifest []⟩⟩ }
  active := Dict.empty

theorem fitBegin_manifest? (d : String) : Rehearsal.view.manifest? fitBegin.state d =
    if d = (fitManifest []).digest then some (fitManifest []) else none := by
  simp only [Rehearsal.view, View.memory, Rehearsal.manifestsPart, fitBegin, Dict.get?_insert,
    Dict.get?_empty]
  split_ifs <;> rfl

theorem fitBegin_holder? (key : String) : Rehearsal.view.holder? fitBegin.state key = none :=
  Dict.get?_empty key

theorem twoSubmissions_proper (request : Bool → Submission) :
    (twoSubmissions request).Proper Rehearsal.view fitBegin where
  faithful := Rehearsal.engine_faithful _ _
  valid := by
    refine ⟨MemoryTracker.sound_empty, fun d entry hentry => ?_⟩
    have hm : Rehearsal.view.manifest? fitBegin.state d = some entry.manifest :=
      Option.map_eq_some_iff.mpr ⟨entry, hentry, rfl⟩
    rw [fitBegin_manifest?] at hm
    split_ifs at hm with hd
    rw [hd, ← Option.some.inj hm]
  distinct i j h := by
    cases i <;> cases j <;> first | rfl | exact absurd h (by simp [twoSubmissions])
  fresh _ := rfl

/-- All manifests that can come to be stored declare the one parameter. -/
theorem twoSubmissions_parameters {request : Bool → Submission}
    (hrequest : ∀ i m, (request i).source = .inline m → ∃ inputs, m = fitManifest inputs)
    {m : Manifest} (h : m ∈ (twoSubmissions request).manifests Rehearsal.view fitBegin) :
    m.parameters = (fitManifest []).parameters := by
  rcases h with ⟨d, hm⟩ | ⟨i, hi⟩ | hm
  · rw [fitBegin_manifest?] at hm
    split_ifs at hm
    rw [← Option.some.inj hm]
  · obtain ⟨inputs, rfl⟩ := hrequest i m hi
    rfl
  · exact absurd hm (Set.notMem_empty m)

/-- One submission after the other can be carried out, and both succeed. -/
theorem twoSubmissions_answered {request : Bool → Submission} {inputs : Bool → List NodeInput}
    (asks : ∀ i, (request i).Asks (fitting (inputs i)))
    (good : ∀ i, (fitManifest (inputs i)).validate = .ok ())
    (inline : (request false).source = .inline (fitManifest (inputs false)))
    (copy : (request true).source = .stored (fitManifest (inputs true)).digest → inputs true = []) :
    ∃ t, (twoSubmissions request).Reachable Rehearsal.view fitBegin t ∧
      ∀ i, ∃ id, t.rest i = .done (.ok id) := by
  have proper := twoSubmissions_proper request
  obtain ⟨t₁, h₁, ⟨id₁, hid₁⟩, hothers₁⟩ := Reachable.answered .refl proper fitEngine_prompt
    (i := true) rfl (asks true) (good true) (fitEngine_checkBodies _) fun hstored => by
      rw [fitting, copy hstored]
      exact (fitBegin_manifest? _).trans (if_pos rfl)
  obtain ⟨t₂, h₂, hid₂, hothers₂⟩ := h₁.answered proper fitEngine_prompt (i := false)
    (hothers₁ false nofun) (asks false) (good false) (fitEngine_checkBodies _) fun hstored =>
      ManifestSource.noConfusion (inline.symm.trans hstored)
  refine ⟨t₂, h₂, fun i => ?_⟩
  cases i with
  | false => exact hid₂
  | true => exact ⟨id₁, (hothers₂ true nofun).trans hid₁⟩

/-- The run is submitted with its manifest and by the digest of the manifest, once without the
parameter and once with it. -/
def pairRequest : Bool → Submission
  | false => ⟨.inline (fitManifest []), "models", "nightly", Dict.empty⟩
  | true => ⟨.stored (fitManifest []).digest, "models", "nightly", Dict.empty.insert "rate" (.int 2)⟩

theorem pairRequest_asks (i : Bool) : (pairRequest i).Asks (fitting []) := by
  cases i with
  | false => exact ⟨.inl rfl, rfl, rfl, rfl⟩
  | true => exact ⟨.inr rfl, rfl, rfl, rfl⟩

theorem pair_shared : (twoSubmissions pairRequest).Proper Rehearsal.view fitBegin ∧
    ∃ t, (twoSubmissions pairRequest).Reachable Rehearsal.view fitBegin t ∧
      (∃ id, t.rest false = .done (.ok id) ∧ t.rest true = .done (.ok id)) ∧
      (t.drivesOf ((twoSubmissions pairRequest).asking (fitting []))).length = 1 := by
  have proper := twoSubmissions_proper pairRequest
  have copies : ∀ m ∈ (twoSubmissions pairRequest).manifests Rehearsal.view fitBegin,
      m.digest = (fitManifest []).digest → m.parameters = (fitManifest []).parameters := by
    intro m hm _
    refine twoSubmissions_parameters (fun i m h => ?_) hm
    cases i with
    | false => exact ⟨[], (ManifestSource.inline.inj h).symm⟩
    | true => exact ManifestSource.noConfusion h
  obtain ⟨t, h, hids⟩ := twoSubmissions_answered pairRequest_asks (fun _ => rfl) rfl fun _ => rfl
  obtain ⟨id, hid⟩ := hids false
  obtain ⟨id', hid'⟩ := hids true
  obtain ⟨same, -, -, one⟩ := h.shared proper (fitting []) copies
  have heq := same false (pairRequest_asks false) true (pairRequest_asks true) id id' hid hid'
  obtain ⟨_, horder, -⟩ := h.kept proper
  obtain ⟨y, e, hy, -⟩ := horder.returned hid
  refine ⟨proper, t, h, ⟨id, hid, heq ▸ hid'⟩, ?_⟩
  refine one e (hy.keyed (pairRequest_asks false) copies).1 (fitBegin_holder? _)
    (Set.notMem_empty _) (fun j _ _ _ _ => pairRequest_asks j) (fun i _ => ?_)
    ⟨false, pairRequest_asks false, id, hid⟩
  exact (hids i).imp' Except.ok fun _ hid => hid

/-! ## Two runs with one key -/

/-- An input that is bound to one of the infinities. -/
def infiniteInput (negative : Bool) : NodeInput :=
  ⟨"rate", .float, some (.literal (.float (.infinite negative))), none⟩

/-- Two manifests are submitted that are alike except for the sign of an infinity. -/
def rivalRequest (negative : Bool) : Submission :=
  ⟨.inline (fitManifest [infiniteInput negative]), "models", "nightly", Dict.empty⟩

theorem rivalRequest_asks_iff {i negative : Bool} :
    (rivalRequest i).Asks (fitting [infiniteInput negative]) ↔ i = negative := by
  constructor
  · rintro ⟨hsource | hsource, -, -, -⟩
    · have hm : fitManifest [infiniteInput i] = fitManifest [infiniteInput negative] :=
        ManifestSource.inline.inj hsource
      simpa [fitManifest, infiniteInput] using hm
    · exact ManifestSource.noConfusion hsource
  · rintro rfl
    exact ⟨.inl rfl, rfl, rfl, rfl⟩

/-- The texts of the manifests do not tell the infinities apart, and so the keys do not. -/
theorem fitting_infinite_key (negative : Bool) (e : Experiment) :
    (fitting [infiniteInput negative]).key e = (fitting [infiniteInput false]).key e := by
  have htexts : (fitManifest [infiniteInput negative]).compactText =
      (fitManifest [infiniteInput false]).compactText := by
    cases negative <;> rfl
  have hdigests : (fitting [infiniteInput negative]).manifest.digest =
      (fitting [infiniteInput false]).manifest.digest := congrArg textDigest htexts
  unfold Errand.key
  rw [hdigests]
  rfl

/-- No run was there before, and both submissions succeed: with one id, and not with a drive each. -/
theorem rivals_share_a_drive :
    ∃ t, (twoSubmissions rivalRequest).Reachable Rehearsal.view fitBegin t ∧
      (∀ key, Rehearsal.view.holder? fitBegin.state key = none) ∧
      (∃ id, ∀ i, t.rest i = .done (.ok id)) ∧
      ¬ ∀ negative, (t.drivesOf
        ((twoSubmissions rivalRequest).asking (fitting [infiniteInput negative]))).length = 1 := by
  have proper := twoSubmissions_proper rivalRequest
  have hasks (i : Bool) : (rivalRequest i).Asks (fitting [infiniteInput i]) :=
    rivalRequest_asks_iff.mpr rfl
  have copies (d : String) : ∀ m ∈ (twoSubmissions rivalRequest).manifests Rehearsal.view fitBegin,
      m.digest = d → m.parameters = (fitManifest []).parameters := fun m hm _ =>
    twoSubmissions_parameters (fun i _ h => ⟨[infiniteInput i], (ManifestSource.inline.inj h).symm⟩) hm
  obtain ⟨t, h, hids⟩ := twoSubmissions_answered hasks (fun i => by cases i <;> rfl) rfl
    fun h => ManifestSource.noConfusion h
  obtain ⟨stage, horder, haccount⟩ := h.kept proper
  have hreturned (i : Bool) : ∃ id e, t.rest i = .done (.ok id) ∧
      Rehearsal.view.experiment? t.now.state "models" = some e ∧
      Rehearsal.view.holder? t.now.state ((fitting [infiniteInput false]).key e) = some id := by
    obtain ⟨id, hid⟩ := hids i
    obtain ⟨y, e, hy, hheld, -⟩ := horder.returned hid
    obtain ⟨he, hkey⟩ := hy.keyed (hasks i) (copies _)
    rw [hkey, fitting_infinite_key] at hheld
    exact ⟨id, e, hid, he, hheld⟩
  obtain ⟨id, e, hid, he, hheld⟩ := hreturned false
  obtain ⟨id', e', hid', he', hheld'⟩ := hreturned true
  rw [he] at he'
  obtain rfl := Option.some.inj he'
  rw [hheld] at hheld'
  obtain rfl := Option.some.inj hheld'
  -- both have come to one experiment and one key, so that both give the run that holds it
  refine ⟨t, h, fitBegin_holder?, ⟨id, fun i => ?_⟩, fun hone => ?_⟩
  · cases i with
    | false => exact hid
    | true => exact hid'
  -- with a drive each, both submissions would own that key
  · have howner (negative : Bool) : ∃ y e', (stage negative).Owns y e' ∧
        y.key e' = (fitting [infiniteInput false]).key e := by
      obtain ⟨r, hr⟩ := List.length_pos_iff_exists_mem.mp
        (Nat.lt_of_lt_of_eq Nat.one_pos (hone negative).symm)
      obtain ⟨i, hi, hdrive⟩ := Traffic.mem_drivesOf.mp hr
      obtain rfl := rivalRequest_asks_iff.mp hi
      obtain ⟨y, e', hstage, -⟩ := haccount.driven i r hdrive
      have howns : (stage i).Owns y e' := hstage ▸ .started y e'
      obtain ⟨he', hkey⟩ := (howns.holder (horder.apt i)).1.keyed hi (copies _)
      obtain rfl := Option.some.inj (he.symm.trans he')
      exact ⟨y, e, howns, hkey.trans (fitting_infinite_key i e)⟩
    obtain ⟨y, e₁, hy, hkey⟩ := howner false
    obtain ⟨z, e₂, hz, hkey'⟩ := howner true
    exact Bool.noConfusion (horder.owner_eq proper.distinct hz hy (hkey'.trans hkey.symm))

end Batch
end Workflow
