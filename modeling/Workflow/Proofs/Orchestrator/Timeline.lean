import Workflow.Orchestrator.Timeline
import Workflow.Proofs.Schedule.Termination

/-!
# Runs on a clock

A run on a clock hands over its logs after every pass and goes on with empty ones. Nothing that a
drive does depends on its logs: with the entries put back, the turn of a run is a pass of the loop,
and what the run waits for is an event of the loop. While a task is left there is always something
to wait for.
-/
namespace Workflow

namespace Drive
variable {p : Plan} {d : Drive} {writes : List (String × NodeState)} {started : List Invocation}
  {now : Instant}

/-! ## Logs -/

/-- The drive with earlier entries in its logs. -/
def after (d : Drive) (writes : List (String × NodeState)) (started : List Invocation) : Drive :=
  { d with writes := d.writes ++ writes, invocations := d.invocations ++ started }

theorem move?_after (d : Drive) (id : String) (source target : NodeStatus) (now : Instant)
    (details : NodeState → NodeState) :
    (d.after writes started).move? id source target now details =
      (d.move? id source target now details).map fun d => d.after writes started := by
  simp only [move?, after, Option.map_map]
  rfl

theorem move_after (d : Drive) (id : String) (source target : NodeStatus) (now : Instant)
    (details : NodeState → NodeState) :
    (d.after writes started).move id source target now details =
      (d.move id source target now details).after writes started := by
  rw [move, move, move?_after]
  cases d.move? id source target now details <;> rfl

theorem resolveNode_after (d : Drive) (id : String) :
    resolveNode p now (d.after writes started) id =
      (resolveNode p now d id).after writes started := by
  have htable : (d.after writes started).table = d.table := rfl
  have hvalues : (d.after writes started).artifacts = d.artifacts := rfl
  unfold resolveNode
  simp only [htable, hvalues, move_after]
  split_ifs
  · rfl
  · repeat' split
    all_goals rfl

theorem startNode_after (d : Drive) (id : String) :
    startNode p now (d.after writes started) id = (startNode p now d id).after writes started := by
  have htable : (d.after writes started).table = d.table := rfl
  have htasks : (d.after writes started).tasks = d.tasks := rfl
  have hvalues : (d.after writes started).artifacts = d.artifacts := rfl
  unfold startNode
  simp only [htable, htasks, hvalues, move_after, move?_after]
  split_ifs
  · rfl
  · split
    · rfl
    · split
      · rfl
      · cases d.move? id .ready .running now fun s => s <;> rfl

theorem skipNode_after (d : Drive) (id : String) :
    skipNode now (d.after writes started) id = (skipNode now d id).after writes started := by
  simp only [skipNode, move_after]

theorem foldl_after {f : Drive → String → Drive}
    (hf : ∀ d id, f (d.after writes started) id = (f d id).after writes started)
    (ids : List String) (d : Drive) :
    ids.foldl f (d.after writes started) = (ids.foldl f d).after writes started := by
  induction ids generalizing d with
  | nil => rfl
  | cons id ids ih => rw [List.foldl_cons, List.foldl_cons, hf, ih]

theorem pass_after (p : Plan) (cancel : Bool) (now : Instant) (d : Drive) :
    (d.after writes started).pass p cancel now = (d.pass p cancel now).after writes started := by
  cases cancel with
  | true => exact foldl_after skipNode_after p.order { d with cancelling := true }
  | false =>
    simp only [pass, resolvePending, startReady, Bool.false_eq_true, if_false]
    rw [foldl_after resolveNode_after, foldl_after startNode_after]

theorem finish_after (p : Plan) (now : Instant) (d : Drive) (task : Nat) (joined : Joined) :
    (d.after writes started).finish p now task joined =
      (d.finish p now task joined).after writes started := by
  have hrunning : (d.after writes started).running = d.running := rfl
  have hjoin : (d.after writes started).join task = (d.join task).after writes started := rfl
  unfold finish
  rw [hrunning, hjoin]
  split
  · rfl
  · split
    · exact move_after _ _ _ _ _ _
    · split
      · rfl
      · split
        · exact move_after _ _ _ _ _ _
        · exact move_after { d.join task with artifacts := storeOutputs _ _ d.artifacts } _ _ _ _ _

/-! ## Tasks -/

theorem framed_started_mem_tasks : Framed fun d => ∀ i ∈ d.invocations, i.task ∈ d.tasks where
  put _ _ h := h
  spawn _ _ _ h i hi := by
    rcases List.mem_cons.mp hi with rfl | hi
    · exact List.mem_append_right _ (List.mem_singleton.mpr rfl)
    · exact List.mem_append_left _ (h i hi)

theorem framed_tasks_started (old : List Nat) :
    Framed fun d => ∀ task ∈ d.tasks, task ∈ old ∨ ∃ i ∈ d.invocations, i.task = task where
  put _ _ h := h
  spawn _ _ _ h task ht := by
    rcases List.mem_append.mp ht with ht | ht
    · exact (h task ht).imp_right fun ⟨i, hi, hit⟩ => ⟨i, List.mem_cons_of_mem _ hi, hit⟩
    · exact .inr ⟨_, List.mem_cons_self, (List.mem_singleton.mp ht).symm⟩

end Drive

/-! ## Results of stateful computations -/

section
variable {σ α β : Type} {P : α → Prop} {Q : β → Prop}

/-- Whatever the state is, the result is one of those. -/
def Yields (x : StateM σ α) (P : α → Prop) : Prop := ∀ s, P (x.run s).1

theorem yields_pure {a : α} (h : P a) : Yields (pure a : StateM σ α) P := fun _ => h

theorem Yields.bind {x : StateM σ α} {f : α → StateM σ β} (hx : Yields x P)
    (hf : ∀ a, P a → Yields (f a) Q) : Yields (x >>= f) Q := fun s =>
  hf _ (hx s) (x.run s).2

theorem yields_mapM {f : α → StateM σ β} {R : α → β → Prop} (hf : ∀ a, Yields (f a) (R a))
    (items : List α) : Yields (items.mapM f) fun results =>
      (∀ b ∈ results, ∃ a ∈ items, R a b) ∧ ∀ a ∈ items, ∃ b ∈ results, R a b := by
  induction items with
  | nil => exact yields_pure ⟨List.forall_mem_nil _, List.forall_mem_nil _⟩
  | cons a items ih =>
    rw [List.mapM_cons]
    refine (hf a).bind fun b hb => ih.bind fun results hresults => yields_pure ?_
    obtain ⟨hfrom, hto⟩ := hresults
    refine ⟨List.forall_mem_cons.mpr ⟨⟨a, List.mem_cons_self, hb⟩, fun c hc => ?_⟩,
      List.forall_mem_cons.mpr ⟨⟨b, List.mem_cons_self, hb⟩, fun c hc => ?_⟩⟩
    · exact (hfrom c hc).imp fun _ h => ⟨List.mem_cons_of_mem _ h.1, h.2⟩
    · exact (hto c hc).imp fun _ h => ⟨List.mem_cons_of_mem _ h.1, h.2⟩

end

/-! ## Active runs -/

variable {bodies : Bodies}

namespace ActiveRun
variable {σ : Type} {e : Engine σ} {p : Plan} {r : ActiveRun} {d : Drive}

/-- The plan of a run is proper and lets at least one body run. -/
theorem plan_spec (e : Engine σ) (r : ActiveRun) {order : List String}
    (h : r.manifest.graph.topologicalOrder = .ok order) :
    (r.plan e order).Proper ∧ 1 ≤ (r.plan e order).workers :=
  ⟨⟨rfl, h⟩, Nat.le_max_left _ _⟩

/-- A run on a clock shows a drive: it has handed over the logs, its jobs are the work of the drive,
and the drive knows no more of a cancellation than the run. The grace period begins when the drive
knows of it. -/
structure Shows (e : Engine σ) (p : Plan) (bodies : Bodies) (r : ActiveRun) (d : Drive) : Prop where
  planned : r.plan e p.order = p
  shown : ∃ writes, r.drive.after writes d.invocations = d
  handed : r.drive.invocations = []
  kept : d.cancelling = true → r.cancelRequested = true
  timed : r.deadline.isSome = d.cancelling
  jobs : ∀ j ∈ r.jobs, Drive.Joinable bodies d (j.task, j.joined)

/-- The jobs of a run are all the work of a drive. -/
def Worked (r : ActiveRun) (d : Drive) : Prop := ∀ task ∈ d.tasks, ∃ j ∈ r.jobs, j.task = task

theorem Shows.books_eq (h : r.Shows e p bodies d) :
    r.drive.table = d.table ∧ r.drive.isIdle = d.isIdle := by
  obtain ⟨writes, hshown⟩ := h.shown
  rw [← hshown]
  exact ⟨rfl, rfl⟩

/-- A run that has been submitted shows the state in which its drive starts. -/
theorem start_shows (e : Engine σ) (bodies : Bodies) (m : Manifest) (order : List String)
    (run : Run) :
    (start m run).Shows e ((start m run).plan e order) bodies (.start m run.params run.nodes) where
  planned := rfl
  shown := ⟨[], rfl⟩
  handed := rfl
  kept := nofun
  timed := rfl
  jobs := nofun

/-- When all nodes are pending this is the state in which a run begins. -/
theorem start_shows_begin (e : Engine σ) (bodies : Bodies) (m : Manifest) (order : List String)
    {run : Run}
    (hnodes : run.nodes = Dict.ofList ((m.nodes.map (·.id)).map fun id => (id, .pending))) :
    (start m run).Shows e ((start m run).plan e order) bodies (.begin m run.params) := by
  rw [Drive.begin, ← hnodes]
  exact start_shows e bodies m order run

theorem Shows.cancel (h : r.Shows e p bodies d) :
    ({ r with cancelRequested := true } : ActiveRun).Shows e p bodies d :=
  { h with kept := fun _ => rfl }

theorem recordWrites_yields (e : Engine σ) (r : ActiveRun) :
    Yields (r.recordWrites e) (· = { r with drive := { r.drive with writes := [] } }) :=
  fun _ => rfl

/-- What a body is known by when it has been started. -/
def Spawns (bodies : Bodies) (i : Invocation) (j : Job) : Prop :=
  j.task = i.task ∧ ∃ ending, j.joined = .ended ending ∧ bodies i ending

theorem carryOut_yields (hbodies : ∀ i, Yields (e.invoke i) fun result => bodies i result.2)
    (r : ActiveRun) (time : Nat) :
    Yields (r.carryOut e time) fun r' => ∃ jobs,
      r' = { r with jobs := r.jobs ++ jobs, drive := { r.drive with invocations := [] } } ∧
      (∀ j ∈ jobs, ∃ i ∈ r.drive.invocations, Spawns bodies i j) ∧
      ∀ i ∈ r.drive.invocations, ∃ j ∈ jobs, Spawns bodies i j := by
  refine (yields_mapM (R := Spawns bodies)
    (fun i => (hbodies i).bind fun result hends => ?_) _).bind
    fun jobs hjobs => yields_pure ⟨jobs, rfl, ?_⟩
  · exact yields_pure ⟨rfl, _, rfl, hends⟩
  · simpa only [List.mem_reverse] using hjobs

/-- After a turn the run shows the drive after a pass. -/
theorem Shows.turn (hbodies : ∀ i, Yields (e.invoke i) fun result => bodies i result.2)
    (h : r.Shows e p bodies d) (time : Nat) :
    Yields (r.turn e p time) fun r' =>
      r'.Shows e p bodies (d.pass p r.cancelRequested (e.origin.addMillis time)) ∧
        (r.Worked d → r'.Worked (d.pass p r.cancelRequested (e.origin.addMillis time))) := by
  let passed := r.drive.pass p r.cancelRequested (e.origin.addMillis time)
  obtain ⟨writes, hshown⟩ := h.shown
  have hpass : d.pass p r.cancelRequested (e.origin.addMillis time) =
      passed.after writes d.invocations := by
    rw [← Drive.pass_after, hshown]
  have hcancelling := Drive.pass_cancelling p (e.origin.addMillis time) h.kept
  refine (recordWrites_yields e _).bind ?_
  rintro _ rfl
  intro s
  obtain ⟨jobs, hjobs, hnew, hall⟩ := carryOut_yields hbodies _ time s
  rw [hjobs]
  refine ⟨?_, fun worked => ?_⟩
  · constructor
    case planned => exact h.planned
    case shown =>
      rw [hpass]
      exact ⟨passed.writes ++ writes, rfl⟩
    case handed => rfl
    case kept => exact fun hc => hcancelling.symm.trans hc
    case timed =>
      rw [hcancelling]
      cases hcancel : r.cancelRequested with
      | true => cases r.deadline <;> simp
      | false =>
        -- an earlier deadline comes from a cancellation, and none of these is taken back
        have hnone : d.cancelling = false :=
          Bool.not_eq_true _ ▸ fun hc => absurd (h.kept hc) (by simp [hcancel])
        simpa [hnone] using h.timed
    case jobs =>
      intro j hj
      rcases List.mem_append.mp hj with hj | hj
      · have hg := h.jobs j hj
        exact (Drive.framed_joinable bodies _).pass _ (fun _ => hg)
          fun _ => ⟨hg.member, hg.ends, hg.stopped⟩
      · obtain ⟨i, hi, htask, ending, hjoined, hends⟩ := hnew j hj
        have hopen : ∀ i ∈ passed.invocations, i.task ∈ passed.tasks :=
          Drive.framed_started_mem_tasks.pass _ (by simp [h.handed]) (by simp [h.handed])
        rw [hpass]
        refine ⟨htask ▸ hopen i hi, fun he => ?_, fun ha => ?_⟩
        · cases hjoined.symm.trans he
          exact ⟨i, List.mem_append_left _ hi, htask.symm, hends⟩
        · cases hjoined.symm.trans ha
  · have hstarted : ∀ task ∈ passed.tasks,
        task ∈ r.drive.tasks ∨ ∃ i ∈ passed.invocations, i.task = task :=
      (Drive.framed_tasks_started _).pass _ (fun _ _ => .inl) fun _ _ => .inl
    have htasks : d.tasks = r.drive.tasks := (congrArg Drive.tasks hshown).symm
    rw [hpass]
    intro task ht
    rcases hstarted task ht with hold | ⟨i, hi, rfl⟩
    · obtain ⟨j, hj, hjt⟩ := worked task (htasks ▸ hold)
      exact ⟨j, List.mem_append_left _ hj, hjt⟩
    · obtain ⟨j, hj, hjt, -⟩ := hall i hi
      exact ⟨j, List.mem_append_right _ hj, hjt⟩

/-! ## What a run waits for -/

theorem mem_of_nextJob? {jobs : List Job} {j : Job} (h : nextJob? jobs = some j) : j ∈ jobs := by
  refine List.foldlRecOn (motive := fun found => ∀ j, found = some j → j ∈ jobs) jobs _ ?_ ?_ j h
  · rintro j ⟨⟩
  · intro found ih k hk j hj
    split at hj
    · exact Option.some.inj hj ▸ hk
    · split_ifs at hj
      · exact Option.some.inj hj ▸ hk
      · exact ih j hj

theorem nextJob?_of_mem {jobs : List Job} {j : Job} (h : j ∈ jobs) : (nextJob? jobs).isSome := by
  cases jobs with
  | nil => cases h
  | cons k jobs =>
    refine List.foldlRecOn (motive := fun found : Option Job => found.isSome = true) jobs _ rfl
      fun found _ j _ => ?_
    split
    · rfl
    · split_ifs <;> rfl

/-- A run waits for one of its jobs, or for the end of the grace period while that is to come. -/
theorem next?_spec {due : Nat} {awaited : Awaited} (h : r.next? = some (due, awaited)) :
    (∃ j ∈ r.jobs, awaited = .job j) ∨
      awaited = .deadline ∧ r.deadline.isSome = true ∧ r.drive.aborted = false := by
  have htimed {t : Nat} (hd : (if r.drive.aborted then none else r.deadline) = some t) :
      r.deadline.isSome = true ∧ r.drive.aborted = false := by
    split_ifs at hd with ha
    exact ⟨by rw [hd]; rfl, by simpa using ha⟩
  cases hj : nextJob? r.jobs with
  | none =>
    cases hd : (if r.drive.aborted then none else r.deadline) with
    | none =>
      simp only [next?, hj, hd] at h
      cases h
    | some t =>
      simp only [next?, hj, hd] at h
      cases h
      exact .inr ⟨rfl, htimed hd⟩
  | some j =>
    cases hd : (if r.drive.aborted then none else r.deadline) with
    | none =>
      simp only [next?, hj, hd] at h
      cases h
      exact .inl ⟨j, mem_of_nextJob? hj, rfl⟩
    | some t =>
      simp only [next?, hj, hd] at h
      split_ifs at h
      · cases h
        exact .inl ⟨j, mem_of_nextJob? hj, rfl⟩
      · cases h
        exact .inr ⟨rfl, htimed hd⟩

end ActiveRun

/-! ## What comes -/

namespace Awaited
variable {p : Plan} {d : Drive} {now : Instant} {awaited : Awaited}

/-- What becomes of a drive when it comes. -/
def follow (p : Plan) (now : Instant) (d : Drive) : Awaited → Drive
  | .job j => d.finish p now j.task j.joined
  | .deadline => d.abort

/-- It may come to a drive. -/
def Comes (bodies : Bodies) (d : Drive) : Awaited → Prop
  | .job j => Drive.Joinable bodies d (j.task, j.joined)
  | .deadline => d.cancelling = true ∧ d.aborted = false

theorem Comes.event (h : awaited.Comes bodies d) (now : Instant) :
    Drive.Event p bodies d (awaited.follow p now d) := by
  cases awaited with
  | job j => exact Drive.Joinable.event (e := (j.task, j.joined)) h now
  | deadline => exact .deadline h.1 h.2

theorem follow_after {writes : List (String × NodeState)} {started : List Invocation} :
    awaited.follow p now (d.after writes started) =
      (awaited.follow p now d).after writes started := by
  cases awaited with
  | job j => exact Drive.finish_after p now d j.task j.joined
  | deadline => rfl

theorem follow_frame (p : Plan) (now : Instant) (d : Drive) (awaited : Awaited) :
    (awaited.follow p now d).cancelling = d.cancelling ∧
      (awaited.follow p now d).invocations = d.invocations := by
  cases awaited with
  | job j =>
    obtain ⟨-, hcancelling, -, hinvocations⟩ := Drive.finish_frame p now d j.task j.joined
    exact ⟨hcancelling, hinvocations⟩
  | deadline => exact ⟨rfl, rfl⟩

end Awaited

namespace ActiveRun
variable {σ : Type} {e : Engine σ} {p : Plan} {r : ActiveRun} {d : Drive} {due : Nat}
  {awaited : Awaited}

theorem receive_drive (p : Plan) (now : Instant) (time : Nat) (r : ActiveRun) (awaited : Awaited) :
    (r.receive p now time awaited).drive = awaited.follow p now r.drive := by
  cases awaited <;> rfl

/-- While a task is left there is something to wait for. -/
theorem Worked.next?_isSome (h : r.Worked d) (busy : d.isIdle = false) : r.next?.isSome := by
  obtain ⟨task, ht⟩ : ∃ task, task ∈ d.tasks := List.exists_mem_of_ne_nil _ fun hnil => by
    rw [Drive.isIdle, hnil] at busy
    cases busy
  obtain ⟨j, hj, -⟩ := h task ht
  obtain ⟨k, hk⟩ := Option.isSome_iff_exists.mp (nextJob?_of_mem hj)
  unfold next?
  rw [hk]
  cases (if r.drive.aborted then none else r.deadline) <;> rfl

/-- What a run waits for may come to the drive. -/
theorem Shows.comes (h : r.Shows e p bodies d) (hnext : r.next? = some (due, awaited)) :
    awaited.Comes bodies d := by
  obtain ⟨writes, hshown⟩ := h.shown
  rcases next?_spec hnext with ⟨j, hj, rfl⟩ | ⟨rfl, hdeadline, haborted⟩
  · exact h.jobs j hj
  · exact ⟨h.timed ▸ hdeadline, (congrArg Drive.aborted hshown).symm.trans haborted⟩

/-- When it has come the run shows what becomes of the drive. -/
theorem Shows.receive (h : r.Shows e p bodies d) (now : Instant) (time : Nat) (awaited : Awaited) :
    (r.receive p now time awaited).Shows e p bodies (awaited.follow p now d) := by
  obtain ⟨writes, hshown⟩ := h.shown
  obtain ⟨hcancelling, hstarted⟩ := awaited.follow_frame p now d
  constructor
  case shown =>
    refine ⟨writes, ?_⟩
    rw [receive_drive, hstarted, ← Awaited.follow_after, hshown]
  case handed => rw [receive_drive, (awaited.follow_frame p now r.drive).2, h.handed]
  case planned => cases awaited <;> exact h.planned
  case kept =>
    have hrequested : (r.receive p now time awaited).cancelRequested = r.cancelRequested := by
      cases awaited <;> rfl
    exact fun hc => hrequested.trans (h.kept (hcancelling ▸ hc))
  case timed =>
    have hdeadline : (r.receive p now time awaited).deadline = r.deadline := by
      cases awaited <;> rfl
    rw [hdeadline, hcancelling, h.timed]
  case jobs =>
    intro k hk
    cases awaited with
    | job j =>
      obtain ⟨hk, hne⟩ := List.mem_filter.mp hk
      exact (h.jobs k hk).finish (e := (j.task, j.joined)) (by simpa using hne) now
    | deadline =>
      obtain ⟨j, hj, rfl⟩ := List.mem_map.mp hk
      exact ⟨(h.jobs j hj).member, nofun, fun _ => rfl⟩

theorem Worked.receive (h : r.Worked d) (distinct : d.tasks.Nodup) (now : Instant) (time : Nat)
    (awaited : Awaited) : (r.receive p now time awaited).Worked (awaited.follow p now d) := by
  intro task ht
  cases awaited with
  | job j =>
    have htasks : (Awaited.follow p now d (.job j)).tasks = d.tasks.erase j.task :=
      (Drive.finish_frame p now d j.task j.joined).1
    rw [htasks, distinct.mem_erase_iff] at ht
    obtain ⟨k, hk, rfl⟩ := h task ht.2
    exact ⟨k, List.mem_filter.mpr ⟨hk, by simpa using ht.1⟩, rfl⟩
  | deadline =>
    obtain ⟨j, hj, hjt⟩ := h task ht
    exact ⟨_, List.mem_map_of_mem hj, hjt⟩

end ActiveRun
end Workflow
