import Workflow.Proofs.Orchestrator.Attended
import Workflow.Proofs.Schedule.Cancellation

/-!
# The tracker is told of everything

Runs on the clock go through the heads of the loop: what is noted in a turn is recorded in that
turn, and what is noted when an event comes is recorded first thing in the next one. Together with
what holds at the heads, the tracker knows of a run all but what is noted and not yet recorded.
-/
namespace Workflow

/-- The bodies of an engine end as they may, and they leave a run alone. -/
structure Engine.Discreet {σ : Type} (e : Engine σ) (k : e.services.tracker.Keeping)
    (bodies : Bodies) (id : String) : Prop where
  ends : ∀ i, Yields (e.invoke i) fun result => bodies i result.2
  leaves : ∀ i s, k.Undisturbed id s ((e.invoke i).run s).2

namespace ActiveRun
variable {σ : Type} {e : Engine σ} {k : e.services.tracker.Keeping} {p : Plan} {bodies : Bodies}
  {run : Run} {r r' : ActiveRun} {d d' : Drive} {s s' : σ} {cancel : Bool} {now : Instant}

/-! ## A turn -/

/-- To record what is noted is to carry out the outstanding updates. -/
theorem run_recordWrites (e : Engine σ) (r : ActiveRun) (s : σ) :
    (r.recordWrites e).run s =
      ({ r with drive := r.drive.handed },
        e.services.tracker.carryOut r.run.id r.drive.updates s) := by
  let record (w : String × NodeState) : StateM σ Unit := do
    let _ ← (e.services.tracker.updateNode r.run.id w.1 w.2).run
  have hwrites (writes : List (String × NodeState)) (s : σ) : (writes.forM record).run s =
      ((), e.services.tracker.carryOut r.run.id (writes.map fun w => .node w.1 w.2) s) := by
    induction writes generalizing s with
    | nil => rfl
    | cons w writes ih => exact ih _
  exact congrArg (fun out => (_, out.2)) (hwrites r.drive.writes.reverse s)

theorem carryOut_undisturbed {id : String} (he : e.Discreet k bodies id) (r : ActiveRun)
    (time : Nat) (s : σ) : k.Undisturbed id s ((r.carryOut e time).run s).2 := by
  let spawn (i : Invocation) : StateM σ Job := do
    let out ← e.invoke i
    return ⟨i.task, time + out.1, .ended out.2⟩
  have hjobs (started : List Invocation) (s : σ) :
      k.Undisturbed id s ((started.mapM spawn).run s).2 := by
    induction started generalizing s with
    | nil => exact .refl
    | cons i started ih =>
      rw [List.mapM_cons]
      exact (he.leaves i s).trans (ih _)
  exact hjobs r.drive.invocations.reverse s

/-- A run shows a drive with the same outstanding updates. -/
structure Mirrors (e : Engine σ) (p : Plan) (bodies : Bodies) (run : Run) (r : ActiveRun)
    (d : Drive) : Prop where
  run_eq : r.run = run
  begun : r.begun = true
  shows : r.Shows e p bodies d
  level : r.drive.after [] d.invocations = d

theorem Mirrors.updates_eq (h : r.Mirrors e p bodies run d) : r.drive.updates = d.updates := by
  rw [← h.level]
  simp only [Drive.updates, Drive.after, List.append_nil]

/-- A run on the clock goes through the heads of the loop: of its drive the tracker knows all but
the outstanding updates, and once it has been told of them the run is at a head. -/
structure Attends (k : e.services.tracker.Keeping) (p : Plan) (bodies : Bodies) (run : Run)
    (r : ActiveRun) (s : σ) (d : Drive) : Prop extends r.Mirrors e p bodies run d where
  known : ∃ stored, stored.id = run.id ∧ k.Holds s stored ∧ Drive.Accounts stored d
  attended : ∀ s', k.Posted run.id d.updates s s' → k.Attended p bodies run d.handed s'

/-- A run has had its turn: a pass from a head of the loop, of which the tracker has been told. -/
structure Turned (k : e.services.tracker.Keeping) (p : Plan) (bodies : Bodies) (run : Run)
    (r : ActiveRun) (s : σ) (d : Drive) (cancel : Bool) (now : Instant) : Prop
    extends r.Mirrors e p bodies run (d.pass p cancel now).handed where
  known : k.Records run.id (d.pass p cancel now).table s
  kept : d.cancelling = true → cancel = true
  passed : ∃ s₀, k.Attended p bodies run d s₀ ∧ k.Posted run.id (d.pass p cancel now).updates s₀ s

theorem Shows.hand (h : r.Shows e p bodies d) (hwrites : r.drive.writes = []) :
    r.Shows e p bodies d.handed ∧ r.drive.after [] d.handed.invocations = d.handed := by
  obtain ⟨writes, hshown⟩ := h.shown
  have hlevel : r.drive.after [] d.handed.invocations = d.handed := by
    rw [← hshown]
    simp only [Drive.after, Drive.handed, hwrites, h.handed, List.nil_append]
  refine ⟨⟨h.planned, ⟨[], hlevel⟩, h.handed, h.kept, h.timed, fun j hj => ?_⟩, hlevel⟩
  exact ⟨(h.jobs j hj).member, (h.jobs j hj).ends, (h.jobs j hj).stopped⟩

/-- The updates that are outstanding lead to the head of the loop, and those of a pass on from
there. -/
theorem Attends.told (h : Attends k p bodies run r s d) (hk : k.Reliable) (cancel : Bool)
    (now : Instant) :
    ∃ s₀, k.Attended p bodies run d.handed s₀ ∧
      k.Posted run.id (d.handed.pass p cancel now).updates s₀
        (e.services.tracker.carryOut run.id (d.pass p cancel now).updates s) := by
  obtain ⟨stored, hid, held, haccounts⟩ := h.known
  have hhead := h.attended _ (hk.posted hid held haccounts)
  obtain ⟨stored₀, hid₀, held₀, hnodes₀⟩ := hhead.records
  refine ⟨_, hhead, ?_⟩
  rw [(d.pass_handed p cancel now).1, Tracker.carryOut_append]
  exact hk.posted hid₀ held₀ (hhead.accounts_pass cancel now hnodes₀)

theorem Attends.turn (h : Attends k p bodies run r s d) (hk : k.Reliable)
    (he : e.Discreet k bodies run.id) (time : Nat) :
    Turned k p bodies run ((r.turn e p time).run s).1 ((r.turn e p time).run s).2 d.handed
      r.cancelRequested (e.origin.addMillis time) := by
  let now := e.origin.addMillis time
  let passed : ActiveRun := { r with
    drive := r.drive.pass p r.cancelRequested now
    deadline := if r.cancelRequested then r.deadline <|> some (time + e.grace) else r.deadline }
  let handed : ActiveRun := { passed with drive := passed.drive.handed }
  let told := e.services.tracker.carryOut run.id (d.pass p r.cancelRequested now).updates s
  have hhanded := (d.pass_handed p r.cancelRequested now).2
  obtain ⟨s₀, hhead, hposted⟩ := h.told hk r.cancelRequested now
  -- `d` also has the bodies that were started before, to which a pass pays no attention
  have hupdates : passed.drive.updates = (d.pass p r.cancelRequested now).updates := by
    rw [← h.level, Drive.pass_after]
    simp only [Drive.updates, Drive.after, List.append_nil, passed]
  have hturn : (r.turn e p time).run s = (handed.carryOut e time).run told := by
    have hid : passed.run.id = run.id := congrArg Run.id h.run_eq
    change (((passed.recordWrites e).run s).1.carryOut e time).run
      ((passed.recordWrites e).run s).2 = _
    rw [run_recordWrites, hupdates, hid]
  -- the bodies are started when all is recorded, and they leave the run alone
  have hafter := hposted.after (carryOut_undisturbed he handed time told)
  rw [← hturn] at hafter
  obtain ⟨jobs, hresult, -⟩ := carryOut_yields he.ends handed time told
  rw [← hturn] at hresult
  have hhand := (h.shows.turn he.ends time s).1.hand (by rw [hresult]; rfl)
  rw [hhanded] at hhand
  constructor
  case toMirrors =>
    refine ⟨?_, ?_, hhand.1, hhand.2⟩
    · rw [hresult]
      exact h.run_eq
    · rw [hresult]
      exact h.begun
  case known => exact hhead.records.post (fun r hr => hhead.accounts_pass _ _ hr) hafter
  case kept => exact h.shows.kept
  case passed => exact ⟨s₀, hhead, hafter⟩

/-! ## After a turn -/

/-- A run that has had its turn attends the loop again when an event has come. -/
theorem Turned.attends (h : Turned k p bodies run r s d cancel now)
    (busy : (d.pass p cancel now).isIdle = false)
    (event : Drive.Event p bodies (d.pass p cancel now).handed d')
    (hmirrors : r'.Mirrors e p bodies run d') : Attends k p bodies run r' s d' where
  toMirrors := hmirrors
  known := by
    obtain ⟨stored, hid, held, hnodes⟩ := h.known
    have hhanded : Drive.Accounts stored (d.pass p cancel now).handed :=
      Drive.accounts_of_writes rfl hnodes
    exact ⟨stored, hid, held, hhanded.event event⟩
  attended s' followed := by
    obtain ⟨s₀, hhead, passed⟩ := h.passed
    exact .turn hhead cancel now h.kept passed busy event followed

/-- When it notices the cancellation it attends the loop as it is. -/
theorem Turned.attends_noticing (h : Turned k p bodies run r s d cancel now)
    (busy : (d.pass p cancel now).isIdle = false) :
    Attends k p bodies run r s (d.pass p cancel now).handed :=
  h.attends busy .notice h.toMirrors

theorem Turned.receive (h : Turned k p bodies run r s d cancel now)
    (busy : (d.pass p cancel now).isIdle = false) {due : Nat} {awaited : Awaited}
    (hnext : r.next? = some (due, awaited)) (later : Instant) (time : Nat) :
    Attends k p bodies run (r.receive p later time awaited) s
      (awaited.follow p later (d.pass p cancel now).handed) := by
  have hframe : (r.receive p later time awaited).run = r.run ∧
      (r.receive p later time awaited).begun = r.begun := by cases awaited <;> exact ⟨rfl, rfl⟩
  refine h.attends busy ((h.shows.comes hnext).event later)
    ⟨hframe.1.trans h.run_eq, hframe.2.trans h.begun, h.shows.receive later time awaited, ?_⟩
  rw [receive_drive, (awaited.follow_frame p later _).2, ← Awaited.follow_after, h.level]

/-- When the loop has ended, the status is recorded and the run is returned. -/
theorem Turned.returned (h : Turned k p bodies run r s d cancel now) (hk : k.Reliable)
    (idle : (d.pass p cancel now).isIdle = true) (later : Instant) :
    ∃ s', (e.services.tracker.updateRun (r.ended later).id (r.ended later).status later).run.run s =
        (.ok (), s') ∧ k.Returned p bodies run (r.ended later) s' := by
  have htable : r.drive.table = (d.pass p cancel now).table := h.shows.books_eq.1
  have hended : r.ended later =
      { run with
        nodes := (d.pass p cancel now).table
        status := finalStatus (d.pass p cancel now).table
        finishedAt := some later } := by
    rw [ended, h.run_eq, htable]
  obtain ⟨stored, hid, held, -⟩ := h.known
  obtain ⟨s₀, hhead, passed⟩ := h.passed
  let final : Run.Update := .status (finalStatus (d.pass p cancel now).table) later
  have hclosed : k.Posted run.id [final] s (e.services.tracker.carryOut run.id [final] s) :=
    hk.posted hid held rfl
  have hanswer : ((e.services.tracker.update run.id final).run.run s).1 = .ok () :=
    hid ▸ hk.answered held rfl
  rw [hended]
  exact ⟨_, Prod.ext hanswer rfl,
    .exit hhead cancel now later later h.kept idle (passed.append hclosed)⟩

/-! ## The loop -/

/-- A run is under way on the clock: it has been submitted and is recorded, or it has had its turn
and waits. -/
inductive Underway (k : e.services.tracker.Keeping) (p : Plan) (bodies : Bodies) (run : Run) :
    ActiveRun → σ → Prop
  | submitted {r : ActiveRun} {s : σ} (begun : r.begun = false)
      (mirrors : { r with begun := true }.Mirrors e p bodies run
        (.start p.manifest run.params run.nodes))
      (recorded : k.Holds s run) : Underway k p bodies run r s
  | waiting {r : ActiveRun} {s : σ} {d : Drive} {cancel : Bool} {now : Instant}
      (turned : Turned k p bodies run r s d cancel now)
      (busy : (d.pass p cancel now).isIdle = false) : Underway k p bodies run r s

/-- What a run that is under way comes to: it stays so, or it is returned. -/
def Written (k : e.services.tracker.Keeping) (p : Plan) (bodies : Bodies) (run : Run) :
    Progress × σ → Prop
  | (.waiting r, s) => Underway k p bodies run r s
  | (.over _ _ (.ok result), s) => k.Returned p bodies run result s
  | (.over _ _ (.error _), _) => False

theorem written_bind {α : Type} {x : StateM σ α} {f : α → StateM σ Progress}
    (h : Written k p bodies run ((f (x.run s).1).run (x.run s).2)) :
    Written k p bodies run ((x >>= f).run s) := h

/-- A run that waits attends the loop again when something has come. -/
theorem Turned.await (h : Turned k p bodies run r s d cancel now)
    (busy : (d.pass p cancel now).isIdle = false) (limit : Option Nat)
    {next : Nat → ActiveRun → StateM σ Progress}
    (hnext : ∀ {r' d'} due, Attends k p bodies run r' s d' →
      Written k p bodies run ((next due r').run s)) :
    Written k p bodies run ((r.await e p limit next).run s) := by
  unfold ActiveRun.await
  split
  · exact .waiting h busy
  · rename_i due awaited hcomes
    split_ifs
    · exact hnext due (h.receive busy hcomes (e.origin.addMillis due) due)
    · exact .waiting h busy

/-- However long a run goes on, it goes through the heads of the loop. -/
theorem Attends.go (hk : k.Reliable) (he : e.Discreet k bodies run.id) (limit : Option Nat)
    (fuel time : Nat) (waited : Bool) (h : Attends k p bodies run r s d) :
    Written k p bodies run ((ActiveRun.go e p limit fuel time waited r).run s) := by
  -- a turn passes the head, and the event that ends the wait leads on to the next one
  induction fuel using Nat.strong_induction_on generalizing time waited r s d with
  | _ fuel ih =>
    have hturn := h.turn hk he time
    rw [ActiveRun.go]
    refine written_bind ?_
    generalize ((r.turn e p time).run s).1 = r', ((r.turn e p time).run s).2 = s' at hturn ⊢
    have hidle := hturn.shows.books_eq.2
    split_ifs with hover
    · obtain ⟨s'', hanswer, hreturned⟩ :=
        hturn.returned hk (hidle.symm.trans hover) (e.origin.addMillis time)
      refine written_bind ?_
      rw [hanswer]
      exact hreturned
    · have hbusy := hidle.symm.trans (Bool.not_eq_true _ ▸ hover)
      cases fuel with
      | zero => exact .waiting hturn hbusy
      | succ fuel =>
        exact hturn.await hbusy limit fun due hattends =>
          ih fuel fuel.lt_succ_self due true hattends

/-- Whenever a run that is under way is executed, it stays so or is returned. -/
theorem Underway.progress (h : Underway k p bodies run r s) (hk : k.Reliable)
    (he : e.Discreet k bodies run.id) (hp : p.Proper) (limit : Option Nat) (time : Nat) :
    Written k p bodies run ((r.progress e limit time).run s) := by
  have hplan : r.plan e p.order = p := by
    cases h with
    | submitted begun mirrors recorded => exact mirrors.shows.planned
    | waiting turned busy => exact turned.shows.planned
  have horder : r.manifest.graph.topologicalOrder = .ok p.order := by
    have hmanifest : r.manifest = p.manifest := congrArg Plan.manifest hplan
    rw [hmanifest]
    exact hp.order_eq
  rw [ActiveRun.progress, horder]
  simp only [hplan]
  cases h with
  | waiting turned busy =>
    rw [if_pos turned.begun]
    split_ifs
    · exact (turned.attends_noticing busy).go hk he limit _ time false
    · exact turned.await busy limit fun due hattends => hattends.go hk he limit _ due true
  | submitted begun mirrors recorded =>
    rw [if_neg (by rw [begun]; exact Bool.false_ne_true)]
    -- before its first turn the run is recorded as running
    let first : Run.Update := .status .running (e.origin.addMillis time)
    have hid : r.run.id = run.id := congrArg Run.id mirrors.run_eq
    have hcall :
        (e.services.tracker.updateRun r.run.id .running (e.origin.addMillis time)).run.run s =
          (.ok (), e.services.tracker.carryOut run.id [first] s) := by
      rw [hid]
      exact Prod.ext (hk.answered (u := first) recorded rfl) rfl
    have hposted : k.Posted run.id [first] s (e.services.tracker.carryOut run.id [first] s) :=
      hk.posted rfl recorded rfl
    have hattends : Attends k p bodies run { r with begun := true }
        (e.services.tracker.carryOut run.id [first] s)
        (.start p.manifest run.params run.nodes) :=
      { mirrors with
        known := ⟨run.setStatus .running (e.origin.addMillis time), rfl,
          hposted.holds rfl recorded rfl, Drive.accounts_of_writes rfl rfl⟩
        attended := fun s' followed => .start _ recorded (hposted.append followed) }
    refine written_bind ?_
    rw [hcall]
    exact hattends.go hk he limit _ time false

/-! ## What others do -/

/-- A run that has been submitted and recorded is under way. -/
theorem underway_start (hplan : (start p.manifest run).plan e p.order = p)
    (recorded : k.Holds s run) : Underway k p bodies run (start p.manifest run) s := by
  have hshows : (start p.manifest run).Shows e p bodies (.start p.manifest run.params run.nodes) :=
    hplan ▸ start_shows e bodies p.manifest p.order run
  exact .submitted rfl ⟨rfl, rfl, { hshows with }, rfl⟩ recorded

theorem Mirrors.cancelled (h : r.Mirrors e p bodies run d) :
    ({ r with cancelRequested := true } : ActiveRun).Mirrors e p bodies run d :=
  { h with shows := h.shows.cancel }

theorem Underway.cancelled (h : Underway k p bodies run r s) :
    Underway k p bodies run { r with cancelRequested := true } s := by
  cases h with
  | submitted begun mirrors recorded => exact .submitted begun mirrors.cancelled recorded
  | waiting turned busy =>
    exact .waiting { turned with toMirrors := turned.toMirrors.cancelled } busy

theorem Underway.undisturbed (h : Underway k p bodies run r s)
    (others : k.Undisturbed run.id s s') : Underway k p bodies run r s' := by
  cases h with
  | submitted begun mirrors recorded => exact .submitted begun mirrors (others run rfl recorded)
  | waiting turned busy =>
    obtain ⟨stored, hid, held, hnodes⟩ := turned.known
    obtain ⟨s₀, hhead, passed⟩ := turned.passed
    exact .waiting { turned with
      known := ⟨stored, hid, others stored hid held, hnodes⟩
      passed := ⟨s₀, hhead, passed.after others⟩ } busy

/-- The tracker knows all of it but what is noted and not yet recorded. -/
theorem Underway.reports (h : Underway k p bodies run r s) :
    e.services.tracker.Reports run.id s fun stored => Drive.Accounts stored r.drive := by
  cases h with
  | submitted begun mirrors recorded =>
    have hnothing : Drive.Accounts run (.start p.manifest run.params run.nodes) :=
      Drive.accounts_of_writes rfl rfl
    refine k.reports rfl recorded ?_
    rw [Drive.Accounts, mirrors.updates_eq, mirrors.shows.books_eq.1]
    exact hnothing
  | @waiting d cancel now turned busy =>
    obtain ⟨stored, hid, held, hnodes⟩ := turned.known
    have hnothing : Drive.Accounts stored (d.pass p cancel now).handed :=
      Drive.accounts_of_writes rfl hnodes
    refine k.reports hid held ?_
    rw [Drive.Accounts, turned.updates_eq, turned.shows.books_eq.1]
    exact hnothing

end ActiveRun

/-- Whatever a run goes through and whenever it is cancelled, the tracker has the nodes of the table
at every head of the loop; and when a run is returned it has the nodes of that run and its status,
which is terminal. Every run that is executed on the clock with a reliable tracker goes through such
heads until it is returned, and in between the tracker knows all but what is still to be recorded
first thing in the next turn. -/
theorem written_through {σ : Type} (p : Plan) (bodies : Bodies) (run : Run) :
    (∀ (t : Tracker σ) (k : t.Keeping),
      (∀ d s, k.Attended p bodies run d s →
        t.Reports run.id s fun stored => stored.nodes = d.table) ∧
      ∀ result s, k.Returned p bodies run result s → result.status.isTerminal = true ∧
        t.Reports run.id s fun stored =>
          stored.nodes = result.nodes ∧ stored.status = result.status) ∧
    ∀ (e : Engine σ) (k : e.services.tracker.Keeping), k.Reliable →
      e.Discreet k bodies run.id → p.Proper → ∀ r s, ActiveRun.Underway k p bodies run r s →
        (e.services.tracker.Reports run.id s fun stored => Drive.Accounts stored r.drive) ∧
        ∀ limit time, ActiveRun.Written k p bodies run ((r.progress e limit time).run s) := by
  refine ⟨fun t k => ⟨fun d s h => ?_, fun result s h => ?_⟩, fun e k hk he hp r s h => ?_⟩
  · obtain ⟨r, hid, held, hnodes⟩ := h.records
    exact k.reports hid held hnodes
  · obtain ⟨hterminal, r, hid, held, hkept⟩ := h.records
    exact ⟨hterminal, k.reports hid held hkept⟩
  · exact ⟨h.reports, fun limit time => h.progress hk he hp limit time⟩

/-! ## Rehearsals -/

namespace Rehearsal

/-- The bodies of a rehearsal do not come near its tracker. -/
theorem invoke_tracker (setup : RehearsalSetup) (i : Invocation) (r : Rehearsal) :
    ((invoke setup i).run r).2.tracker = r.tracker := by
  unfold invoke
  cases i.body with
  | shell command interpreter environment => rfl
  | registered name =>
    cases hget : setup.bodies.get? name with
    | none =>
      simp only [hget]
      rfl
    | some body =>
      simp only [hget]
      rfl

theorem engine_discreet (setup : RehearsalSetup) (origin : Instant) (id : String) :
    (engine setup origin).Discreet (keeping setup) (fun _ _ => True) id where
  ends _ _ := trivial
  leaves i r run _ held := by
    change ((invoke setup i).run r).2.tracker.runs.get? run.id = some run
    rw [invoke_tracker]
    exact held

/-- Three nodes, of which one is about to panic and one takes too long to outlast a cancellation. -/
def trioSetup : RehearsalSetup where
  bodies := ⟨Dict.empty.insert "work" ⟨⟨20, []⟩, Dict.empty.insert "a" ⟨5, [.panic]⟩⟩⟩
  installed _ := true
  workers := 2
  grace := 10
  artifacts := none
  failingNodes := []
  failingStatuses := []

def trioRun : Run := .begin "r" "first" "e" "trio" "m" .empty "k" ["a", "b", "c"] ⟨0, 0⟩

def trioRecorded : Rehearsal :=
  { empty with tracker := { MemoryTracker.empty with runs := Dict.empty.insert "r" trioRun } }

def trioSubmitted : ActiveRun := .start Drive.trio.manifest trioRun

def trioPlan : Plan := trioSubmitted.plan (engine trioSetup ⟨0, 0⟩) ["b", "a", "c"]

/-- The run is executed until two of its nodes have been started. -/
def trioStarted : Progress × Rehearsal :=
  (trioSubmitted.progress (engine trioSetup ⟨0, 0⟩) (some 3) 0).run trioRecorded

/-- Then it is cancelled and executed to its end. -/
def trioCancelled (r : ActiveRun) (s : Rehearsal) : Progress × Rehearsal :=
  (({ r with cancelRequested := true } : ActiveRun).progress (engine trioSetup ⟨0, 0⟩) none 3).run s

/-- How the cancelled trio ends. -/
def trioEnding : Progress × Rehearsal → Option (Nat × Bool × RunStatus)
  | (.waiting r, s) =>
    match (trioCancelled r s).1 with
    | .over time waited (.ok result) => some (time, waited, result.status)
    | _ => none
  | _ => none

/-- The trio waits with two running nodes; after the cancellation one of them fails and the other is
aborted, and this is what the tracker has in the end. -/
theorem trio_written_through : ∃ r s result s',
    trioStarted = (.waiting r, s) ∧
    ((watched trioSetup).Reports "r" s fun stored => Drive.Accounts stored r.drive) ∧
    trioCancelled r s = (.over 13 true (.ok result), s') ∧
    result.status = .failed ∧ result.status.isTerminal = true ∧
    (watched trioSetup).Reports "r" s' fun stored =>
      stored.nodes = result.nodes ∧ stored.status = result.status := by
  obtain ⟨hreports, hclock⟩ := written_through (σ := Rehearsal) trioPlan (fun _ _ => True) trioRun
  have hsubmitted : ActiveRun.Underway (e := engine trioSetup ⟨0, 0⟩) (keeping trioSetup) trioPlan
      (fun _ _ => True) trioRun trioSubmitted trioRecorded := ActiveRun.underway_start rfl rfl
  have hstep := hclock (engine trioSetup ⟨0, 0⟩) (keeping trioSetup) (keeping_reliable rfl rfl)
    (engine_discreet trioSetup ⟨0, 0⟩ _) ⟨rfl, rfl⟩
  have hstarted : ActiveRun.Written (e := engine trioSetup ⟨0, 0⟩) (keeping trioSetup) trioPlan
      (fun _ _ => True) trioRun trioStarted := (hstep _ _ hsubmitted).2 (some 3) 0
  -- the clock is run once, and what it comes to says which cases are met on the way
  have hending : trioEnding trioStarted = some (13, true, .failed) := by decide +kernel
  rcases hwaits : trioStarted with ⟨r | ⟨time, waited, result⟩, s⟩
  all_goals rw [hwaits] at hstarted hending
  rotate_left
  · cases hending
  obtain ⟨hreport, hnext⟩ := hstep _ _ (ActiveRun.Underway.cancelled hstarted)
  have hcancelled : ActiveRun.Written (e := engine trioSetup ⟨0, 0⟩) (keeping trioSetup) trioPlan
      (fun _ _ => True) trioRun (trioCancelled r s) := hnext none 3
  rw [trioEnding] at hending
  rcases hover : trioCancelled r s with ⟨_ | ⟨time, waited, _ | result⟩, s'⟩
  all_goals rw [hover] at hending hcancelled
  case ok =>
    simp only [Option.some.injEq, Prod.mk.injEq] at hending
    obtain ⟨rfl, rfl, hstatus⟩ := hending
    obtain ⟨hterminal, hreported⟩ := (hreports _ (keeping trioSetup)).2 result s' hcancelled
    exact ⟨r, s, result, s', rfl, hreport, hover, hstatus, hterminal, hreported⟩
  all_goals cases hending

end Rehearsal
end Workflow
