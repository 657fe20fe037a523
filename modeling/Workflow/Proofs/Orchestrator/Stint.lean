import Workflow.Proofs.Orchestrator.Attended
import Workflow.Proofs.Schedule.Progress

/-!
# The work on a run in the background

The work on a submitted run goes on step by step while others use the services. The tracker is told
that the run has begun, of every change of a node and in the end of the status; if one of the two
changes of the status is refused, the run is marked as failed. Whatever happens, the work can always
be brought to its end, and the status that the tracker has then is terminal.
-/
namespace Workflow

variable {σ : Type}

/-! ## Drives whose updates are handed over -/

namespace Drive
variable {p : Plan} {bodies : Bodies} {params : Dict Scalar} {log : List (Nat × Ending)}
  {d d' : Drive}

theorem Logged.steps (h : Logged p bodies params log d) (hs : Steps p (fun _ _ => False) d d') :
    Logged p bodies params log d' := by
  induction hs with
  | refl => exact h
  | tail _ step ih => exact ih.quiet step

/-- A state of the loop whose updates have been handed over, with the endings up to there. -/
def Looped (p : Plan) (bodies : Bodies) (params : Dict Scalar) (log : List (Nat × Ending))
    (d : Drive) : Prop := ∃ full, Logged p bodies params log full ∧ full.handed = d

theorem Looped.writes_eq (h : Looped p bodies params log d) : d.writes = [] := by
  obtain ⟨full, -, rfl⟩ := h
  rfl

theorem handed_after (d : Drive) (writes : List (String × NodeState)) :
    (d.after writes []).handed = d.handed := by
  simp only [after, handed, List.append_nil]

theorem Looped.pass (h : Looped p bodies params log d) {cancel : Bool} (now : Instant)
    (kept : d.cancelling = true → cancel = true) :
    Looped p bodies params log (d.pass p cancel now).handed := by
  obtain ⟨full, hlogged, rfl⟩ := h
  exact ⟨full.pass p cancel now, hlogged.steps (pass_steps cancel now kept),
    (pass_handed full p cancel now).2⟩

theorem Looped.finish (h : Looped p bodies params log d) {task : Nat} {ending : Ending}
    {i : Invocation} (now : Instant) (member : task ∈ d.tasks) (invoked : i ∈ d.invocations)
    (same : i.task = task) (ends : bodies i ending) :
    Looped p bodies params (log ++ [(task, ending)])
      (d.finish p now task (.ended ending)).handed := by
  obtain ⟨full, hlogged, rfl⟩ := h
  refine ⟨_, hlogged.finish now member invoked same ends, ?_⟩
  rw [← after_handed full, finish_after, handed_after, after_handed]

theorem Looped.event (h : Looped p bodies params log d) (hevent : Event p bodies d d') :
    ∃ log', Looped p bodies params log' d'.handed := by
  cases hevent with
  | finish now member invoked same ends => exact ⟨_, h.finish now member invoked same ends⟩
  | @abandon task now member aborted =>
    obtain ⟨full, hlogged, rfl⟩ := h
    refine ⟨log, _, hlogged.quiet (.abandon now member aborted), ?_⟩
    rw [← after_handed full, finish_after, handed_after, after_handed]
  | notice =>
    obtain ⟨full, hlogged, rfl⟩ := h
    exact ⟨log, full, hlogged, rfl⟩
  | deadline cancelling running =>
    obtain ⟨full, hlogged, rfl⟩ := h
    exact ⟨log, full.abort, hlogged.quiet (.abort cancelling), rfl⟩

theorem Event.cancelling_eq (h : Event p bodies d d') : d'.cancelling = d.cancelling := by
  cases h with
  | finish now | abandon now => exact (finish_frame p now d _ _).2.1
  | notice | deadline => rfl

theorem Looped.length_le (h : Looped p bodies params log d) :
    log.length ≤ p.manifest.nodes.length := by
  obtain ⟨full, hlogged, -⟩ := h
  exact hlogged.length_le

/-- While a task is left, the body of one can end. -/
theorem Looped.exists_finish (h : Looped p bodies params log d) (busy : d.isIdle = false)
    (ends : ∀ i, ∃ ending, bodies i ending) (now : Instant) :
    ∃ entry d', Event p bodies d d' ∧ Looped p bodies params (log ++ [entry]) d'.handed := by
  obtain ⟨task, member⟩ : ∃ task, task ∈ d.tasks := by
    refine List.exists_mem_of_ne_nil _ fun hnil => ?_
    rw [isIdle, hnil] at busy
    cases busy
  have hledger : Ledger p d := by
    obtain ⟨full, hlogged, rfl⟩ := h
    exact { hlogged.reachable.ledger with }
  rw [← hledger.tasks_eq] at member
  obtain ⟨entry, hentry, htask⟩ := List.mem_map.mp member
  obtain ⟨i, invoked, same, -⟩ := hledger.invoked hentry
  rw [hledger.tasks_eq] at member
  obtain ⟨ending, hending⟩ := ends i
  exact ⟨_, _, .finish now member invoked (same.trans htask) hending,
    h.finish now member invoked (same.trans htask) hending⟩

end Drive

/-! ## Phases -/

/-- How far the work on a run has got; `left` is what the tracker has still to be told. -/
inductive Stint.Phase where
  | recorded
  | head (d : Drive)
  | passed (d : Drive) (left : List Run.Update)
  | followed (d : Drive) (left : List Run.Update)
  | failing
  | leaving

/-- What the tracker can be told next. -/
inductive Stint.Phase.Tells : Stint.Phase → Run.Update → Prop
  | begun (now : Instant) : Tells .recorded (.status .running now)
  | passed (d : Drive) (u : Run.Update) (left : List Run.Update) : Tells (.passed d (u :: left)) u
  | followed (d : Drive) (u : Run.Update) (left : List Run.Update) :
      Tells (.followed d (u :: left)) u
  | closed (d : Drive) (now : Instant) : Tells (.passed d []) (.status (finalStatus d.table) now)
  | failed (now : Instant) : Tells .failing (.status .failed now)

/-- What is to be done in the background. -/
structure Assignment where
  manifest : Manifest
  run : Run
  cancelRequested : Bool

/-- The work on a run. -/
structure Stint where
  assignment : Assignment
  phase : Stint.Phase

namespace Stint

def start (m : Manifest) (run : Run) : Stint := ⟨⟨m, run, false⟩, .recorded⟩

def cancelled (w : Stint) : Stint :=
  { w with assignment := { w.assignment with cancelRequested := true } }

end Stint

namespace Assignment

def plan (e : Engine σ) (a : Assignment) : Plan :=
  (ActiveRun.start a.manifest a.run).plan e (a.manifest.graph.topologicalOrder.toOption.getD [])

/-- One step of the work: what the tracker is told at once, or something that does not concern it.
Whether the tracker takes the state of a node does not matter. -/
inductive Step (e : Engine σ) (bodies : Bodies) (a : Assignment) :
    Stint.Phase × σ → Stint.Phase × σ → Prop
  | unsorted {s : σ} {fault : Fault} (cyclic : a.manifest.graph.topologicalOrder = .error fault) :
      Step e bodies a (.recorded, s) (.failing, s)
  | begun {s s' : σ} {order : List String} (now : Instant)
      (sorted : a.manifest.graph.topologicalOrder = .ok order)
      (answered : (e.services.tracker.updateRun a.run.id .running now).run.run s = (.ok (), s')) :
      Step e bodies a (.recorded, s) (.head (.start a.manifest a.run.params a.run.nodes), s')
  | unbegun {s s' : σ} {order : List String} {fault : Fault} (now : Instant)
      (sorted : a.manifest.graph.topologicalOrder = .ok order)
      (refused : (e.services.tracker.updateRun a.run.id .running now).run.run s =
        (.error fault, s')) :
      Step e bodies a (.recorded, s) (.failing, s')
  | pass {s : σ} {d : Drive} (now : Instant) :
      Step e bodies a (.head d, s)
        (.passed (d.pass (a.plan e) a.cancelRequested now).handed
          (d.pass (a.plan e) a.cancelRequested now).updates, s)
  | tell {s : σ} {d : Drive} {u : Run.Update} {left : List Run.Update} :
      Step e bodies a (.passed d (u :: left), s)
        (.passed d left, ((e.services.tracker.update a.run.id u).run.run s).2)
  | event {s : σ} {d d' : Drive} (busy : d.isIdle = false)
      (event : Drive.Event (a.plan e) bodies d d') :
      Step e bodies a (.passed d [], s) (.followed d'.handed d'.updates, s)
  | report {s : σ} {d : Drive} {u : Run.Update} {left : List Run.Update} :
      Step e bodies a (.followed d (u :: left), s)
        (.followed d left, ((e.services.tracker.update a.run.id u).run.run s).2)
  | again {s : σ} {d : Drive} : Step e bodies a (.followed d [], s) (.head d, s)
  | closed {s s' : σ} {d : Drive} (now : Instant) (idle : d.isIdle = true)
      (answered : (e.services.tracker.updateRun a.run.id (finalStatus d.table) now).run.run s =
        (.ok (), s')) :
      Step e bodies a (.passed d [], s) (.leaving, s')
  | unclosed {s s' : σ} {d : Drive} {fault : Fault} (now : Instant) (idle : d.isIdle = true)
      (refused : (e.services.tracker.updateRun a.run.id (finalStatus d.table) now).run.run s =
        (.error fault, s')) :
      Step e bodies a (.passed d [], s) (.failing, s')
  | failed {s : σ} (now : Instant) :
      Step e bodies a (.failing, s)
        (.leaving, ((e.services.tracker.updateRun a.run.id .failed now).run.run s).2)

variable {e : Engine σ} {bodies : Bodies} {a : Assignment} {s s' : σ} {x y : Stint.Phase × σ}

/-- All that a step does to the services is to tell the tracker something. -/
theorem Step.tells (h : a.Step e bodies x y) :
    y.2 = x.2 ∨ ∃ u, x.1.Tells u ∧ y.2 = ((e.services.tracker.update a.run.id u).run.run x.2).2 := by
  cases h with
  | unsorted | pass | event | again => exact .inl rfl
  | tell => exact .inr ⟨_, .passed .., rfl⟩
  | report => exact .inr ⟨_, .followed .., rfl⟩
  | begun now _ answered => exact .inr ⟨_, .begun now, (congrArg Prod.snd answered).symm⟩
  | unbegun now _ refused => exact .inr ⟨_, .begun now, (congrArg Prod.snd refused).symm⟩
  | closed now _ answered => exact .inr ⟨_, .closed _ now, (congrArg Prod.snd answered).symm⟩
  | unclosed now _ refused => exact .inr ⟨_, .closed _ now, (congrArg Prod.snd refused).symm⟩
  | failed now => exact .inr ⟨_, .failed now, rfl⟩

end Assignment

/-! ## What the tracker knows -/

namespace Tracker.Keeping
variable {t : Tracker σ} {k : t.Keeping} {id : String} {left : List Run.Update} {d : Drive}
  {s s' : σ} {u : Run.Update} {stored : Run}

/-- What is left to be told makes the nodes of the run those of the table. -/
def Told (k : t.Keeping) (id : String) (left : List Run.Update) (d : Drive) (s : σ) : Prop :=
  ∃ stored final, stored.id = id ∧ k.Holds s stored ∧ stored.updates? left = some final ∧
    final.nodes = d.table

/-- The tracker has the run with a terminal status. -/
def Settled (k : t.Keeping) (id : String) (s : σ) : Prop :=
  ∃ stored, stored.id = id ∧ k.Holds s stored ∧ stored.status.isTerminal = true

theorem Told.undisturbed (h : k.Told id left d s) (others : k.Undisturbed id s s') :
    k.Told id left d s' := by
  obtain ⟨stored, final, hid, held, hrest⟩ := h
  exact ⟨stored, final, hid, others stored hid held, hrest⟩

theorem Settled.undisturbed (h : k.Settled id s) (others : k.Undisturbed id s s') :
    k.Settled id s' := by
  obtain ⟨stored, hid, held, hterminal⟩ := h
  exact ⟨stored, hid, others stored hid held, hterminal⟩

/-- The tracker takes an update: if the run admits it, it succeeds, and the run can be read again. -/
def Takes (k : t.Keeping) (id : String) (u : Run.Update) (s : σ) : Prop :=
  ∀ stored r, stored.id = id → k.Holds s stored → stored.update? u = some r →
    ((t.update id u).run.run s).1 = .ok () ∧ k.Readable r

theorem Reliable.takes (hk : k.Reliable) (id : String) (u : Run.Update) (s : σ) :
    k.Takes id u s := by
  rintro stored r rfl held hr
  exact ⟨hk.answered held hr, hk.readable r⟩

theorem Takes.holds_update (h : k.Takes id u s) {r : Run} (hid : stored.id = id)
    (held : k.Holds s stored) (hr : stored.update? u = some r) :
    ((t.update id u).run.run s).1 = .ok () ∧ k.Holds ((t.update id u).run.run s).2 r := by
  obtain ⟨answered, readable⟩ := h stored r hid held hr
  subst hid
  exact ⟨answered, k.update held hr readable (Prod.ext answered rfl)⟩

theorem Told.tell (h : k.Told id (u :: left) d s) (takes : k.Takes id u s) :
    k.Told id left d ((t.update id u).run.run s).2 := by
  obtain ⟨stored, final, hid, held, hfinal, hnodes⟩ := h
  obtain ⟨r, hr, hrest⟩ := Run.updates?_cons_eq_some.mp hfinal
  exact ⟨r, final, (Run.id_of_update? hr).trans hid, (takes.holds_update hid held hr).2, hrest, hnodes⟩

/-- When everything is told, what follows can be told. -/
theorem Told.follow (h : k.Told id [] d s) (hwrites : d.writes = []) {d' : Drive}
    (hnext : ∀ r, Drive.Accounts r d → Drive.Accounts r d') : k.Told id d'.updates d'.handed s := by
  obtain ⟨stored, final, hid, held, hfinal, hnodes⟩ := h
  obtain rfl : stored = final := Option.some.inj hfinal
  exact ⟨stored, _, hid, held, hnext stored (Drive.accounts_of_writes hwrites hnodes), rfl⟩

theorem Takes.settles {status : RunStatus} {now : Instant}
    (h : k.Takes id (.status status now) s) (hid : stored.id = id) (held : k.Holds s stored)
    (terminal : status.isTerminal = true) :
    ((t.updateRun id status now).run.run s).1 = .ok () ∧
      k.Settled id ((t.updateRun id status now).run.run s).2 := by
  obtain ⟨answered, held'⟩ := h.holds_update hid held rfl
  exact ⟨answered, stored.setStatus status now, hid, held', terminal⟩

end Tracker.Keeping

namespace Assignment
variable {e : Engine σ} {k : e.services.tracker.Keeping} {bodies : Bodies} {a : Assignment}
  {s s' : σ} {x y : Stint.Phase × σ} {d : Drive} {left : List Run.Update} {phase : Stint.Phase}

/-! ## What holds in a phase -/

/-- The drive has come to a state of the loop, and the tracker has the run as far as it has been
told. -/
structure Looping (e : Engine σ) (k : e.services.tracker.Keeping) (bodies : Bodies)
    (a : Assignment) (d : Drive) (left : List Run.Update) (s : σ) : Prop where
  looped : ∃ log, Drive.Looped (a.plan e) bodies a.run.params log d
  kept : d.cancelling = true → a.cancelRequested = true
  told : k.Told a.run.id left d s

/-- What is known of the work in a phase. -/
inductive Sound (e : Engine σ) (k : e.services.tracker.Keeping) (bodies : Bodies)
    (a : Assignment) : Stint.Phase × σ → Prop
  | recorded {s : σ} (held : k.Holds s a.run)
      (pending : a.run.nodes =
        Dict.ofList ((a.manifest.nodes.map (·.id)).map fun id => (id, .pending))) :
      Sound e k bodies a (.recorded, s)
  | head {s : σ} {d : Drive} (looping : a.Looping e k bodies d [] s) :
      Sound e k bodies a (.head d, s)
  | passed {s : σ} {d : Drive} {left : List Run.Update} (looping : a.Looping e k bodies d left s) :
      Sound e k bodies a (.passed d left, s)
  | followed {s : σ} {d : Drive} {left : List Run.Update} (looping : a.Looping e k bodies d left s) :
      Sound e k bodies a (.followed d left, s)
  | failing {s : σ} {stored : Run} (same : stored.id = a.run.id) (held : k.Holds s stored) :
      Sound e k bodies a (.failing, s)
  | leaving {s : σ} (settled : k.Settled a.run.id s) : Sound e k bodies a (.leaving, s)

theorem Looping.tell {u : Run.Update} (h : a.Looping e k bodies d (u :: left) s)
    (takes : k.Takes a.run.id u s) :
    a.Looping e k bodies d left ((e.services.tracker.update a.run.id u).run.run s).2 :=
  { h with told := h.told.tell takes }

theorem looped_start (pending : a.run.nodes =
    Dict.ofList ((a.manifest.nodes.map (·.id)).map fun id => (id, .pending))) :
    Drive.Looped (a.plan e) bodies a.run.params [] (.start a.manifest a.run.params a.run.nodes) := by
  refine ⟨_, .start, ?_⟩
  rw [pending]
  rfl

theorem Looping.pass (h : a.Looping e k bodies d [] s) (now : Instant) :
    a.Looping e k bodies (d.pass (a.plan e) a.cancelRequested now).handed
      (d.pass (a.plan e) a.cancelRequested now).updates s := by
  obtain ⟨log, hlooped⟩ := h.looped
  exact ⟨⟨log, hlooped.pass now h.kept⟩,
    fun hc => (Drive.pass_cancelling (a.plan e) now h.kept).symm.trans hc,
    h.told.follow hlooped.writes_eq fun _ hr => hr.pass _ _ now⟩

theorem Looping.event (h : a.Looping e k bodies d [] s) {d' : Drive}
    (hevent : Drive.Event (a.plan e) bodies d d') :
    a.Looping e k bodies d'.handed d'.updates s := by
  obtain ⟨log, hlooped⟩ := h.looped
  exact ⟨hlooped.event hevent, fun hc => h.kept (hevent.cancelling_eq.symm.trans hc),
    h.told.follow hlooped.writes_eq fun _ hr => hr.event hevent⟩

/-- If the tracker takes what it is told, no change of the status is refused, and in the end the run
has a terminal one. -/
theorem Sound.step (h : a.Sound e k bodies x) (takes : ∀ u, x.1.Tells u → k.Takes a.run.id u x.2)
    (hstep : a.Step e bodies x y) : a.Sound e k bodies y := by
  -- every step belongs to one phase, and `takes` is about what the tracker is told in it
  cases hstep with
  | unsorted cyclic =>
    cases h with
    | recorded held pending => exact .failing rfl held
  | begun now sorted answered =>
    cases h with
    | @recorded s held pending =>
      have hbegun := ((takes _ (.begun now)).holds_update rfl held rfl).2
      rw [Tracker.update, answered] at hbegun
      exact .head ⟨⟨_, looped_start pending⟩, Bool.noConfusion, a.run.setStatus .running now, _, rfl, hbegun,
        rfl, rfl⟩
  | unbegun now sorted refused =>
    cases h with
    | recorded held pending =>
      have hbegun := ((takes _ (.begun now)).holds_update rfl held rfl).1
      rw [Tracker.update, refused] at hbegun
      cases hbegun
  | pass now =>
    cases h with
    | head looping => exact .passed (looping.pass now)
  | tell =>
    cases h with
    | passed looping => exact .passed (looping.tell (takes _ (.passed ..)))
  | event busy hevent =>
    cases h with
    | passed looping => exact .followed (looping.event hevent)
  | report =>
    cases h with
    | followed looping => exact .followed (looping.tell (takes _ (.followed ..)))
  | again =>
    cases h with
    | followed looping => exact .head looping
  | @closed s s' d now idle answered =>
    cases h with
    | passed looping =>
      obtain ⟨stored, final, hid, held, -⟩ := looping.told
      have hsettled := ((takes _ (.closed d now)).settles hid held (isTerminal_finalStatus d.table)).2
      rw [answered] at hsettled
      exact .leaving hsettled
  | @unclosed s s' d fault now idle refused =>
    cases h with
    | passed looping =>
      obtain ⟨stored, final, hid, held, -⟩ := looping.told
      have hanswer := ((takes _ (.closed d now)).settles hid held (isTerminal_finalStatus d.table)).1
      rw [refused] at hanswer
      cases hanswer
  | failed now =>
    cases h with
    | failing same held => exact .leaving ((takes _ (.failed now)).settles same held rfl).2

theorem Sound.undisturbed (h : a.Sound e k bodies (phase, s))
    (others : k.Undisturbed a.run.id s s') : a.Sound e k bodies (phase, s') := by
  have hlooping {d left} (h : a.Looping e k bodies d left s) : a.Looping e k bodies d left s' :=
    { h with told := h.told.undisturbed others }
  cases h with
  | recorded held pending => exact .recorded (others _ rfl held) pending
  | head looping => exact .head (hlooping looping)
  | passed looping => exact .passed (hlooping looping)
  | followed looping => exact .followed (hlooping looping)
  | failing same held => exact .failing same (others _ same held)
  | leaving settled => exact .leaving (settled.undisturbed others)

theorem Sound.cancelled (h : a.Sound e k bodies x) :
    ({ a with cancelRequested := true } : Assignment).Sound e k bodies x := by
  have hlooping {d left s} (h : a.Looping e k bodies d left s) :
      ({ a with cancelRequested := true } : Assignment).Looping e k bodies d left s :=
    ⟨h.looped, fun _ => rfl, h.told⟩
  cases h with
  | recorded held pending => exact .recorded held pending
  | head looping => exact .head (hlooping looping)
  | passed looping => exact .passed (hlooping looping)
  | followed looping => exact .followed (hlooping looping)
  | failing same held => exact .failing same held
  | leaving settled => exact .leaving settled

/-! ## The end of the work -/

/-- What the work can come to while nothing else happens. -/
abbrev Leads (e : Engine σ) (bodies : Bodies) (a : Assignment) :
    Stint.Phase × σ → Stint.Phase × σ → Prop :=
  Relation.ReflTransGen (a.Step e bodies)

theorem leads_told {phase : List Run.Update → Stint.Phase}
    (tell : ∀ u left s, a.Step e bodies (phase (u :: left), s)
      (phase left, ((e.services.tracker.update a.run.id u).run.run s).2))
    (left : List Run.Update) (s : σ) : ∃ s', a.Leads e bodies (phase left, s) (phase [], s') := by
  induction left generalizing s with
  | nil => exact ⟨s, .refl⟩
  | cons u left ih =>
    obtain ⟨s', hrest⟩ := ih ((e.services.tracker.update a.run.id u).run.run s).2
    exact ⟨s', .head (tell u left s) hrest⟩

theorem leads_passed (e : Engine σ) (bodies : Bodies) (a : Assignment) (d : Drive)
    (left : List Run.Update) (s : σ) :
    ∃ s', a.Leads e bodies (.passed d left, s) (.passed d [], s') :=
  leads_told (fun _ _ _ => .tell) left s

theorem leads_followed (e : Engine σ) (bodies : Bodies) (a : Assignment) (d : Drive)
    (left : List Run.Update) (s : σ) :
    ∃ s', a.Leads e bodies (.followed d left, s) (.head d, s') := by
  obtain ⟨s', hrest⟩ := leads_told (a := a) (fun _ _ _ => .report) left s
  exact ⟨s', hrest.tail .again⟩

theorem failing_leaves (e : Engine σ) (bodies : Bodies) (a : Assignment) (s : σ) :
    ∃ s', a.Leads e bodies (.failing, s) (.leaving, s') := ⟨_, .single (.failed ⟨0, 0⟩)⟩

theorem idle_leaves (e : Engine σ) (bodies : Bodies) (a : Assignment) (idle : d.isIdle = true)
    (s : σ) : ∃ s', a.Leads e bodies (.passed d [], s) (.leaving, s') := by
  rcases hanswer : (e.services.tracker.updateRun a.run.id (finalStatus d.table) ⟨0, 0⟩).run.run s
    with ⟨fault | _, s₁⟩
  · obtain ⟨s', hrest⟩ := failing_leaves e bodies a s₁
    exact ⟨s', .head (.unclosed _ idle hanswer) hrest⟩
  · exact ⟨s₁, .single (.closed _ idle hanswer)⟩

/-- Bodies end one after another until none is left, and no more of them can end than there are
nodes. -/
theorem passed_leaves (ends : ∀ i, ∃ ending, bodies i ending) {log : List (Nat × Ending)} (n : ℕ)
    (room : a.manifest.nodes.length ≤ log.length + n)
    (looped : Drive.Looped (a.plan e) bodies a.run.params log d)
    (kept : d.cancelling = true → a.cancelRequested = true) (s : σ) :
    ∃ s', a.Leads e bodies (.passed d [], s) (.leaving, s') := by
  -- by the number of bodies that can still end: each ending is followed by another pass
  induction n generalizing log d s with
  | zero =>
    cases hidle : d.isIdle with
    | true => exact idle_leaves e bodies a hidle s
    | false =>
      obtain ⟨entry, d', -, hnext⟩ := looped.exists_finish hidle ends ⟨0, 0⟩
      have hlength : (log ++ [entry]).length ≤ a.manifest.nodes.length := hnext.length_le
      rw [List.length_append, List.length_singleton] at hlength
      omega
  | succ n ih =>
    cases hidle : d.isIdle with
    | true => exact idle_leaves e bodies a hidle s
    | false =>
      obtain ⟨entry, d', hevent, hnext⟩ := looped.exists_finish hidle ends ⟨0, 0⟩
      have hkept : d'.handed.cancelling = true → a.cancelRequested = true := fun hc =>
        kept (hevent.cancelling_eq.symm.trans hc)
      have hcancelling := Drive.pass_cancelling (a.plan e) ⟨0, 0⟩ hkept
      have hroom : a.manifest.nodes.length ≤ (log ++ [entry]).length + n := by
        rw [List.length_append, List.length_singleton]
        omega
      obtain ⟨s₁, hfollowed⟩ := leads_followed e bodies a d'.handed d'.updates s
      obtain ⟨s₂, hpassed⟩ := leads_passed e bodies a
        (d'.handed.pass (a.plan e) a.cancelRequested ⟨0, 0⟩).handed
        (d'.handed.pass (a.plan e) a.cancelRequested ⟨0, 0⟩).updates s₁
      obtain ⟨s', hrest⟩ := ih hroom (hnext.pass ⟨0, 0⟩ hkept)
        (fun hc => hcancelling.symm.trans hc) s₂
      exact ⟨s', .head (.event hidle hevent) (hfollowed.trans (.head (.pass _) (hpassed.trans hrest)))⟩

theorem head_leaves (ends : ∀ i, ∃ ending, bodies i ending) {log : List (Nat × Ending)}
    (looped : Drive.Looped (a.plan e) bodies a.run.params log d)
    (kept : d.cancelling = true → a.cancelRequested = true) (s : σ) :
    ∃ s', a.Leads e bodies (.head d, s) (.leaving, s') := by
  have hcancelling := Drive.pass_cancelling (a.plan e) ⟨0, 0⟩ kept
  obtain ⟨s₁, hpassed⟩ := leads_passed e bodies a
    (d.pass (a.plan e) a.cancelRequested ⟨0, 0⟩).handed
    (d.pass (a.plan e) a.cancelRequested ⟨0, 0⟩).updates s
  obtain ⟨s', hrest⟩ := passed_leaves ends _ (Nat.le_add_left _ _) (looped.pass ⟨0, 0⟩ kept)
    (fun hc => hcancelling.symm.trans hc) s₁
  exact ⟨s', .head (.pass _) (hpassed.trans hrest)⟩

/-- Whatever the tracker answers, the work can be brought to its end. -/
theorem Sound.leaves (h : a.Sound e k bodies x) (ends : ∀ i, ∃ ending, bodies i ending) :
    ∃ s', a.Leads e bodies x (.leaving, s') := by
  -- no answer of the tracker is needed: whatever it says, some step leads on
  cases h with
  | @recorded s held pending =>
    cases hsorted : a.manifest.graph.topologicalOrder with
    | error fault =>
      obtain ⟨s', hrest⟩ := failing_leaves e bodies a s
      exact ⟨s', .head (.unsorted hsorted) hrest⟩
    | ok order =>
      rcases hanswer : (e.services.tracker.updateRun a.run.id .running ⟨0, 0⟩).run.run s
        with ⟨fault | _, s₁⟩
      · obtain ⟨s', hrest⟩ := failing_leaves e bodies a s₁
        exact ⟨s', .head (.unbegun _ hsorted hanswer) hrest⟩
      · obtain ⟨s', hrest⟩ := head_leaves ends (looped_start pending) nofun s₁
        exact ⟨s', .head (.begun _ hsorted hanswer) hrest⟩
  | @head s d looping =>
    obtain ⟨log, hlooped⟩ := looping.looped
    exact head_leaves ends hlooped looping.kept s
  | @passed s d left looping =>
    obtain ⟨log, hlooped⟩ := looping.looped
    obtain ⟨s₁, htold⟩ := leads_passed e bodies a d left s
    obtain ⟨s', hrest⟩ := passed_leaves ends _ (Nat.le_add_left _ _) hlooped looping.kept s₁
    exact ⟨s', htold.trans hrest⟩
  | @followed s d left looping =>
    obtain ⟨log, hlooped⟩ := looping.looped
    obtain ⟨s₁, htold⟩ := leads_followed e bodies a d left s
    obtain ⟨s', hrest⟩ := head_leaves ends hlooped looping.kept s₁
    exact ⟨s', htold.trans hrest⟩
  | @failing s stored same held => exact failing_leaves e bodies a s
  | @leaving s settled => exact ⟨s, .refl⟩

end Assignment
end Workflow
