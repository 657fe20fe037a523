import Workflow.Proofs.Orchestrator.Stint
import Workflow.Proofs.Orchestrator.WriteThrough

/-!
# Runs on the clock are worked on step by step

A run that is executed on the clock goes through the heads of the loop, and the tracker is told in
between. All of this is work on the run: its steps lead from the recorded run to each of the heads and
in the end to the point at which the run is left, with cancellations and what others do in between.
-/
namespace Workflow

variable {σ : Type}

namespace Tracker.Keeping
variable {t : Tracker σ} {k : t.Keeping} {id : String} {us : List Run.Update} {u : Run.Update}
  {s s' : σ}

theorem Posted.of_concat (h : k.Posted id (us ++ [u]) s s') :
    ∃ s₁ s₂, k.Posted id us s s₁ ∧ (t.update id u).run.run s₁ = (.ok (), s₂) ∧
      k.Undisturbed id s₂ s' := by
  induction us generalizing s with
  | nil =>
    obtain _ | ⟨others, answered, -, later⟩ := h
    obtain ⟨others'⟩ := later
    exact ⟨_, _, .rest others, answered, others'⟩
  | cons u₁ us ih =>
    obtain _ | ⟨others, answered, readable, later⟩ := h
    obtain ⟨s₁, s₂, hposted, hlast⟩ := ih later
    exact ⟨s₁, s₂, .post others answered readable hposted, hlast⟩

end Tracker.Keeping

namespace Stint

/-- What happens to the work on a run: it goes on, somebody cancels the run, or others change the
services and leave the run alone. -/
inductive Moves (e : Engine σ) (k : e.services.tracker.Keeping) (bodies : Bodies) :
    Stint × σ → Stint × σ → Prop
  | work {a : Assignment} {phase phase' : Phase} {s s' : σ}
      (step : a.Step e bodies (phase, s) (phase', s')) :
      Moves e k bodies (⟨a, phase⟩, s) (⟨a, phase'⟩, s')
  | cancel {w : Stint} {s : σ} : Moves e k bodies (w, s) (w.cancelled, s)
  | other {w : Stint} {s s' : σ} (others : k.Undisturbed w.assignment.run.id s s') :
      Moves e k bodies (w, s) (w, s')

/-- What the work on a run can come to. -/
abbrev Course (e : Engine σ) (k : e.services.tracker.Keeping) (bodies : Bodies) :
    Stint × σ → Stint × σ → Prop := Relation.ReflTransGen (Moves e k bodies)

variable {e : Engine σ} {k : e.services.tracker.Keeping} {bodies : Bodies} {a : Assignment}
  {us : List Run.Update} {s s' : σ}

/-- The tracker is told of updates one by one. -/
theorem course_of_posted (bodies : Bodies) (a : Assignment) (phase : List Run.Update → Phase)
    (tell : ∀ u left s, a.Step e bodies (phase (u :: left), s)
      (phase left, ((e.services.tracker.update a.run.id u).run.run s).2))
    (h : k.Posted a.run.id us s s') :
    Course e k bodies (⟨a, phase us⟩, s) (⟨a, phase []⟩, s') := by
  generalize hid : a.run.id = id at h
  induction h with
  | rest others => exact .single (.other (hid ▸ others))
  | @post u us s s₁ s₂ s' others answered readable later ih =>
    subst hid
    have hstep := tell u us s₁
    rw [answered] at hstep
    exact .head (.other others) (.head (.work hstep) ih)

theorem course_of_pass {p : Plan} (bodies : Bodies) (hplan : a.plan e = p) {d : Drive}
    (now : Instant) (h : k.Posted a.run.id (d.pass p a.cancelRequested now).updates s s') :
    Course e k bodies (⟨a, .head d⟩, s) (⟨a, .passed (d.pass p a.cancelRequested now).handed []⟩, s') := by
  subst hplan
  exact .head (.work (.pass now))
    (course_of_posted bodies a (.passed _) (fun _ _ _ => .tell) h)

theorem course_cancel {m : Manifest} {run : Run} {phase : Phase} {c cancel : Bool}
    (kept : c = true → cancel = true) :
    Course e k bodies (⟨⟨m, run, c⟩, phase⟩, s) (⟨⟨m, run, cancel⟩, phase⟩, s) := by
  cases c with
  | true =>
    rw [kept rfl]
  | false =>
    cases cancel with
    | true => exact .single .cancel
    | false => exact .refl

end Stint

namespace Tracker.Keeping
variable {e : Engine σ} {k : e.services.tracker.Keeping} {p : Plan} {bodies : Bodies} {run : Run}
  {d : Drive} {s : σ}

/-- The work on a run leads to every head of its loop. -/
theorem Attended.course (h : k.Attended p bodies run d s)
    (hplan : ∀ c, (⟨p.manifest, run, c⟩ : Assignment).plan e = p) (hp : p.Proper) :
    ∃ s₀, k.Holds s₀ run ∧ Stint.Course e k bodies (.start p.manifest run, s₀)
      (⟨⟨p.manifest, run, d.cancelling⟩, .head d⟩, s) := by
  induction h with
  | @start s s' now recorded begun =>
    have told : k.Posted run.id ([] ++ [.status .running now]) s s' := begun
    obtain ⟨s₁, s₂, before, answered, after⟩ := told.of_concat
    obtain ⟨others⟩ := before
    exact ⟨s, recorded, .head (.other others)
      (.head (.work (.begun now hp.order_eq answered)) (.single (.other after)))⟩
  | @turn d d' s s₁ s' head cancel now kept passed busy event followed ih =>
    obtain ⟨s₀, recorded, hcourse⟩ := ih
    let a : Assignment := ⟨p.manifest, run, cancel⟩
    have hevent : a.Step e bodies (.passed (d.pass p cancel now).handed [], s₁)
        (.followed d'.handed d'.updates, s₁) := .event busy ((hplan cancel).symm ▸ event)
    have hcancelling : d'.handed.cancelling = cancel :=
      event.cancelling_eq.trans (Drive.pass_cancelling p now kept)
    have hpassed := Stint.course_of_pass (a := a) bodies (hplan cancel) now passed
    have hfollowed := Stint.course_of_posted bodies a (.followed d'.handed) (fun _ _ _ => .report)
      followed
    rw [hcancelling]
    refine ⟨s₀, recorded, (hcourse.trans (Stint.course_cancel kept)).trans (hpassed.trans ?_)⟩
    exact .head (.work hevent) (hfollowed.trans (.single (.work .again)))

/-- When a run is returned the work on it has come to its end. -/
theorem Returned.course {result : Run} (h : k.Returned p bodies run result s)
    (hplan : ∀ c, (⟨p.manifest, run, c⟩ : Assignment).plan e = p) (hp : p.Proper) :
    ∃ s₀ c, k.Holds s₀ run ∧ Stint.Course e k bodies (.start p.manifest run, s₀)
      (⟨⟨p.manifest, run, c⟩, .leaving⟩, s) := by
  cases h with
  | @exit d s s' head cancel now later finished kept idle closed =>
    obtain ⟨s₀, recorded, hcourse⟩ := head.course hplan hp
    obtain ⟨s₁, s₂, passed, answered, after⟩ := closed.of_concat
    let a : Assignment := ⟨p.manifest, run, cancel⟩
    have hclosed : a.Step e bodies (.passed (d.pass p cancel now).handed [], s₁) (.leaving, s₂) :=
      .closed later idle answered
    have hpassed := Stint.course_of_pass (a := a) bodies (hplan cancel) now passed
    refine ⟨s₀, cancel, recorded, (hcourse.trans (Stint.course_cancel kept)).trans
      (hpassed.trans ?_)⟩
    exact .head (.work hclosed) (.single (.other after))

end Tracker.Keeping

namespace ActiveRun
variable {e : Engine σ} {k : e.services.tracker.Keeping} {p : Plan} {bodies : Bodies} {run : Run}
  {r : ActiveRun} {s s' : σ}

/-- A run that is executed on the clock until it is over has been worked on to the end. -/
theorem Underway.course (h : Underway k p bodies run r s) (hk : k.Reliable)
    (he : e.Discreet k bodies run.id) (hp : p.Proper) {limit : Option Nat} {time ended : Nat}
    {waited : Bool} {result : Outcome Run}
    (hover : (r.progress e limit time).run s = (.over ended waited result, s')) :
    ∃ s₀ c, k.Holds s₀ run ∧ Stint.Course e k bodies (.start p.manifest run, s₀)
      (⟨⟨p.manifest, run, c⟩, .leaving⟩, s') := by
  have hwritten := h.progress hk he hp limit time
  rw [hover] at hwritten
  cases result with
  | error => exact hwritten.elim
  | ok returned =>
    have hreturned : k.Returned p bodies run returned s' := hwritten
    have hplan : r.plan e p.order = p ∧ r.run = run := by
      cases h with
      | submitted _ mirrors => exact ⟨mirrors.shows.planned, mirrors.run_eq⟩
      | waiting turned => exact ⟨turned.shows.planned, turned.run_eq⟩
    refine hreturned.course (fun c => Eq.trans ?_ hplan.1) hp
    have hmanifest : r.manifest = p.manifest := congrArg Plan.manifest hplan.1
    rw [Assignment.plan, hp.order_eq, plan, plan, hmanifest, hplan.2]
    rfl

end ActiveRun
end Workflow
