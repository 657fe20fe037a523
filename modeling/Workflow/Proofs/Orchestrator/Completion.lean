import Workflow.Proofs.Orchestrator.WriteThrough

/-!
# Runs on a clock come to their end

A run on a clock makes the moves of the loop: where it waits the loop waits, and what it waits for
ends a wait of the loop. It never waits for nothing, so that an execution without a limit ends when
the loop ends, and one with a limit stops only where the next thing comes later than that.
-/
namespace Workflow

variable {p : Plan} {bodies : Bodies} {params : Dict Scalar}

namespace Drive.Loop
variable {l l' : Loop}

/-! ## Heads -/

/-- The drive has passed from a head of the loop. -/
def Passed (p : Plan) (bodies : Bodies) (params : Dict Scalar) (d : Drive) : Prop :=
  ∃ d₀ cancel now, Head p bodies params d₀ ∧ (d₀.cancelling = true → cancel = true) ∧
    d₀.pass p cancel now = d

/-- Where the loop is tells how its drive has come there. -/
def Headed (p : Plan) (bodies : Bodies) (params : Dict Scalar) (l : Loop) : Prop :=
  match l.position with
  | .head => Head p bodies params l.drive
  | .passed | .waiting _ => Passed p bodies params l.drive ∧ l.drive.isIdle = false
  | .finished => Passed p bodies params l.drive ∧ l.drive.isIdle = true

theorem Passed.head (h : Passed p bodies params l.drive) (busy : l.drive.isIdle = false)
    {d : Drive} (event : Event p bodies l.drive d) : Head p bodies params d := by
  obtain ⟨d₀, cancel, now, hhead, kept, hpass⟩ := h
  rw [← hpass] at busy event
  exact .turn hhead cancel now kept busy event

theorem Headed.of_waiting {listening : Bool} (h : Headed p bodies params l)
    (waiting : l.position = .waiting listening) :
    Passed p bodies params l.drive ∧ l.drive.isIdle = false := by
  simpa only [Headed, waiting] using h

theorem Headed.move (h : Headed p bodies params l) (sound : l.Sound p bodies params)
    (hmove : Move p l l') : Headed p bodies params l' := by
  cases hmove with
  | pass now head =>
    have hhead : Head p bodies params l.drive := by simpa only [Headed, head] using h
    have hpassed : Passed p bodies params (l.drive.pass p l.requested now) :=
      ⟨l.drive, l.requested, now, hhead, sound.kept, rfl⟩
    unfold Headed
    simp only [Loop.pass]
    split_ifs with hidle
    · exact ⟨hpassed, hidle⟩
    · exact ⟨hpassed, Bool.not_eq_true _ ▸ hidle⟩
  | listen passed => simpa only [Headed, passed, Loop.listen] using h
  | join now waiting member =>
    obtain ⟨hpassed, busy⟩ := h.of_waiting waiting
    exact hpassed.head busy ((sound.joinable _ member).event now)
  | notice waiting requested =>
    obtain ⟨hpassed, busy⟩ := h.of_waiting waiting
    exact hpassed.head busy .notice
  | deadline waiting cancelling running =>
    obtain ⟨hpassed, busy⟩ := h.of_waiting waiting
    exact hpassed.head busy (.deadline cancelling running)

theorem Reached.headed (h : Reached p bodies params l) : Headed p bodies params l := by
  induction h with
  | refl => exact Head.start
  | tail hreached hstep ih =>
    rcases hstep with hmove | hhappens
    · exact ih.move (Reached.sound hreached) hmove
    · obtain ⟨hdrive, hposition, -, -⟩ := hhappens.frame
      simpa only [Headed, hdrive, hposition] using ih

end Drive.Loop

open Drive (Loop)

/-! ## What ends a wait -/

def Awaited.wake : Awaited → Drive.Wake
  | .job _ => .joined
  | .deadline => .deadline

/-- What may come ends the wait of the loop. -/
theorem Drive.Loop.wakes_up {l : Loop} {listening : Bool} {awaited : Awaited}
    (waiting : l.position = .waiting listening) (clear : l.ended = [])
    (h : awaited.Comes bodies l.drive) (now : Instant) :
    Relation.ReflTransGen (Loop.Step p bodies) l
      ⟨awaited.follow p now l.drive, .head, l.requested, [], awaited.wake :: l.wakes⟩ := by
  obtain ⟨d, position, requested, ended, wakes⟩ := l
  obtain rfl : ended = [] := clear
  cases awaited with
  | job j =>
    let ready : Loop := ⟨d, position, requested, [(j.task, j.joined)], wakes⟩
    have hmember : (j.task, j.joined) ∈ ready.ended := List.mem_cons_self
    have hjoin := Loop.Move.join (p := p) (l := ready) now waiting hmember
    simp only [Loop.join, ready, List.filter_cons_of_neg, ne_eq, not_true_eq_false, decide_false,
      Bool.false_eq_true, not_false_eq_true, List.filter_nil] at hjoin
    exact .head (.inr (.task h List.not_mem_nil)) (.single (.inl hjoin))
  | deadline => exact .single (.inl (.deadline waiting h.1 h.2))

namespace ActiveRun
variable {σ : Type} {e : Engine σ} {r r' : ActiveRun} {l l' : Loop}

/-! ## Following the loop -/

/-- A run follows the loop: it shows its drive, all tasks that are left have a job, and nothing has
come that is not taken into account. -/
structure Follows (e : Engine σ) (p : Plan) (bodies : Bodies) (r : ActiveRun) (l : Loop) : Prop
    extends r.Shows e p bodies l.drive where
  asked : l.requested = r.cancelRequested
  worked : r.Worked l.drive
  clear : l.ended = []

/-- A run is where the loop is: it has not begun, or it waits as the loop does. -/
structure At (e : Engine σ) (p : Plan) (bodies : Bodies) (r : ActiveRun) (l : Loop) : Prop
    extends r.Follows e p bodies l where
  place : l.position = if r.begun then .waiting r.deadline.isNone else .head

/-- What an execution may come to. It goes on waiting only if there is a limit and what comes next
is later; what it returns at the end are the nodes that the loop has at its end, unless the tracker
fails. -/
def Comes (e : Engine σ) (p : Plan) (bodies : Bodies) (params : Dict Scalar)
    (limit : Option Nat) : Progress → Prop
  | .waiting r => (∃ l, Loop.Reached p bodies params l ∧ r.At e p bodies l) ∧
      ∃ t, limit = some t ∧ ∃ due awaited, r.next? = some (due, awaited) ∧ t < due
  | .over _ _ (.ok run) => ∃ l, Loop.Reached p bodies params l ∧ l.position = .finished ∧
      run.nodes = l.drive.table
  | .over _ _ (.error _) => True

theorem turn_frame (e : Engine σ) (p : Plan) (time : Nat) (r : ActiveRun) :
    Yields (r.turn e p time) fun r' =>
      r'.begun = r.begun ∧ r'.cancelRequested = r.cancelRequested :=
  fun _ => ⟨rfl, rfl⟩

/-- In its turn the run follows a pass. -/
theorem Follows.turn (hbodies : ∀ i, Yields (e.invoke i) fun result => bodies i result.2)
    (h : r.Follows e p bodies l) (time : Nat) :
    Yields (r.turn e p time) fun r' =>
      r'.Follows e p bodies (l.pass p (e.origin.addMillis time)) ∧ r'.begun = r.begun ∧
        r'.deadline.isNone = !l.requested := by
  intro s
  obtain ⟨hshows, hworked⟩ := h.toShows.turn hbodies time s
  obtain ⟨hbegun, hrequested⟩ := turn_frame e p time r s
  have hcancelling := Drive.pass_cancelling p (e.origin.addMillis time) h.kept
  rw [← h.asked] at hshows hworked hrequested hcancelling
  refine ⟨⟨hshows, hrequested.symm, hworked h.worked, h.clear⟩, hbegun, ?_⟩
  rw [← Option.not_isSome, hshows.timed, hcancelling]

theorem Follows.receive (h : r.Follows e p bodies l) (reached : Loop.Reached p bodies params l)
    {listening : Bool} (waiting : l.position = .waiting listening) {due : Nat} {awaited : Awaited}
    (hnext : r.next? = some (due, awaited)) (now : Instant) (time : Nat) :
    ∃ l', Loop.Reached p bodies params l' ∧ (r.receive p now time awaited).Follows e p bodies l' ∧
      l'.position = .head ∧ l'.wakes.length = l.wakes.length + 1 := by
  have hcomes := h.toShows.comes hnext
  have hdistinct := reached.sound.reachable.ledger.tasks_nodup
  have hrequested : (r.receive p now time awaited).cancelRequested = r.cancelRequested := by
    cases awaited <;> rfl
  exact ⟨_, reached.trans (Loop.wakes_up waiting h.clear hcomes now),
    ⟨h.toShows.receive now time awaited, h.asked.trans hrequested.symm,
      h.worked.receive hdistinct now time awaited, rfl⟩, rfl, rfl⟩

theorem Follows.await (h : r.Follows e p bodies l) (reached : Loop.Reached p bodies params l)
    (begun : r.begun = true) (waiting : l.position = .waiting r.deadline.isNone)
    (limit : Option Nat) {next : Nat → ActiveRun → StateM σ Progress}
    (hnext : ∀ {r' l'} due, Loop.Reached p bodies params l' → r'.Follows e p bodies l' →
      r'.begun = true → l'.position = .head → l'.wakes.length = l.wakes.length + 1 →
      Yields (next due r') (Comes e p bodies params limit)) :
    Yields (r.await e p limit next) (Comes e p bodies params limit) := by
  obtain ⟨⟨due, awaited⟩, hcomes⟩ := Option.isSome_iff_exists.mp
    (h.worked.next?_isSome (reached.headed.of_waiting waiting).2)
  simp only [ActiveRun.await, hcomes]
  split_ifs with hlimit
  · obtain ⟨l', hreached, hfollows, hhead, hwakes⟩ :=
      h.receive reached waiting hcomes (e.origin.addMillis due) due
    have hbegun : (r.receive p (e.origin.addMillis due) due awaited).begun = true := by
      cases awaited <;> exact begun
    exact hnext due hreached hfollows hbegun hhead hwakes
  · obtain ⟨t, rfl, hlt⟩ : ∃ t, limit = some t ∧ t < due := by cases limit <;> simp_all
    have hplace : l.position = if r.begun then .waiting r.deadline.isNone else .head := by
      rw [begun, if_pos rfl, waiting]
    exact yields_pure ⟨⟨l, reached, h, hplace⟩, t, rfl, due, awaited, hcomes, hlt⟩

/-- The turns suffice, since every one of them but the last ends with a wake. -/
theorem Follows.go (hbodies : ∀ i, Yields (e.invoke i) fun result => bodies i result.2)
    (limit : Option Nat) (fuel time : Nat) (waited : Bool) (h : r.Follows e p bodies l)
    (reached : Loop.Reached p bodies params l) (begun : r.begun = true) (head : l.position = .head)
    (enough : p.manifest.nodes.length + 2 ≤ l.wakes.length + fuel) :
    Yields (go e p limit fuel time waited r) (Comes e p bodies params limit) := by
  -- every turn but the last is followed by a wake, and `enough` counts the wakes that can come
  induction fuel using Nat.strong_induction_on generalizing time waited r l with
  | _ fuel ih =>
    let passed := l.pass p (e.origin.addMillis time)
    have hreached : Loop.Reached p bodies params passed := reached.tail (.inl (.pass _ head))
    rw [ActiveRun.go]
    refine (h.turn hbodies time).bind fun r' h' => ?_
    obtain ⟨hfollows, hbegun, hdeadline⟩ := h'
    obtain ⟨htable, hidle⟩ := hfollows.books_eq
    split_ifs with hover
    · have hfinished : passed.position = .finished := if_pos (hidle ▸ hover)
      refine Yields.bind (P := fun _ => True) (fun _ => trivial) fun written _ => yields_pure ?_
      cases written with
      | error f => trivial
      | ok _ => exact ⟨passed, hreached, hfinished, htable⟩
    · rw [hidle] at hover
      have hpassed : passed.position = .passed := if_neg hover
      cases fuel with
      | zero =>
        -- without fuel all wakes have come, so that no task is left and the turn was the last
        have hroom : l.wakes.length + passed.drive.tasks.length ≤ p.manifest.nodes.length + 2 :=
          hreached.sound.length_wakes_le
        have hnone : passed.drive.tasks = [] := List.length_eq_zero_iff.mp (by omega)
        exact absurd (List.isEmpty_iff.mpr hnone) hover
      | succ fuel =>
        have hwaiting : Loop.Reached p bodies params passed.listen :=
          hreached.tail (.inl (.listen hpassed))
        refine Follows.await (l := passed.listen) { hfollows with } hwaiting (hbegun.trans begun)
          (by rw [hdeadline]; rfl) limit fun due hreached follows begun head hwakes => ?_
        refine ih fuel fuel.lt_succ_self due true follows hreached begun head ?_
        rw [hwakes, Nat.add_assoc, Nat.add_comm 1]
        exact enough

/-- Whenever a run is executed it goes on where the loop is. -/
theorem At.progress (hbodies : ∀ i, Yields (e.invoke i) fun result => bodies i result.2)
    (hp : p.Proper) (h : r.At e p bodies l) (reached : Loop.Reached p bodies params l)
    (limit : Option Nat) (time : Nat) :
    Yields (r.progress e limit time) (Comes e p bodies params limit) := by
  have hmanifest : r.manifest = p.manifest := congrArg Plan.manifest h.planned
  have horder : r.manifest.graph.topologicalOrder = .ok p.order := by
    rw [hmanifest]
    exact hp.order_eq
  have henough (wakes : ℕ) :
      p.manifest.nodes.length + 2 ≤ wakes + (r.manifest.nodes.length + 2) := by
    rw [hmanifest]
    exact Nat.le_add_left ..
  have hplace := h.place
  rw [ActiveRun.progress, horder]
  simp only [h.planned]
  -- it notices a cancellation, goes on waiting, or begins
  split_ifs with hbegun hnotices
  · rw [if_pos hbegun] at hplace
    obtain ⟨hrequested, hdeadline⟩ := Bool.and_eq_true_iff.mp hnotices
    rw [hdeadline] at hplace
    exact Follows.go (l := l.notice) hbodies limit _ time false { h.toFollows with }
      (reached.tail (.inl (.notice hplace (h.asked.trans hrequested)))) hbegun rfl (henough _)
  · rw [if_pos hbegun] at hplace
    exact h.toFollows.await reached hbegun hplace limit fun due reached follows begun head _ =>
      follows.go hbodies limit _ due true reached begun head (henough _)
  · rw [if_neg hbegun] at hplace
    refine Yields.bind (P := fun _ => True) (fun _ => trivial) fun written _ => ?_
    cases written with
    | error f => exact yields_pure trivial
    | ok _ =>
      have hfollows : ({ r with begun := true } : ActiveRun).Follows e p bodies l :=
        { h.toFollows with }
      exact hfollows.go hbodies limit _ time false reached rfl hplace (henough _)

/-! ## Executions -/

/-- A run that has been submitted is where the loop starts. -/
theorem start_at (e : Engine σ) (bodies : Bodies) (m : Manifest) (order : List String)
    {run : Workflow.Run}
    (hnodes : run.nodes = Dict.ofList ((m.nodes.map (·.id)).map fun id => (id, .pending))) :
    (start m run).At e ((start m run).plan e order) bodies (.start m run.params) where
  toShows := start_shows_begin e bodies m order hnodes
  asked := rfl
  worked := nofun
  clear := rfl
  place := rfl

theorem At.cancelled (h : r.At e p bodies l) :
    ({ r with cancelRequested := true } : ActiveRun).At e p bodies { l with requested := true } :=
  { h with toShows := h.toShows.cancel, asked := rfl }

/-- Without a limit there is nothing that it goes on waiting for. -/
theorem yields_over {x : StateM σ Progress} (h : Yields x (Comes e p bodies params none)) :
    Yields x fun out => ∃ time waited result, out = .over time waited result := by
  intro s
  have hcomes := h s
  rcases hout : (x.run s).1 with r | ⟨time, waited, result⟩
  · rw [hout] at hcomes
    obtain ⟨-, t, hlimit, -⟩ := hcomes
    cases hlimit
  · exact ⟨time, waited, result, rfl⟩

/-- A run that is executed without a limit is over in the end. -/
theorem progress_over (e : Engine σ) (m : Manifest) {run : Workflow.Run}
    (hnodes : run.nodes = Dict.ofList ((m.nodes.map (·.id)).map fun id => (id, .pending)))
    (time : Nat) : Yields ((start m run).progress e none time) fun out =>
      ∃ ended waited result, out = .over ended waited result := by
  cases horder : m.graph.topologicalOrder with
  | error f =>
    have hprogress : (start m run).progress e none time = pure (.over time false (.error f)) := by
      rw [ActiveRun.progress]
      simp only [start, horder]
    rw [hprogress]
    exact yields_pure ⟨time, false, .error f, rfl⟩
  | ok order =>
    let bodies : Bodies := fun _ _ => True
    have hbodies : ∀ i, Yields (e.invoke i) fun result => bodies i result.2 := fun _ _ => trivial
    have hproper := (plan_spec e (start m run) horder).1
    exact yields_over ((start_at e bodies m order hnodes).progress hbodies hproper .refl none time)

end ActiveRun

/-- The loop comes to its end. Wherever it can come, no more of its waits have ended with a joined
task than there are nodes, at most one with the notice of the cancellation and at most one with the
end of the grace period. Every schedule goes through such states to the end; and so does every run
that is executed on a clock, which stops before only at its limit. -/
theorem Drive.Loop.terminates :
    (∀ p bodies params l, Loop.Reached p bodies params l →
      l.wakes.count .joined ≤ p.manifest.nodes.length ∧ l.wakes.count .noticed ≤ 1 ∧
      l.wakes.count .deadline ≤ 1) ∧
    (∀ p bodies params s, Loop.Schedule p bodies params s →
      (∀ k, Loop.Reached p bodies params (s k)) ∧ ∃ k, (s k).position = .finished) ∧
    ∀ (σ : Type) (e : Engine σ) (p : Plan) bodies params,
      (∀ i, Yields (e.invoke i) fun result => bodies i result.2) → p.Proper →
      ∀ (r : ActiveRun) l, Loop.Reached p bodies params l → r.At e p bodies l → ∀ limit time,
        Yields (r.progress e limit time) (ActiveRun.Comes e p bodies params limit) := by
  refine ⟨fun p bodies params l h => ?_, fun p bodies params s h => ?_, ?_⟩
  · exact ⟨h.sound.joined_le, h.sound.noticed, h.sound.deadline_le⟩
  · exact ⟨h.reached, h.exists_finished⟩
  · intro σ e p bodies params hbodies hp r l reached h limit time
    exact h.progress hbodies hp reached limit time

theorem Rehearsal.trio_terminates :
    (∃ s k, Loop.Schedule Drive.trio (fun _ _ => True) .empty s ∧ (s k).position = .finished ∧
      (s k).wakes = [.joined, .deadline, .joined, .noticed] ∧ (s k).wakes.count .joined ≤ 3 ∧
      (s k).wakes.count .noticed ≤ 1 ∧ (s k).wakes.count .deadline ≤ 1) ∧
    ∃ ended waited result,
      ((trioSubmitted.progress (engine trioSetup ⟨0, 0⟩) none 0).run trioRecorded).1 =
        .over ended waited result := by
  obtain ⟨hbounds, hends, hclock⟩ := Drive.Loop.terminates
  refine ⟨?_, ?_⟩
  · obtain ⟨s, k, hs, hfinished, hwakes⟩ := Loop.trio_scheduled
    exact ⟨s, k, hs, hfinished, hwakes, hbounds _ _ _ _ ((hends _ _ _ _ hs).1 k)⟩
  · have hsubmitted : trioSubmitted.At (engine trioSetup ⟨0, 0⟩) trioPlan (fun _ _ => True)
        (.start Drive.trio.manifest .empty) := ActiveRun.start_at _ _ _ _ rfl
    have hover := hclock Rehearsal (engine trioSetup ⟨0, 0⟩) trioPlan (fun _ _ => True) .empty
      (fun _ _ => trivial) ⟨rfl, rfl⟩ trioSubmitted _ .refl hsubmitted none 0
    exact ActiveRun.yields_over hover trioRecorded

end Workflow
