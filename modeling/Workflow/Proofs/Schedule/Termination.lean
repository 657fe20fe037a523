import Workflow.Proofs.Schedule.Cancellation

/-!
# The loop comes to its end

Around the loop of a drive bodies end, bodies that were told to stop do so, and somebody may ask for
the cancellation, at any moment and in any order. `Loop` is the loop together with what has happened
so far. Each of its waits is ended by one of three things. Two of them come once: after the
cancellation has been noticed the loop no longer listens for it, and after the grace period has
ended it is no longer waited for. The third takes a task away for good, and there are no more tasks
than nodes.
-/
namespace Workflow.Drive

/-- What ends a wait. -/
inductive Wake where
  | joined
  | noticed
  | deadline
  deriving DecidableEq, Repr

/-- Where the loop is: about to pass, after a pass that left a task, in a wait, or at its end. A
wait listens for the cancellation if there has been none when it begins. -/
inductive Position where
  | head
  | passed
  | waiting (listening : Bool)
  | finished
  deriving DecidableEq, Repr

/-- The loop and what has happened around it. -/
structure Loop where
  drive : Drive
  position : Position
  /-- The cancellation has been asked for. -/
  requested : Bool
  /-- How tasks that are still to be joined have ended. -/
  ended : List (Nat × Joined)
  /-- What has ended the waits, the latest first. -/
  wakes : List Wake

variable {p : Plan} {bodies : Bodies} {params : Dict Scalar} {d : Drive}

/-- A task that is to be joined: its body has been started and may end so, or was told to stop. -/
structure Joinable (bodies : Bodies) (d : Drive) (e : Nat × Joined) : Prop where
  member : e.1 ∈ d.tasks
  ends : ∀ {ending}, e.2 = .ended ending → ∃ i ∈ d.invocations, i.task = e.1 ∧ bodies i ending
  stopped : e.2 = .aborted → d.aborted = true

namespace Loop
variable {l l' : Loop}

def start (m : Manifest) (params : Dict Scalar) : Loop := ⟨begin m params, .head, false, [], []⟩

def pass (p : Plan) (now : Instant) (l : Loop) : Loop :=
  let d := l.drive.pass p l.requested now
  { l with drive := d, position := if d.isIdle then .finished else .passed }

def listen (l : Loop) : Loop := { l with position := .waiting (!l.requested) }

def join (p : Plan) (now : Instant) (e : Nat × Joined) (l : Loop) : Loop :=
  { l with
    drive := l.drive.finish p now e.1 e.2
    position := .head
    ended := l.ended.filter fun f => f.1 ≠ e.1
    wakes := .joined :: l.wakes }

def notice (l : Loop) : Loop := { l with position := .head, wakes := .noticed :: l.wakes }

def stop (l : Loop) : Loop :=
  { l with drive := l.drive.abort, position := .head, wakes := .deadline :: l.wakes }

/-- What the loop does. A wait ends when a task can be joined, when the cancellation is asked for
that is listened for, or when the grace period ends that began with the cancellation; which of
several comes first is open. -/
inductive Move (p : Plan) (l : Loop) : Loop → Prop
  | pass (now : Instant) (head : l.position = .head) : Move p l (l.pass p now)
  | listen (passed : l.position = .passed) : Move p l l.listen
  | join {listening : Bool} {e : Nat × Joined} (now : Instant)
      (waiting : l.position = .waiting listening) (member : e ∈ l.ended) : Move p l (l.join p now e)
  | notice (waiting : l.position = .waiting true) (requested : l.requested = true) :
      Move p l l.notice
  | deadline {listening : Bool} (waiting : l.position = .waiting listening)
      (cancelling : l.drive.cancelling = true) (running : l.drive.aborted = false) :
      Move p l l.stop

/-- What happens around the loop: the cancellation is asked for, or a task ends. -/
inductive Happens (bodies : Bodies) (l : Loop) : Loop → Prop
  | request : Happens bodies l { l with requested := true }
  | task {e : Nat × Joined} (joinable : Joinable bodies l.drive e)
      (first : e.1 ∉ l.ended.map (·.1)) : Happens bodies l { l with ended := e :: l.ended }

def Step (p : Plan) (bodies : Bodies) (l l' : Loop) : Prop := Move p l l' ∨ Happens bodies l l'

/-- The loop can come to this state. -/
abbrev Reached (p : Plan) (bodies : Bodies) (params : Dict Scalar) (l : Loop) : Prop :=
  Relation.ReflTransGen (Step p bodies) (start p.manifest params) l

/-- A schedule of the loop: the states that it and its surroundings go through. Every body that is
started ends at some time or is stopped, unless it has been joined; and the loop moves on when it
can. Nothing is said about how long either takes. -/
structure Schedule (p : Plan) (bodies : Bodies) (params : Dict Scalar) (s : ℕ → Loop) : Prop where
  start : s 0 = start p.manifest params
  step : ∀ k, s (k + 1) = s k ∨ Step p bodies (s k) (s (k + 1))
  ends : ∀ k, ∀ task ∈ (s k).drive.tasks,
    ∃ j ≥ k, task ∉ (s j).drive.tasks ∨ task ∈ (s j).ended.map (·.1)
  moves : ∀ k, (∀ j ≥ k, ∃ l, Move p (s j) l) → ∃ j ≥ k, Move p (s j) (s (j + 1))

/-! ## What every step keeps -/

/-- Tasks of a drive: the joined ones and those that are left are all that were started. -/
def Counted (joined : ℕ) (d : Drive) : Prop := joined + d.tasks.length = d.invocations.length

end Loop

theorem framed_joinable (bodies : Bodies) (e : Nat × Joined) :
    Framed fun d => Joinable bodies d e where
  put _ _ h := ⟨h.member, h.ends, h.stopped⟩
  spawn _ _ _ h := by
    refine ⟨List.mem_append_left _ h.member, fun he => ?_, h.stopped⟩
    obtain ⟨i, hi, hends⟩ := h.ends he
    exact ⟨i, List.mem_cons_of_mem _ hi, hends⟩

theorem framed_counted (joined : ℕ) : Framed (Loop.Counted joined) where
  put _ _ h := h
  spawn _ _ _ h := by simp_all [Loop.Counted, spawn, ← add_assoc]

theorem Joinable.event {e : Nat × Joined} (h : Joinable bodies d e) (now : Instant) :
    Event p bodies d (d.finish p now e.1 e.2) := by
  obtain ⟨task, joined⟩ := e
  cases joined with
  | ended ending =>
    obtain ⟨i, invoked, same, hends⟩ := h.ends rfl
    exact .finish now h.member invoked same hends
  | aborted => exact .abandon now h.member (h.stopped rfl)

theorem Joinable.finish {e f : Nat × Joined} (h : Joinable bodies d f) (hne : f.1 ≠ e.1)
    (now : Instant) : Joinable bodies (d.finish p now e.1 e.2) f := by
  obtain ⟨htasks, -, haborted, hinvocations⟩ := finish_frame p now d e.1 e.2
  refine ⟨?_, fun hf => hinvocations ▸ h.ends hf, fun hf => haborted ▸ h.stopped hf⟩
  rw [htasks]
  exact (List.mem_erase_of_ne hne).mpr h.member

namespace Loop
variable {l l' : Loop}

/-- The loop is in order: its drive has come there by steps, it knows no more of a cancellation than
was asked for, and what has ended its waits tells what has become of the tasks and of the flags. -/
structure Sound (p : Plan) (bodies : Bodies) (params : Dict Scalar) (l : Loop) : Prop where
  reachable : Reachable p bodies params l.drive
  kept : l.drive.cancelling = true → l.requested = true
  joinable : ∀ e ∈ l.ended, Joinable bodies l.drive e
  busy : l.position ≠ .head → l.position ≠ .finished → l.drive.tasks ≠ []
  counted : Counted (l.wakes.count .joined) l.drive
  noticed : l.wakes.count .noticed ≤ 1
  unnoticed : l.requested = false ∨ l.position = .waiting true → l.wakes.count .noticed = 0
  deadline : l.wakes.count .deadline = l.drive.aborted.toNat

theorem sound_start (params : Dict Scalar) : (start p.manifest params).Sound p bodies params where
  reachable := .refl
  kept := nofun
  joinable := nofun
  busy := fun h => absurd rfl h
  counted := rfl
  noticed := Nat.zero_le 1
  unnoticed := fun _ => rfl
  deadline := rfl

theorem framed_aborted (flag : Bool) : Framed fun d => d.aborted = flag :=
  ⟨fun _ _ h => h, fun _ _ _ h => h⟩

theorem Sound.pass (h : l.Sound p bodies params) (now : Instant) :
    (l.pass p now).Sound p bodies params := by
  have hcounted : Counted (l.wakes.count .joined) (l.drive.pass p l.requested now) :=
    (framed_counted _).pass now (fun _ => h.counted) fun _ => h.counted
  have haborted : (l.drive.pass p l.requested now).aborted = l.drive.aborted :=
    (framed_aborted _).pass now (fun _ => rfl) fun _ => rfl
  constructor
  case reachable => exact h.reachable.steps (pass_steps l.requested now h.kept)
  case kept => exact fun hc => (pass_cancelling p now h.kept).symm.trans hc
  case joinable =>
    intro e he
    have hj := h.joinable e he
    exact (framed_joinable bodies e).pass now (fun _ => hj)
      fun _ => ⟨hj.member, hj.ends, hj.stopped⟩
  case busy =>
    simp only [Loop.pass]
    split_ifs with hidle
    · exact fun _ hover => absurd rfl hover
    · exact fun _ _ hnil => hidle (List.isEmpty_iff.mpr hnil)
  case counted => exact hcounted
  case noticed => exact h.noticed
  case unnoticed =>
    simp only [Loop.pass]
    split_ifs <;> exact fun hr => h.unnoticed (hr.imp_right nofun)
  case deadline => exact h.deadline.trans (congrArg Bool.toNat haborted.symm)

theorem Sound.listen (h : l.Sound p bodies params) (passed : l.position = .passed) :
    l.listen.Sound p bodies params :=
  { h with
    busy := fun _ _ => h.busy (by simp [passed]) (by simp [passed])
    unnoticed := fun hr => h.unnoticed (.inl (by simpa [Loop.listen] using hr)) }

theorem Sound.join (h : l.Sound p bodies params) {e : Nat × Joined} (member : e ∈ l.ended)
    (now : Instant) : (l.join p now e).Sound p bodies params := by
  have hj := h.joinable e member
  obtain ⟨htasks, hcancelling, haborted, hinvocations⟩ := finish_frame p now l.drive e.1 e.2
  constructor
  case reachable => exact h.reachable.steps (hj.event now).steps
  case kept => exact fun hc => h.kept (hcancelling ▸ hc)
  case joinable =>
    intro f hf
    obtain ⟨hf, hne⟩ := List.mem_filter.mp hf
    exact (h.joinable f hf).finish (by simpa using hne) now
  case busy => exact fun hhead => absurd rfl hhead
  case counted =>
    have hlength : (l.drive.tasks.erase e.1).length + 1 = l.drive.tasks.length := by
      rw [List.length_erase_of_mem hj.member]
      exact Nat.sub_add_cancel (List.length_pos_of_mem hj.member)
    have hcounted : l.wakes.count .joined + l.drive.tasks.length = l.drive.invocations.length :=
      h.counted
    simp only [Loop.join, Counted, List.count_cons_self, htasks, hinvocations]
    omega
  case noticed => simpa [Loop.join] using h.noticed
  case unnoticed =>
    intro hr
    have hfree : l.wakes.count .noticed = 0 := h.unnoticed (hr.imp_right nofun)
    simpa [Loop.join] using hfree
  case deadline => simpa [Loop.join, haborted] using h.deadline

theorem Sound.notice (h : l.Sound p bodies params) (waiting : l.position = .waiting true)
    (requested : l.requested = true) : l.notice.Sound p bodies params := by
  have hnone : l.wakes.count .noticed = 0 := h.unnoticed (.inr waiting)
  refine { h with busy := fun hhead => absurd rfl hhead, counted := ?_, noticed := ?_,
                  unnoticed := ?_, deadline := ?_ }
  · simpa [Loop.notice] using h.counted
  · simp [Loop.notice, hnone]
  · rintro (hr | hr)
    · exact absurd (requested.symm.trans hr) (by decide)
    · cases hr
  · simpa [Loop.notice] using h.deadline

theorem Sound.stop (h : l.Sound p bodies params) (cancelling : l.drive.cancelling = true)
    (running : l.drive.aborted = false) : l.stop.Sound p bodies params := by
  have hnone : l.wakes.count .deadline = 0 := by simpa [running] using h.deadline
  constructor
  case reachable => exact h.reachable.steps (.single (.abort cancelling))
  case kept => exact h.kept
  case joinable =>
    exact fun e he => ⟨(h.joinable e he).member, (h.joinable e he).ends, fun _ => rfl⟩
  case busy => exact fun hhead => absurd rfl hhead
  case counted => simpa [Loop.stop, Counted, abort] using h.counted
  case noticed => simpa [Loop.stop] using h.noticed
  case unnoticed =>
    intro hr
    have hfree : l.wakes.count .noticed = 0 := h.unnoticed (hr.imp_right nofun)
    simpa [Loop.stop] using hfree
  case deadline => simp [Loop.stop, abort, hnone]

theorem Sound.move (h : l.Sound p bodies params) (hmove : Move p l l') :
    l'.Sound p bodies params := by
  cases hmove with
  | pass now head => exact h.pass now
  | listen passed => exact h.listen passed
  | join now waiting member => exact h.join member now
  | notice waiting requested => exact h.notice waiting requested
  | deadline waiting cancelling running => exact h.stop cancelling running

theorem Sound.happens (h : l.Sound p bodies params) (hhappens : Happens bodies l l') :
    l'.Sound p bodies params := by
  cases hhappens with
  | request =>
    exact { h with kept := fun _ => rfl, unnoticed := fun hr => h.unnoticed (hr.imp_left nofun) }
  | task joinable first =>
    exact { h with joinable := List.forall_mem_cons.mpr ⟨joinable, h.joinable⟩ }

theorem Reached.sound (h : Reached p bodies params l) : l.Sound p bodies params := by
  induction h with
  | refl => exact sound_start params
  | tail _ hstep ih => exact hstep.elim ih.move ih.happens

theorem Schedule.reached {s : ℕ → Loop} (h : Schedule p bodies params s) (k : ℕ) :
    Reached p bodies params (s k) := by
  induction k with
  | zero => exact h.start ▸ .refl
  | succ k ih =>
    rcases h.step k with hsame | hstep
    · exact hsame ▸ ih
    · exact ih.tail hstep

/-! ## How often a wait can end -/

theorem Sound.joined_le (h : l.Sound p bodies params) :
    l.wakes.count .joined ≤ p.manifest.nodes.length := by
  have hcounted : l.wakes.count .joined + l.drive.tasks.length = l.drive.invocations.length :=
    h.counted
  have hstarted := h.reachable.ledger.length_invocations_le
  omega

theorem Sound.deadline_le (h : l.Sound p bodies params) : l.wakes.count .deadline ≤ 1 :=
  h.deadline ▸ Bool.toNat_le l.drive.aborted

theorem length_wakes (wakes : List Wake) :
    wakes.length = wakes.count .joined + wakes.count .noticed + wakes.count .deadline := by
  induction wakes with
  | nil => rfl
  | cons wake wakes ih => cases wake <;> simp [ih] <;> omega

/-- Each task that is left is one more wake to come. -/
theorem Sound.length_wakes_le (h : l.Sound p bodies params) :
    l.wakes.length + l.drive.tasks.length ≤ p.manifest.nodes.length + 2 := by
  have hcounted : l.wakes.count .joined + l.drive.tasks.length = l.drive.invocations.length :=
    h.counted
  have hstarted := h.reachable.ledger.length_invocations_le
  have hnoticed := h.noticed
  have hdeadline := h.deadline_le
  rw [length_wakes]
  omega

/-! ## The end -/

/-- How far the loop is from its next wait. -/
def Position.rank : Position → ℕ
  | .head => 2
  | .passed => 1
  | .waiting _ | .finished => 0

/-- A bound on how often the loop can still move: three times for each wake that may come, and to
the next wait. -/
def rank (p : Plan) (l : Loop) : ℕ :=
  3 * (p.manifest.nodes.length + 2 - l.wakes.length) + Position.rank l.position

theorem Sound.rank_lt (h : l.Sound p bodies params) (hmove : Move p l l') :
    l'.rank p < l.rank p := by
  have hroom := (h.move hmove).length_wakes_le
  cases hmove with
  | pass now head =>
    simp only [rank, Loop.pass, head]
    split_ifs <;> simp [Position.rank]
  | listen passed => simp [rank, Loop.listen, passed, Position.rank]
  | join now waiting member =>
    simp only [rank, Loop.join, waiting, Position.rank, List.length_cons] at hroom ⊢
    omega
  | notice waiting requested =>
    simp only [rank, Loop.notice, waiting, Position.rank, List.length_cons] at hroom ⊢
    omega
  | deadline waiting cancelling running =>
    simp only [rank, Loop.stop, waiting, Position.rank, List.length_cons] at hroom ⊢
    omega

theorem Happens.frame (h : Happens bodies l l') :
    l'.drive = l.drive ∧ l'.position = l.position ∧ l'.wakes = l.wakes ∧ l.ended ⊆ l'.ended := by
  cases h with
  | request => exact ⟨rfl, rfl, rfl, List.Subset.refl _⟩
  | task => exact ⟨rfl, rfl, rfl, List.subset_cons_self _ _⟩

variable {s : ℕ → Loop}

/-- While the loop does not move, its drive and its position stay and only more tasks end. -/
theorem Schedule.still (h : Schedule p bodies params s) {k : ℕ}
    (hstill : ∀ j ≥ k, ¬ Move p (s j) (s (j + 1))) : ∀ j ≥ k,
    (s j).drive = (s k).drive ∧ (s j).position = (s k).position ∧ (s k).ended ⊆ (s j).ended := by
  intro j hj
  induction j, hj using Nat.le_induction with
  | base => exact ⟨rfl, rfl, List.Subset.refl _⟩
  | succ j hj ih =>
    obtain ⟨hdrive, hposition, hended⟩ := ih
    rcases h.step j with hsame | hmove | hhappens
    · rw [hsame]
      exact ⟨hdrive, hposition, hended⟩
    · exact absurd hmove (hstill j hj)
    · obtain ⟨hdrive', hposition', -, hended'⟩ := hhappens.frame
      exact ⟨hdrive'.trans hdrive, hposition'.trans hposition, List.Subset.trans hended hended'⟩

/-- A loop that is not over moves again: before a wait it can move by itself, and in a wait one of
the tasks that are left ends. -/
theorem Schedule.exists_move (h : Schedule p bodies params s) {k : ℕ}
    (hopen : (s k).position ≠ .finished) : ∃ j ≥ k, Move p (s j) (s (j + 1)) := by
  by_contra hno
  have hstill : ∀ j ≥ k, ¬ Move p (s j) (s (j + 1)) := fun j hj hmove => hno ⟨j, hj, hmove⟩
  have hframe := h.still hstill
  cases hposition : (s k).position with
  | head =>
    obtain ⟨j, hj, hmove⟩ := h.moves k fun j hj =>
      ⟨_, .pass ⟨0, 0⟩ ((hframe j hj).2.1.trans hposition)⟩
    exact hstill j hj hmove
  | passed =>
    obtain ⟨j, hj, hmove⟩ := h.moves k fun j hj => ⟨_, .listen ((hframe j hj).2.1.trans hposition)⟩
    exact hstill j hj hmove
  | waiting listening =>
    have hbusy := (h.reached k).sound.busy (by simp [hposition]) hopen
    obtain ⟨task, htask⟩ := List.exists_mem_of_ne_nil _ hbusy
    obtain ⟨i, hi, hgone | hended⟩ := h.ends k task htask
    · exact hgone ((hframe i hi).1 ▸ htask)
    · obtain ⟨e, he, -⟩ := List.mem_map.mp hended
      -- what has ended stays to be joined, since nothing moves
      have hlater := h.still (k := i) fun j hj => hstill j (hi.trans hj)
      obtain ⟨j, hj, hmove⟩ := h.moves i fun j hj =>
        ⟨_, .join ⟨0, 0⟩ ((hframe j (hi.trans hj)).2.1.trans hposition) ((hlater j hj).2.2 he)⟩
      exact hstill j (hi.trans hj) hmove
  | finished => exact hopen hposition

theorem Schedule.rank_antitone (h : Schedule p bodies params s) :
    Antitone fun k => (s k).rank p := by
  refine antitone_nat_of_succ_le fun k => ?_
  rcases h.step k with hsame | hmove | hhappens
  · rw [hsame]
  · exact ((h.reached k).sound.rank_lt hmove).le
  · obtain ⟨-, hposition, hwakes, -⟩ := hhappens.frame
    simp only [rank, hposition, hwakes, le_refl]

/-- Whatever the schedule, the loop comes to its end. -/
theorem Schedule.exists_finished (h : Schedule p bodies params s) :
    ∃ k, (s k).position = .finished := by
  suffices ∀ n k, (s k).rank p = n → ∃ j ≥ k, (s j).position = .finished by
    obtain ⟨j, -, hfinished⟩ := this _ 0 rfl
    exact ⟨j, hfinished⟩
  intro n
  induction n using Nat.strong_induction_on with
  | _ n ih =>
    intro k hk
    by_cases hfinished : (s k).position = .finished
    · exact ⟨k, le_refl k, hfinished⟩
    obtain ⟨j, hj, hmove⟩ := h.exists_move hfinished
    have hlt : (s (j + 1)).rank p < n :=
      hk ▸ ((h.reached j).sound.rank_lt hmove).trans_le (h.rank_antitone hj)
    obtain ⟨i, hi, hend⟩ := ih _ hlt (j + 1) rfl
    exact ⟨i, by omega, hend⟩

/-! ## A run that is cancelled -/

/-- A run of the loop that has ended with all tasks joined is one that a schedule comes to. -/
theorem exists_schedule (h : Reached p bodies params l) (finished : l.position = .finished)
    (idle : l.drive.tasks = []) : ∃ s k, Schedule p bodies params s ∧ s k = l := by
  suffices ∃ s : ℕ → Loop, ∃ m, s 0 = start p.manifest params ∧
      (∀ k, s (k + 1) = s k ∨ Step p bodies (s k) (s (k + 1))) ∧ ∀ k ≥ m, s k = l by
    obtain ⟨s, m, hstart, hstep, hlast⟩ := this
    refine ⟨s, m, ⟨hstart, hstep, fun k task _ => ?_, fun k hmoves => ?_⟩, hlast m (le_refl m)⟩
    · refine ⟨max k m, le_max_left k m, .inl ?_⟩
      rw [hlast _ (le_max_right k m), idle]
      exact List.not_mem_nil
    · obtain ⟨l', hmove⟩ := hmoves (max k m) (le_max_left k m)
      rw [hlast _ (le_max_right k m)] at hmove
      cases hmove <;> simp_all
  clear finished idle
  induction h with
  | refl => exact ⟨fun _ => start p.manifest params, 0, rfl, fun _ => .inl rfl, fun _ _ => rfl⟩
  | @tail l l' _ hstep ih =>
    obtain ⟨s, m, hstart, hsteps, hlast⟩ := ih
    refine ⟨fun k => if k ≤ m then s k else l', m + 1, by simpa using hstart, fun k => ?_,
      fun k hk => if_neg (by omega)⟩
    rcases lt_trichotomy k m with hlt | rfl | hgt
    · simpa only [if_pos hlt.le, if_pos (Nat.succ_le_of_lt hlt)] using hsteps k
    · simpa only [if_pos (le_refl k), if_neg (Nat.not_succ_le_self k), hlast k (le_refl k)] using
        Or.inr hstep
    · exact .inl ((if_neg (by omega)).trans (if_neg (by omega)).symm)

/-- The trio has been started, and then its cancellation is asked for. -/
def trioAsked : Loop :=
  { ((start trio.manifest .empty).pass trio ⟨0, 0⟩).listen with requested := true }

/-- A body has panicked after the cancellation has been noticed. -/
def trioPanicked : Loop :=
  { (trioAsked.notice.pass trio ⟨1, 0⟩).listen with ended := [(1, .ended .panicked)] }

/-- The other body has been stopped after the grace period. -/
def trioStill : Loop :=
  { ((((trioPanicked.join trio ⟨2, 0⟩ (1, .ended .panicked)).pass trio ⟨2, 0⟩).listen.stop).pass
      trio ⟨3, 0⟩).listen with
    ended := [(0, .aborted)] }

theorem trioAsked_reached : Reached trio (fun _ _ => True) .empty trioAsked :=
  .head (.inl (.pass ⟨0, 0⟩ rfl)) <| .head (.inl (.listen (by decide))) <|
    .single (.inr .request)

theorem trioPanicked_steps :
    Relation.ReflTransGen (Step trio fun _ _ => True) trioAsked trioPanicked := by
  have hjoinable : Joinable (fun _ _ => True) (trioAsked.notice.pass trio ⟨1, 0⟩).listen.drive
      (1, .ended .panicked) :=
    ⟨by decide, fun _ => ⟨_, List.mem_cons_self, rfl, trivial⟩, nofun⟩
  exact .head (.inl (.notice (by decide) (by decide))) <| .head (.inl (.pass ⟨1, 0⟩ rfl)) <|
    .head (.inl (.listen (by decide))) <| .single (.inr (.task hjoinable (by decide)))

theorem trioStill_steps :
    Relation.ReflTransGen (Step trio fun _ _ => True) trioPanicked trioStill := by
  refine .head (.inl (.join ⟨2, 0⟩ rfl List.mem_cons_self)) <|
    .head (.inl (.pass ⟨2, 0⟩ rfl)) <| .head (.inl (.listen (by decide))) <|
    .head (.inl (.deadline rfl (by decide) (by decide))) <|
    .head (.inl (.pass ⟨3, 0⟩ rfl)) <| .head (.inl (.listen (by decide))) <|
    .single (.inr (.task ⟨by decide, nofun, fun _ => by decide⟩ (by decide)))

/-- A schedule of the trio in which every kind of wake comes. -/
theorem trio_scheduled : ∃ s k, Schedule trio (fun _ _ => True) .empty s ∧
    (s k).position = .finished ∧ (s k).wakes = [.joined, .deadline, .joined, .noticed] := by
  let last := (trioStill.join trio ⟨4, 0⟩ (0, .aborted)).pass trio ⟨4, 0⟩
  have hreached : Reached trio (fun _ _ => True) .empty last :=
    ((trioAsked_reached.trans trioPanicked_steps).trans trioStill_steps).trans <|
      .head (.inl (.join ⟨4, 0⟩ rfl List.mem_cons_self)) <|
        .single (.inl (.pass ⟨4, 0⟩ rfl))
  have hfinished : last.position = .finished := by decide +kernel
  have hidle : last.drive.tasks = [] := by decide +kernel
  have hwakes : last.wakes = [.joined, .deadline, .joined, .noticed] := by decide +kernel
  obtain ⟨s, k, hs, hlast⟩ := exists_schedule hreached hfinished hidle
  exact ⟨s, k, hs, hlast ▸ hfinished, hlast ▸ hwakes⟩

end Loop
end Workflow.Drive
