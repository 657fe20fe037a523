import Workflow.Proofs.Schedule.Exit

/-!
# Cancelled runs

From the head of the loop at which the cancellation is seen nothing is decided or started any more.
`Fate` tells what can become of a node after that, by its state at that head; the steps that are left
keep it, so that it holds at every later point of the run and when the loop ends.
-/
namespace Workflow

namespace Drive
variable {p : Plan} {bodies : Bodies} {params : Dict Scalar} {d e e' : Drive} {id : String}
  {n : ManifestNode} {s t : NodeState}

/-! ## What can become of a node -/

/-- What has become of a node that was in the state `s` when the cancellation was seen; `stopped`
tells whether the grace period is over. -/
inductive Fate (bodies : Bodies) (d : Drive) (n : ManifestNode) (stopped : Bool) (s : NodeState) :
    NodeState → Prop
  | kept : Fate bodies d n stopped s s
  | dropped {t : NodeState} (unstarted : s.status = .pending ∨ s.status = .ready)
      (verdict : t.verdict = ⟨.skipped, .empty⟩) (mark : t.cancelled = true) :
      Fate bodies d n stopped s t
  | succeeded {t : NodeState} {i : Invocation} {ending : Ending} {values : Dict Value}
      (running : s.status = .running) (invoked : i ∈ d.invocations)
      (node : i.context.node = n.id) (ends : bodies i ending)
      (results : n.results ending = .ok values) (verdict : t.verdict = ⟨.succeeded, values⟩)
      (unmarked : t.cancelled = false) : Fate bodies d n stopped s t
  | failed {t : NodeState} {i : Invocation} {ending : Ending} {fault : NodeFault}
      (running : s.status = .running) (invoked : i ∈ d.invocations)
      (node : i.context.node = n.id) (ends : bodies i ending)
      (results : n.results ending = .error fault) (verdict : t.verdict = ⟨.failed, .empty⟩)
      (unmarked : t.cancelled = false) : Fate bodies d n stopped s t
  | aborted {t : NodeState} (running : s.status = .running) (stopped_eq : stopped = true)
      (verdict : t.verdict = ⟨.skipped, .empty⟩) (mark : t.cancelled = true) :
      Fate bodies d n stopped s t

/-- Only a node that is where it was is not terminal. -/
theorem Fate.eq_of_open {stopped : Bool} (h : Fate bodies d n stopped s t)
    (hopen : t.status.isTerminal = false) : t = s := by
  have hterm {status : NodeStatus} {values : Dict Value} (hv : t.verdict = ⟨status, values⟩)
      (hs : status.isTerminal = true) : t = s := by
    rw [show t.status = status from congrArg Verdict.status hv, hs] at hopen
    cases hopen
  cases h with
  | kept => rfl
  | dropped _ verdict => exact hterm verdict rfl
  | succeeded _ _ _ _ _ verdict => exact hterm verdict rfl
  | failed _ _ _ _ _ verdict => exact hterm verdict rfl
  | aborted _ _ verdict => exact hterm verdict rfl

theorem Fate.stop (h : Fate bodies d n e.aborted s t) : Fate bodies d n true s t := by
  cases h with
  | kept => exact .kept
  | dropped unstarted verdict mark => exact .dropped unstarted verdict mark
  | succeeded running invoked node ends results verdict unmarked =>
    exact .succeeded running invoked node ends results verdict unmarked
  | failed running invoked node ends results verdict unmarked =>
    exact .failed running invoked node ends results verdict unmarked
  | aborted running _ verdict mark => exact .aborted running rfl verdict mark

theorem Leaves.fate {i : Invocation} {v : Verdict} {mark : Bool} {store : ArtifactStore}
    (h : Leaves bodies e n i v mark store) (running : s.status = .running)
    (invoked : i ∈ d.invocations) (node : i.context.node = n.id) (hv : t.verdict = v)
    (hmark : t.cancelled = mark) : Fate bodies d n e.aborted s t := by
  cases h with
  | abandon aborted => exact .aborted running aborted hv hmark
  | fail ends results => exact .failed running invoked node ends results hv hmark
  | succeed ends results => exact .succeeded running invoked node ends results hv hmark

/-! ## After the cancellation -/

/-- The cancellation has been seen: nothing was started since, and every node has met its fate. -/
structure Wound (p : Plan) (bodies : Bodies) (d e : Drive) : Prop where
  cancelling : e.cancelling = true
  invocations_eq : e.invocations = d.invocations
  fate : ∀ {id n}, p.manifest.node? id = some n → ∃ s t, d.table.get? id = some s ∧
    e.table.get? id = some t ∧ Fate bodies d n e.aborted s t

/-- A node that is decided after a cancellation has not started and is skipped. -/
theorem Settles.dropped {source : NodeStatus} {v : Verdict} {mark : Bool}
    (h : Settles p e n source v mark) (cancelling : e.cancelling = true) :
    (source = .pending ∨ source = .ready) ∧ v = ⟨.skipped, .empty⟩ ∧ mark = true := by
  cases h with
  | drop _ unstarted => exact ⟨unstarted, rfl, rfl⟩
  | block active | allow active | decline active | refuse active | doom active =>
    rw [cancelling] at active
    cases active

/-- After a node has taken a new state the fates of the others are what they were. -/
theorem Wound.fate_put (h : Wound p bodies d e) (node : p.manifest.node? id = some n)
    {next : NodeState} (hput : ∀ s t, e.table.get? id = some t → Fate bodies d n e.aborted s t →
      Fate bodies d n e.aborted s next) {x : String} {m : ManifestNode}
    (hm : p.manifest.node? x = some m) : ∃ s t, d.table.get? x = some s ∧
      (e.put id next).table.get? x = some t ∧ Fate bodies d m e.aborted s t := by
  obtain ⟨s, t, hs, ht, hfate⟩ := h.fate hm
  rw [get?_put]
  split_ifs with hx
  · subst hx
    cases node.symm.trans hm
    exact ⟨s, next, hs, rfl, hput s t ht hfate⟩
  · exact ⟨s, t, hs, ht, hfate⟩

theorem Wound.change (h : Wound p bodies d e) (hl : Ledger p e) (hc : Change p bodies e e') :
    Wound p bodies d e' := by
  cases hc with
  | idle => exact h
  | cancel => exact { h with cancelling := rfl }
  | abort cancelling =>
    refine { h with fate := fun hn => ?_ }
    obtain ⟨s, t, hs, ht, hfate⟩ := h.fate hn
    exact ⟨s, t, hs, ht, hfate.stop⟩
  | settle node status why =>
    obtain ⟨unstarted, verdict, mark⟩ := why.dropped h.cancelling
    refine { h with fate := h.fate_put node fun s t ht hfate => ?_ }
    obtain rfl := Option.some.inj ((NodeTable.status?_of_get? ht).symm.trans status)
    have hsame := hfate.eq_of_open (by rcases unstarted with he | he <;> rw [he] <;> rfl)
    exact .dropped (hsame ▸ unstarted) verdict mark
  | launch _ _ active =>
    rw [h.cancelling] at active
    cases active
  | leave node entry invoked task_eq node_eq why =>
    obtain ⟨-, rfl⟩ := Manifest.mem_of_node? node
    refine { h with fate := h.fate_put node fun s t ht hfate => ?_ }
    have hrunning := Option.some.inj
      ((NodeTable.status?_of_get? ht).symm.trans (hl.status?_of_entry entry))
    have hsame := hfate.eq_of_open (by rw [hrunning]; rfl)
    exact why.fate (hsame ▸ hrunning) (h.invocations_eq ▸ invoked) node_eq rfl rfl

/-- However the run goes on, what was not started stays so, and every node meets its fate. -/
theorem Reachable.wound (h : Reachable p bodies params d)
    (hs : Steps p bodies { d with cancelling := true } e) :
    Wound p bodies d e ∧ Ledger p e := by
  induction hs with
  | refl =>
    refine ⟨⟨rfl, rfl, fun hn => ?_⟩, (h.steps (.single .cancel)).ledger⟩
    obtain ⟨hmem, hid⟩ := Manifest.mem_of_node? hn
    obtain ⟨status, hstatus⟩ := h.exists_status (List.mem_map.mpr ⟨_, hmem, hid⟩)
    obtain ⟨s, hs, -⟩ := NodeTable.status?_eq_some_iff.mp hstatus
    exact ⟨s, s, hs, hs, .kept⟩
  | tail _ step ih =>
    obtain ⟨hwound, hl⟩ := ih
    have hc := step.change hl
    exact ⟨hwound.change hl hc, hl.change hc⟩

/-- A node comes to run only in a step that starts it, which no step does any more. -/
theorem Change.running_of_running (hc : Change p bodies e e') (cancelling : e.cancelling = true)
    (h : e'.table.status? id = some .running) : e.table.status? id = some .running := by
  cases hc with
  | settle node status why =>
    obtain ⟨-, verdict, -⟩ := why.dropped cancelling
    rw [status?_put] at h
    split_ifs at h
    · cases (congrArg Verdict.status verdict).symm.trans (Option.some.inj h)
    · exact h
  | launch _ _ active =>
    rw [cancelling] at active
    cases active
  | leave node entry invoked task_eq node_eq why =>
    obtain ⟨hterm, -⟩ := why.target
    rw [status?_put] at h
    split_ifs at h
    · rw [show (NodeState.verdict _).status = _ from Option.some.inj h] at hterm
      cases hterm
    · exact h
  | _ => exact h

/-! ## The loop after the cancellation -/

/-- The heads of the loop from one on at which the cancellation is seen. Since it is not taken back,
every later pass sees it too. -/
inductive Winding (p : Plan) (bodies : Bodies) (d : Drive) : Drive → Prop
  | seen : Winding p bodies d d
  | turn {e e' : Drive} (before : Winding p bodies d e) (now : Instant)
      (busy : (e.pass p true now).isIdle = false) (event : Event p bodies (e.pass p true now) e') :
      Winding p bodies d e'

theorem Winding.head (h : Winding p bodies d e) (hd : Head p bodies params d) :
    Head p bodies params e := by
  induction h with
  | seen => exact hd
  | turn _ now busy event ih => exact .turn ih true now (fun _ => rfl) busy event

theorem Winding.steps_pass (h : Winding p bodies d e) (now : Instant) :
    Steps p bodies { d with cancelling := true } (e.pass p true now) := by
  induction h generalizing now with
  | seen => exact (skipUnstarted_steps p bodies now rfl).1
  | turn _ earlier _ event ih =>
    exact ((ih earlier).trans event.steps).trans (pass_steps true now fun _ => rfl)

/-! ## The status of a run -/

/-- Some node of the manifest is in a state of this kind. -/
def Occurs (p : Plan) (d : Drive) (kind : NodeState → Prop) : Prop :=
  ∃ n ∈ p.manifest.nodes, ∃ s, d.table.get? n.id = some s ∧ kind s

theorem Ledger.any_iff (h : Ledger p d) {kind : NodeState → Prop} {test : NodeState → Bool}
    (htest : ∀ s, test s = true ↔ kind s) : d.table.values.any test = true ↔ d.Occurs p kind := by
  rw [List.any_eq_true]
  constructor
  · rintro ⟨s, hs, hkind⟩
    obtain ⟨id, hid⟩ := Dict.mem_values_iff.mp hs
    obtain ⟨n, hn⟩ := h.known hid
    obtain ⟨hmem, rfl⟩ := Manifest.mem_of_node? hn
    exact ⟨n, hmem, s, hid, (htest s).mp hkind⟩
  · rintro ⟨n, -, s, hs, hkind⟩
    exact ⟨s, Dict.mem_values_iff.mpr ⟨n.id, hs⟩, (htest s).mpr hkind⟩

/-- Failed goes before cancelled, and cancelled before succeeded. -/
theorem Ledger.finalStatus_iff (h : Ledger p d) :
    (finalStatus d.table = .failed ↔ d.Occurs p (·.status = .failed)) ∧
    (finalStatus d.table = .cancelled ↔
      ¬ d.Occurs p (·.status = .failed) ∧ d.Occurs p (·.cancelled = true)) ∧
    (finalStatus d.table = .succeeded ↔
      ¬ d.Occurs p (·.status = .failed) ∧ ¬ d.Occurs p (·.cancelled = true)) := by
  have hfailed : d.table.values.any (fun s => s.status = .failed) = true ↔
    d.Occurs p (·.status = .failed) := h.any_iff (by simp)
  have hmarked : d.table.values.any (fun s => s.cancelled) = true ↔
    d.Occurs p (·.cancelled = true) := h.any_iff (by simp)
  unfold finalStatus
  rw [← hfailed, ← hmarked]
  split_ifs with hf hm
  · simp [hf]
  · simp [hf, hm]
  · simp [hf, hm]

/-- Once the head of a loop has seen the cancellation no node comes to run any more, and every node
meets its fate: what had not started is skipped and marked in the first pass, a running node keeps
the result of its own body or is aborted when the grace period is over, and a terminal node stays as
it was. When the loop ends all nodes are terminal, and the run failed if a node failed, otherwise it
was cancelled if a node is marked, and otherwise it succeeded. -/
theorem Head.cancelled_run (hp : p.Proper) (h : Head p bodies params d) :
    (∀ e, Steps p bodies { d with cancelling := true } e →
      (∀ e' id, Step p bodies e e' → e'.table.status? id = some .running →
        e.table.status? id = some .running) ∧
      ∀ id n, p.manifest.node? id = some n → ∃ s t, d.table.get? id = some s ∧
        e.table.get? id = some t ∧ Fate bodies d n e.aborted s t) ∧
    ∀ e now, Winding p bodies d e →
      Steps p bodies { d with cancelling := true } (e.pass p true now) ∧
      (∀ n ∈ p.manifest.nodes, (e.pass p true now).table.status? n.id ≠ some .pending ∧
        (e.pass p true now).table.status? n.id ≠ some .ready) ∧
      ((e.pass p true now).isIdle = true →
        (∀ n ∈ p.manifest.nodes, ∃ s, (e.pass p true now).table.status? n.id = some s ∧
          s.isTerminal = true) ∧
        let status := finalStatus (e.pass p true now).table
        let failed := (e.pass p true now).Occurs p (·.status = .failed)
        let marked := (e.pass p true now).Occurs p (·.cancelled = true)
        (status = .failed ↔ failed) ∧ (status = .cancelled ↔ ¬ failed ∧ marked) ∧
        (status = .succeeded ↔ ¬ failed ∧ ¬ marked)) := by
  refine ⟨fun e hs => ?_, fun e now hw => ?_⟩
  · obtain ⟨hwound, hl⟩ := h.reachable.wound hs
    refine ⟨fun e' id step hrunning => ?_, fun id n hn => hwound.fate hn⟩
    exact (step.change hl).running_of_running hwound.cancelling hrunning
  · have hsteps := hw.steps_pass now
    have hmem {n : ManifestNode} (hn : n ∈ p.manifest.nodes) : n.id ∈ p.order :=
      hp.mem_order.mpr (List.mem_map.mpr ⟨n, hn, rfl⟩)
    refine ⟨hsteps, fun n hn => started_of_skipUnstarted now _ hp (hmem hn), fun hidle => ?_⟩
    exact ⟨fun n hn => (hw.head h).exit_cancelled hp hidle (hmem hn),
      (h.reachable.wound hsteps).2.finalStatus_iff⟩

/-- Two nodes of their own and one that waits for the first. -/
def trio : Plan where
  manifest := ⟨manifestVersion, ⟨"trio", none⟩, [],
    [⟨"a", "a", "work", [], [], .empty, .always, .registered "work"⟩,
      ⟨"b", "b", "work", [], [], .empty, .always, .registered "work"⟩,
      ⟨"c", "c", "work", [], [], .empty, .always, .registered "work"⟩], [("a", "c")]⟩
  graph := ⟨["a", "b", "c"], [("a", "c")]⟩
  order := ["b", "a", "c"]
  run := "r"
  workers := 2
  resolveBody := fun _ _ => .ok ()
  location := fun _ _ => ""

def trioStarted : Drive := (begin trio.manifest .empty).pass trio false ⟨0, 0⟩

/-- The trio when the body of the first node has panicked after the cancellation. -/
def trioWinding : Drive :=
  (trioStarted.pass trio true ⟨1, 0⟩).finish trio ⟨2, 0⟩ 1 (.ended .panicked)

/-- The trio when the grace period is over. -/
def trioStopped : Drive := (trioWinding.pass trio true ⟨2, 0⟩).abort

/-- The trio when the other node has been aborted. -/
def trioOver : Drive := (trioStopped.pass trio true ⟨3, 0⟩).finish trio ⟨4, 0⟩ 0 .aborted

theorem trio_cancelled : trio.Proper ∧
    Head trio (fun _ _ => True) .empty trioStarted ∧
    Winding trio (fun _ _ => True) trioStarted trioOver ∧
    (trioOver.pass trio true ⟨5, 0⟩).isIdle = true ∧
    (∀ n ∈ trio.manifest.nodes, ∃ s, (trioOver.pass trio true ⟨5, 0⟩).table.status? n.id = some s ∧
      s.isTerminal = true) ∧
    finalStatus (trioOver.pass trio true ⟨5, 0⟩).table = .failed := by
  have hp : trio.Proper := ⟨rfl, rfl⟩
  have hstarted : Head trio (fun _ _ => True) .empty trioStarted :=
    .turn .start false ⟨0, 0⟩ (by decide) (by decide) .notice
  have hl : Ledger trio (trioStarted.pass trio true ⟨1, 0⟩) :=
    (hstarted.reachable_pass ⟨1, 0⟩ fun _ => rfl).ledger
  have hentry : (1, "a") ∈ (trioStarted.pass trio true ⟨1, 0⟩).running := by decide
  obtain ⟨i, hi, hit, -⟩ := hl.invoked hentry
  have hwinding : Winding trio (fun _ _ => True) trioStarted trioWinding :=
    .turn .seen ⟨1, 0⟩ (by decide) (.finish _ (by decide) hi hit trivial)
  have hstopped : Winding trio (fun _ _ => True) trioStarted trioStopped :=
    .turn hwinding ⟨2, 0⟩ (by decide) (.deadline (by decide) (by decide))
  have hover : Winding trio (fun _ _ => True) trioStarted trioOver :=
    .turn hstopped ⟨3, 0⟩ (by decide) (.abandon _ (by decide) (by decide))
  have hidle : (trioOver.pass trio true ⟨5, 0⟩).isIdle = true := by decide
  obtain ⟨-, hlater⟩ := Head.cancelled_run hp hstarted
  obtain ⟨-, -, hexit⟩ := hlater _ ⟨5, 0⟩ hover
  obtain ⟨hterminal, hfailed, -⟩ := hexit hidle
  refine ⟨hp, hstarted, hover, hidle, hterminal, hfailed.mpr ?_⟩
  exact ⟨_, List.mem_cons_self, _, rfl, rfl⟩

end Drive
end Workflow
