import Workflow.Manifest.Check
import Workflow.Proofs.Schedule.Decision

/-!
# What is left when the loop ends

The loop ends after the first pass that leaves no task. A pass decides the nodes in topological
order before it starts any, so that a node which fails while it is prepared for its start fails too
late for its consumers: if nothing else runs, they stay pending for good.
-/
namespace Workflow.Drive
variable {p : Plan} {bodies : Bodies} {params : Dict Scalar} {d : Drive} {id x : String}
  {now : Instant}

/-! ## What is started -/

theorem framed_tasks (d : Drive) :
    Framed fun e => e.artifacts = d.artifacts ∧ d.tasks <+: e.tasks :=
  ⟨fun _ _ h => h, fun _ _ _ h => ⟨h.1, h.2.trans (List.prefix_append _ _)⟩⟩

/-- The start of nodes leaves the values alone and does not take a task away. -/
theorem startNodes_frame (p : Plan) (now : Instant) (d : Drive) (ids : List String) :
    (ids.foldl (startNode p now) d).artifacts = d.artifacts ∧
      d.tasks <+: (ids.foldl (startNode p now) d).tasks :=
  (framed_tasks d).startNodes ⟨rfl, List.prefix_rfl⟩ now ids

/-- While no task runs there is a free worker, so that a ready node is started unless it cannot be
prepared. -/
theorem startNode_of_idle (h : Ledger p d) (hw : 1 ≤ p.workers)
    (hidle : (startNode p now d id).tasks = []) :
    (d.table.status? id = some .ready →
      (startNode p now d id).table.status? id = some .failed ∧
      ∃ n f, p.manifest.node? id = some n ∧ prepare p n d.artifacts = .error f) ∧
    (d.table.status? id ≠ some .ready →
      (startNode p now d id).table.status? id = d.table.status? id) := by
  have hempty : d.tasks = [] := List.prefix_nil.mp (hidle ▸ (startNodes_frame p now d [id]).2)
  constructor
  · intro hready
    obtain ⟨s, hs, hst⟩ := NodeTable.status?_eq_some_iff.mp hready
    obtain ⟨n, hn⟩ := h.known hs
    have hfree : ¬ p.workers ≤ d.tasks.length := by
      rw [hempty, List.length_nil]
      omega
    unfold startNode at hidle ⊢
    simp only [hfree, hready, hn, decide_false, ne_eq, not_true_eq_false, Bool.or_self,
      Bool.false_eq_true, if_false, move_of_get? hs hst, move?_of_get? hs hst] at hidle ⊢
    cases hprep : prepare p n d.artifacts with
    | error f =>
      exact ⟨by simp [status?_put, withReason], n, f, rfl, hprep⟩
    | ok inputs => simp [hprep, spawn] at hidle
  · intro hready
    unfold startNode
    simp [hready]

theorem startReady_of_idle (hp : p.Proper) (h : Reachable p bodies params d)
    (active : d.cancelling = false) (hw : 1 ≤ p.workers)
    (hidle : (startReady p now d).tasks = []) (hid : id ∈ p.order) :
    (d.table.status? id = some .ready →
      (startReady p now d).table.status? id = some .failed ∧
      ∃ n f, p.manifest.node? id = some n ∧ prepare p n d.artifacts = .error f) ∧
    (d.table.status? id ≠ some .ready →
      (startReady p now d).table.status? id = d.table.status? id) := by
  obtain ⟨earlier, later, hsplit⟩ := List.append_of_mem hid
  have hsub : earlier ⊆ p.order := hsplit ▸ List.subset_append_left _ _
  have hmiddle := h.steps (startNodes_steps p bodies now hsub active).1
  obtain ⟨hbefore, hturn⟩ := get?_foldl_at_turn (d := d) (f := startNode p now)
    get?_startNode_of_ne (hsplit ▸ hp.topological.nodup)
  have hidle' : (startNode p now (earlier.foldl (startNode p now) d) id).tasks = [] := by
    have hgrow := (startNodes_frame p now
      (startNode p now (earlier.foldl (startNode p now) d) id) later).2
    rw [startReady, hsplit, List.foldl_append, List.foldl_cons] at hidle
    exact List.prefix_nil.mp (hidle ▸ hgrow)
  obtain ⟨hready, hother⟩ := startNode_of_idle hmiddle.ledger hw hidle'
  rw [startReady, hsplit, NodeTable.status?_congr hturn, ← (startNodes_frame p now d earlier).1,
    ← NodeTable.status?_congr hbefore]
  exact ⟨hready, hother⟩

/-! ## What is skipped -/

theorem status?_skipNode
    (h : d.table.status? id = some .pending ∨ d.table.status? id = some .ready) :
    (skipNode now d id).table.status? id = some .skipped := by
  unfold skipNode
  rcases h with h | h
  · obtain ⟨s, hs, hst⟩ := NodeTable.status?_eq_some_iff.mp h
    rw [move_of_get? hs hst, move_of_ne] <;> simp [status?_put]
  · obtain ⟨s, hs, hst⟩ := NodeTable.status?_eq_some_iff.mp h
    have hne : d.table.status? id ≠ some .pending := by simp [h]
    rw [move_of_ne hne, move_of_get? hs hst]
    simp [status?_put]

theorem started_of_skipUnstarted (now : Instant) (d : Drive) (hp : p.Proper) (hid : id ∈ p.order) :
    (skipUnstarted p now d).table.status? id ≠ some .pending ∧
      (skipUnstarted p now d).table.status? id ≠ some .ready := by
  obtain ⟨earlier, later, hsplit⟩ := List.append_of_mem hid
  obtain ⟨-, hturn⟩ := get?_foldl_at_turn (d := d) (f := skipNode now) get?_skipNode_of_ne
    (hsplit ▸ hp.topological.nodup)
  rw [skipUnstarted, hsplit, NodeTable.status?_congr hturn]
  generalize earlier.foldl (skipNode now) d = e
  by_cases hopen : e.table.status? id = some .pending ∨ e.table.status? id = some .ready
  · rw [status?_skipNode hopen]
    exact ⟨by decide, by decide⟩
  · obtain ⟨hpending, hready⟩ := not_or.mp hopen
    rw [skipNode, move_of_ne hpending, move_of_ne hready]
    exact ⟨hpending, hready⟩

/-! ## The end of the loop -/

theorem Ledger.not_running_of_idle (h : Ledger p d) (hidle : d.tasks = []) (id : String) :
    d.table.status? id ≠ some .running := by
  have hrunning : d.running = [] := List.map_eq_nil_iff.mp (h.tasks_eq.trans hidle)
  rw [ne_eq, h.running_iff, hrunning]
  exact List.not_mem_nil

/-- A node that has been let through has a consumer that is still pending. -/
def Stranded (p : Plan) (d : Drive) : Prop :=
  ∃ a b, p.graph.Edge a b ∧ d.table.status? a = some .ready ∧ d.table.status? b = some .pending

/-- Without a ready node in front of it and with nothing running, no node stays pending. -/
theorem not_pending_of_not_stranded (hp : p.Proper) (h : Reachable p bodies params d)
    (active : d.cancelling = false) (hw : 1 ≤ p.workers)
    (hidle : (startReady p now (resolvePending p now d)).tasks = [])
    (hnot : ¬ Stranded p (resolvePending p now d)) :
    ∀ id ∈ p.order, (resolvePending p now d).table.status? id ≠ some .pending := by
  obtain ⟨hsteps, hactive⟩ := resolvePending_steps p bodies now active
  have hr := h.steps hsteps
  have he := hr.steps (startReady_steps p bodies now hactive).1
  -- along the order: a node that stays pending waits for an earlier one, which has no status left
  refine hp.topological.induct fun x _ ih hpending => ?_
  obtain ⟨hbad, dep, hdep, hne⟩ := waits_of_resolvePending hp h hpending
  have hmem := hp.source_mem_order hdep
  obtain ⟨s, hs⟩ := hr.exists_status (hp.mem_order.mp hmem)
  obtain ⟨hready, hother⟩ := startReady_of_idle hp hr hactive hw hidle hmem
  have hpend := ih dep hdep
  have hfail := hbad dep hdep
  cases s with
  | pending => exact hpend hs
  | ready => exact hnot ⟨dep, x, hdep, hs, hpending⟩
  | running =>
    refine he.ledger.not_running_of_idle hidle dep ?_
    rw [hother (by simp [hs]), hs]
  | succeeded => exact hne hs
  | failed => exact hfail.1 hs
  | skipped => exact hfail.2 hs

/-- A consumer of a node that failed or was skipped is skipped or still pending. -/
theorem Reachable.skipped_or_pending (hp : p.Proper) (h : Reachable p bodies params d)
    {a b : String} (hab : p.graph.Edge a b)
    (ha : d.table.status? a = some .failed ∨ d.table.status? a = some .skipped) :
    d.table.status? b = some .skipped ∨ d.table.status? b = some .pending := by
  have hb := hp.mem_order.mp (hp.target_mem_order hab)
  obtain ⟨n, hn⟩ := Manifest.exists_node? hb
  obtain ⟨s, hs⟩ := h.exists_status hb
  by_contra hno
  obtain ⟨hskipped, hpending⟩ := not_or.mp hno
  have hcleared := h.admitted.cleared hn hs (fun he => hpending (he ▸ hs))
    (fun he => hskipped (he ▸ hs))
  rw [hcleared a hab] at ha
  simp at ha

/-! ## The two ways out -/

/-- After a cancellation the last pass has skipped what was not started. -/
theorem Head.exit_cancelled (hp : p.Proper) (h : Head p bodies params d)
    (hidle : (d.pass p true now).isIdle = true) (hid : id ∈ p.order) :
    ∃ s, (d.pass p true now).table.status? id = some s ∧ s.isTerminal = true := by
  have hpass := h.reachable.steps (pass_steps true now fun _ => rfl)
  obtain ⟨s, hs⟩ := hpass.exists_status (hp.mem_order.mp hid)
  obtain ⟨hpending, hready⟩ := started_of_skipUnstarted now { d with cancelling := true } hp hid
  refine ⟨s, hs, ?_⟩
  cases s with
  | pending => exact absurd hs hpending
  | ready => exact absurd hs hready
  | running => exact absurd hs (hpass.ledger.not_running_of_idle (List.isEmpty_iff.mp hidle) id)
  | _ => rfl

/-- Without a cancellation a node is terminal, unless it was left pending when the last pass decided
the nodes. -/
theorem Head.exit_active (hp : p.Proper) (hw : 1 ≤ p.workers) (h : Head p bodies params d)
    (active : d.cancelling = false) (hidle : (d.pass p false now).isIdle = true)
    (hid : id ∈ p.order) :
    ∃ s, (d.pass p false now).table.status? id = some s ∧ (s.isTerminal = true ∨
      s = .pending ∧ (resolvePending p now d).table.status? id = some .pending) := by
  have htasks : (d.pass p false now).tasks = [] := List.isEmpty_iff.mp hidle
  have hpass := h.reachable.steps (pass_steps false now (by simp [active]))
  obtain ⟨hsteps, hactive⟩ := resolvePending_steps p bodies now active
  obtain ⟨hready, hother⟩ :=
    startReady_of_idle hp (h.reachable.steps hsteps) hactive hw htasks hid
  obtain ⟨s, hs⟩ := hpass.exists_status (hp.mem_order.mp hid)
  refine ⟨s, hs, ?_⟩
  by_cases hturn : (resolvePending p now d).table.status? id = some .ready
  · obtain ⟨hfailed, -⟩ := hready hturn
    cases hs.symm.trans hfailed
    exact .inl rfl
  · have hsame := hs.symm.trans (hother hturn)
    cases s with
    | pending => exact .inr ⟨rfl, hsame.symm⟩
    | ready => exact absurd hsame.symm hturn
    | running => exact absurd hs (hpass.ledger.not_running_of_idle htasks id)
    | _ => exact .inl rfl

/-- A node that failed or was skipped below which a node stays pending has failed when the last pass
prepared it. -/
theorem Head.unprepared_of_pending (hp : p.Proper) (hw : 1 ≤ p.workers)
    (h : Head p bodies params d) (active : d.cancelling = false)
    (hidle : (d.pass p false now).isIdle = true) {a b : String} (hab : p.graph.Edge a b)
    (ha : (d.pass p false now).table.status? a = some .failed ∨
      (d.pass p false now).table.status? a = some .skipped)
    (hb : (d.pass p false now).table.status? b = some .pending) :
    (d.pass p false now).table.status? a = some .failed ∧
    ∃ n f, p.manifest.node? a = some n ∧
      prepare p n (resolvePending p now d).artifacts = .error f := by
  obtain ⟨s, hs, ht⟩ := h.exit_active hp hw active hidle (hp.target_mem_order hab)
  cases hs.symm.trans hb
  obtain ⟨-, hpending⟩ := ht.resolve_left (by decide)
  obtain ⟨hbad, -⟩ := waits_of_resolvePending hp h.reachable hpending
  obtain ⟨hsteps, hactive⟩ := resolvePending_steps p bodies now active
  obtain ⟨hready, hother⟩ := startReady_of_idle hp (h.reachable.steps hsteps) hactive hw
    (List.isEmpty_iff.mp hidle) (hp.source_mem_order hab)
  by_cases hturn : (resolvePending p now d).table.status? a = some .ready
  · exact hready hturn
  · rw [pass, if_neg (by decide), hother hturn] at ha
    exact absurd ha (not_or.mpr (hbad a hab))

/-- All nodes are terminal at the end of an active run exactly if the last pass has left no node
stranded. -/
theorem Head.exit_active_iff (hp : p.Proper) (hw : 1 ≤ p.workers) (h : Head p bodies params d)
    (active : d.cancelling = false) (hidle : (d.pass p false now).isIdle = true) :
    (∀ id ∈ p.order, ∃ s, (d.pass p false now).table.status? id = some s ∧ s.isTerminal = true) ↔
      ¬ Stranded p (resolvePending p now d) := by
  have htasks : (d.pass p false now).tasks = [] := List.isEmpty_iff.mp hidle
  constructor
  · rintro hall ⟨a, b, hab, -, hb⟩
    obtain ⟨hsteps, hactive⟩ := resolvePending_steps p bodies now active
    obtain ⟨-, hother⟩ := startReady_of_idle hp (h.reachable.steps hsteps) hactive hw htasks
      (hp.target_mem_order hab)
    obtain ⟨s, hs, ht⟩ := hall b (hp.target_mem_order hab)
    cases hs.symm.trans ((hother (by simp [hb])).trans hb)
    cases ht
  · intro hnot id hid
    have hno := not_pending_of_not_stranded hp h.reachable active hw htasks hnot
    obtain ⟨s, hs, ht⟩ := h.exit_active hp hw active hidle hid
    exact ⟨s, hs, ht.resolve_right fun hpending => hno id hid hpending.2⟩

/-- When the loop ends no node is ready or running. All nodes are terminal exactly if the run was
cancelled or the last pass let no node through that has a pending consumer. Below a node that failed
or was skipped a node is skipped, unless the node above failed while the last pass prepared it. -/
theorem Head.exit_terminal_iff {cancel : Bool} (hp : p.Proper) (hw : 1 ≤ p.workers)
    (h : Head p bodies params d) (kept : d.cancelling = true → cancel = true)
    (hidle : (d.pass p cancel now).isIdle = true) :
    (∀ n ∈ p.manifest.nodes, ∃ s, (d.pass p cancel now).table.status? n.id = some s ∧
      (s.isTerminal = true ∨ s = .pending)) ∧
    ((∀ n ∈ p.manifest.nodes, ∃ s, (d.pass p cancel now).table.status? n.id = some s ∧
      s.isTerminal = true) ↔ cancel = true ∨ ¬ Stranded p (resolvePending p now d)) ∧
    ∀ a b, p.manifest.graph.Edge a b →
      (d.pass p cancel now).table.status? a = some .failed ∨
        (d.pass p cancel now).table.status? a = some .skipped →
      (d.pass p cancel now).table.status? b = some .skipped ∨
      (cancel = false ∧ (d.pass p cancel now).table.status? b = some .pending ∧
        (d.pass p cancel now).table.status? a = some .failed ∧
        ∃ n f, p.manifest.node? a = some n ∧
          prepare p n (resolvePending p now d).artifacts = .error f) := by
  have hpass := h.reachable_pass now kept
  have hmem {n : ManifestNode} (hn : n ∈ p.manifest.nodes) : n.id ∈ p.order :=
    hp.mem_order.mpr (List.mem_map.mpr ⟨n, hn, rfl⟩)
  -- after a cancellation nothing is left pending; without one the last pass may strand a node
  cases cancel with
  | true =>
    have hterm {id : String} (hid : id ∈ p.order) := h.exit_cancelled hp hidle hid
    refine ⟨fun n hn => ?_, ⟨fun _ => .inl rfl, fun _ n hn => hterm (hmem hn)⟩, ?_⟩
    · obtain ⟨s, hs, ht⟩ := hterm (hmem hn)
      exact ⟨s, hs, .inl ht⟩
    · intro a b hab ha
      rw [← hp.graph_eq] at hab
      rcases hpass.skipped_or_pending hp hab ha with hb | hb
      · exact .inl hb
      · exact absurd hb (started_of_skipUnstarted now _ hp (hp.target_mem_order hab)).1
  | false =>
    have active : d.cancelling = false := by simpa using kept
    have hiff := h.exit_active_iff hp hw active hidle
    refine ⟨fun n hn => ?_, ⟨fun hall => .inr (hiff.mp fun id hid => ?_), fun hnot n hn => ?_⟩, ?_⟩
    · obtain ⟨s, hs, ht⟩ := h.exit_active hp hw active hidle (hmem hn)
      exact ⟨s, hs, ht.imp_right (·.1)⟩
    · obtain ⟨n, hn, rfl⟩ := List.mem_map.mp (hp.mem_order.mp hid)
      exact hall n hn
    · exact hiff.mpr (hnot.resolve_left (by decide)) n.id (hmem hn)
    · intro a b hab ha
      rw [← hp.graph_eq] at hab
      rcases hpass.skipped_or_pending hp hab ha with hb | hb
      · exact .inl hb
      · exact .inr ⟨rfl, hb, h.unprepared_of_pending hp hw active hidle hab ha hb⟩

def relayHalf : Drive :=
  ((begin relay.manifest .empty).pass relay false ⟨0, 0⟩).finish relay ⟨1, 0⟩ 0
    (.ended (.returned .empty))

def relayDone : Drive :=
  (relayHalf.pass relay false ⟨2, 0⟩).finish relay ⟨3, 0⟩ 1 (.ended (.returned .empty))

theorem relay_exit :
    Head relay (fun _ _ => True) .empty relayDone ∧
    (relayDone.pass relay false ⟨4, 0⟩).isIdle = true ∧
    (relayDone.pass relay false ⟨4, 0⟩).table.status? "b" = some .succeeded ∧
    ∀ n ∈ relay.manifest.nodes, ∃ s, (relayDone.pass relay false ⟨4, 0⟩).table.status? n.id = some s ∧
      s.isTerminal = true := by
  have ha : (0, "a") ∈ ((begin relay.manifest .empty).pass relay false ⟨0, 0⟩).running := by decide
  have hhalf : Head relay (fun _ _ => True) .empty relayHalf :=
    Head.finish .start _ (by decide) ha fun _ _ => trivial
  have hb : (1, "b") ∈ (relayHalf.pass relay false ⟨2, 0⟩).running := by decide
  have hdone : Head relay (fun _ _ => True) .empty relayDone :=
    Head.finish hhalf _ (by decide) hb fun _ _ => trivial
  have hidle : (relayDone.pass relay false ⟨4, 0⟩).isIdle = true := by decide
  obtain ⟨-, hiff, -⟩ :=
    Head.exit_terminal_iff ⟨rfl, rfl⟩ (by decide) hdone (by decide) hidle
  refine ⟨hdone, hidle, by decide, hiff.mpr (.inr ?_)⟩
  rintro ⟨a, b, hab, ha, -⟩
  obtain ⟨rfl, rfl⟩ := Prod.mk.inj (List.mem_singleton.mp hab)
  revert ha
  decide

/-- Two nodes, of which the first cannot be prepared: its input wants an int and gets a text. -/
def misfit : Plan :=
  { relay with
    manifest := ⟨manifestVersion, ⟨"misfit", none⟩, [],
      [⟨"a", "a", "work", [⟨"x", .int, some (.literal (.text "text")), none⟩], [], .empty, .always,
          .registered "work"⟩,
        ⟨"b", "b", "work", [], [], .empty, .always, .registered "work"⟩], [("a", "b")]⟩ }

/-- The loop ends after one pass and leaves the second node pending below a failed one. -/
theorem misfit_stranded :
    misfit.manifest.validate = .ok () ∧ misfit.Proper ∧
    Head misfit (fun _ _ => True) .empty (begin misfit.manifest .empty) ∧
    ((begin misfit.manifest .empty).pass misfit false ⟨0, 0⟩).isIdle = true ∧
    ((begin misfit.manifest .empty).pass misfit false ⟨0, 0⟩).table.status? "a" = some .failed ∧
    ((begin misfit.manifest .empty).pass misfit false ⟨0, 0⟩).table.status? "b" = some .pending :=
  ⟨rfl, ⟨rfl, rfl⟩, .start, rfl, rfl, rfl⟩

end Workflow.Drive
