import Workflow.Proofs.Schedule.Admission

/-!
# Deciding the pending nodes

A pass takes the nodes in topological order, so that the predecessors of a node have had their turns
when its own comes, and the rest of the pass leaves them as they are. Hence what a pass makes of a
node is what the table at its end says about it, and another pass would change nothing.
-/
namespace Workflow.Drive
variable {p : Plan} {bodies : Bodies} {params : Dict Scalar} {d : Drive} {id x : String}
  {n : ManifestNode} {now : Instant}

/-! ## A pass changes one node after the other -/

theorem get?_move_of_ne (hx : x ≠ id) (source target : NodeStatus) (now : Instant)
    (details : NodeState → NodeState) :
    (d.move id source target now details).table.get? x = d.table.get? x := by
  by_cases h : d.table.status? id = some source
  · obtain ⟨s, hs, hst⟩ := NodeTable.status?_eq_some_iff.mp h
    rw [move_of_get? hs hst, get?_put, if_neg hx]
  · rw [move_of_ne h]

theorem get?_resolveNode_of_ne (hx : x ≠ id) :
    (resolveNode p now d id).table.get? x = d.table.get? x := by
  unfold resolveNode
  split_ifs
  · rfl
  · repeat' split
    all_goals simp only [get?_move_of_ne hx]

theorem get?_startNode_of_ne (hx : x ≠ id) :
    (startNode p now d id).table.get? x = d.table.get? x := by
  unfold startNode
  split_ifs with hready
  · rfl
  · simp only [Bool.or_eq_true, decide_eq_true_eq, not_or, ne_eq, not_not] at hready
    obtain ⟨s, hs, hst⟩ := NodeTable.status?_eq_some_iff.mp hready.2
    split
    · rfl
    · split
      · exact get?_move_of_ne hx _ _ _ _
      · rw [move?_of_get? hs hst]
        exact get?_put.trans (if_neg hx)

theorem get?_skipNode_of_ne (hx : x ≠ id) :
    (skipNode now d id).table.get? x = d.table.get? x := by
  rw [skipNode, get?_move_of_ne hx, get?_move_of_ne hx]

section
variable {f : Drive → String → Drive} {earlier later : List String}

theorem get?_foldl_of_notMem
    (hf : ∀ {d : Drive} {id}, x ≠ id → (f d id).table.get? x = d.table.get? x)
    {ids : List String} (hx : x ∉ ids) : (ids.foldl f d).table.get? x = d.table.get? x := by
  induction ids generalizing d with
  | nil => rfl
  | cons id ids ih =>
    simp only [List.mem_cons, not_or] at hx
    rw [List.foldl_cons, ih hx.2, hf hx.1]

/-- A node of the order is changed at its own turn only. -/
theorem get?_foldl_at_turn
    (hf : ∀ {d : Drive} {id x}, x ≠ id → (f d id).table.get? x = d.table.get? x)
    (hnodup : (earlier ++ id :: later).Nodup) :
    (earlier.foldl f d).table.get? id = d.table.get? id ∧
    ((earlier ++ id :: later).foldl f d).table.get? id =
      (f (earlier.foldl f d) id).table.get? id := by
  obtain ⟨-, hrest, hdisj⟩ := List.nodup_append.mp hnodup
  have hbefore : id ∉ earlier := fun hm => hdisj id hm id List.mem_cons_self rfl
  refine ⟨get?_foldl_of_notMem hf hbefore, ?_⟩
  rw [List.foldl_append, List.foldl_cons, get?_foldl_of_notMem hf (List.nodup_cons.mp hrest).1]

/-- A node that has had its turn keeps its state for the rest of the pass. -/
theorem get?_foldl_after_turn
    (hf : ∀ {d : Drive} {id x}, x ≠ id → (f d id).table.get? x = d.table.get? x)
    (hnodup : (earlier ++ later).Nodup) (hx : x ∈ earlier) :
    ((earlier ++ later).foldl f d).table.get? x = (earlier.foldl f d).table.get? x := by
  have hnot : x ∉ later := fun hm => (List.nodup_append.mp hnodup).2.2 x hx x hm rfl
  rw [List.foldl_append, get?_foldl_of_notMem hf hnot]

end

/-! ## Decisions -/

/-- What a pass can make of a pending node, by the statuses of its predecessors and the values that
there are. -/
inductive Decision (p : Plan) (table : NodeTable) (store : ArtifactStore) (n : ManifestNode) :
    NodeStatus → Prop
  | wait {dep : String} (edge : p.graph.Edge dep n.id)
      (unsettled : table.status? dep ≠ some .succeeded)
      (unblocked : ∀ dep, p.graph.Edge dep n.id →
        table.status? dep ≠ some .failed ∧ table.status? dep ≠ some .skipped) :
      Decision p table store n .pending
  | block {dep : String} (edge : p.graph.Edge dep n.id)
      (blocked : table.status? dep = some .failed ∨ table.status? dep = some .skipped) :
      Decision p table store n .skipped
  | allow (cleared : ∀ dep, p.graph.Edge dep n.id → table.status? dep = some .succeeded)
      (holds : clausesHold store n.condition.clauses = .ok true) : Decision p table store n .ready
  | decline (cleared : ∀ dep, p.graph.Edge dep n.id → table.status? dep = some .succeeded)
      (fails : clausesHold store n.condition.clauses = .ok false) :
      Decision p table store n .skipped
  | refuse {fault : NodeFault}
      (cleared : ∀ dep, p.graph.Edge dep n.id → table.status? dep = some .succeeded)
      (unresolved : clausesHold store n.condition.clauses = .error fault) :
      Decision p table store n .failed

/-- A decision depends on the statuses of the predecessors only. -/
theorem Decision.congr {table table' : NodeTable} {store : ArtifactStore} {s : NodeStatus}
    (h : Decision p table store n s)
    (hsame : ∀ dep, p.graph.Edge dep n.id → table'.status? dep = table.status? dep) :
    Decision p table' store n s := by
  cases h with
  | wait edge unsettled unblocked =>
    refine .wait edge (by rwa [hsame _ edge]) fun dep he => ?_
    rw [hsame dep he]
    exact unblocked dep he
  | block edge blocked => exact .block edge (by rwa [hsame _ edge])
  | allow cleared holds => exact .allow (fun dep he => by rw [hsame dep he, cleared dep he]) holds
  | decline cleared fails =>
    exact .decline (fun dep he => by rw [hsame dep he, cleared dep he]) fails
  | refuse cleared unresolved =>
    exact .refuse (fun dep he => by rw [hsame dep he, cleared dep he]) unresolved

theorem resolveNode_decision (now : Instant) (hn : p.manifest.node? id = some n)
    (hpending : d.table.status? id = some .pending) :
    ∃ s, (resolveNode p now d id).table.status? id = some s ∧
      Decision p d.table d.artifacts n s := by
  obtain ⟨-, rfl⟩ := Manifest.mem_of_node? hn
  obtain ⟨s, hs, hst⟩ := NodeTable.status?_eq_some_iff.mp hpending
  unfold resolveNode
  simp only [hpending, ne_eq, not_true_eq_false, if_false, hn, move_of_get? hs hst]
  cases hr : readiness d.table (p.graph.dependencies n.id) false with
  | waiting =>
    obtain ⟨hbad, hwait⟩ := waits_of_waiting hr
    obtain ⟨dep, hdep, hne⟩ := hwait.resolve_left (by decide)
    refine ⟨.pending, hpending, .wait (TaskGraph.mem_dependencies.mp hdep) hne fun dep he => ?_⟩
    exact hbad dep (TaskGraph.mem_dependencies.mpr he)
  | blocked reason =>
    obtain ⟨dep, hdep, hbad⟩ := failed_or_skipped_of_blocked hr
    refine ⟨.skipped, ?_, .block (TaskGraph.mem_dependencies.mp hdep) hbad⟩
    simp [status?_put, withReason]
  | clear =>
    have hclear : ∀ dep, p.graph.Edge dep n.id → d.table.status? dep = some .succeeded :=
      fun dep he => (readiness_eq_clear.mp hr).2 dep (TaskGraph.mem_dependencies.mpr he)
    cases hholds : clausesHold d.artifacts n.condition.clauses with
    | error fault =>
      exact ⟨.failed, by simp [status?_put, withReason], .refuse hclear hholds⟩
    | ok holds =>
      cases holds with
      | true => exact ⟨.ready, by simp [status?_put], .allow hclear hholds⟩
      | false => exact ⟨.skipped, by simp [status?_put, withReason], .decline hclear hholds⟩

theorem resolveNode_of_ne_pending (h : d.table.status? id ≠ some .pending) :
    resolveNode p now d id = d :=
  if_pos h

/-- A node for which the table decides that it waits is left as it is. -/
theorem resolveNode_of_wait (hn : p.manifest.node? id = some n)
    (h : Decision p d.table d.artifacts n .pending) : resolveNode p now d id = d := by
  obtain ⟨-, rfl⟩ := Manifest.mem_of_node? hn
  obtain @⟨dep, edge, unsettled, unblocked⟩ := h
  have hdep := TaskGraph.mem_dependencies.mpr edge
  unfold resolveNode
  split_ifs
  · rfl
  · simp only [hn]
    cases hr : readiness d.table (p.graph.dependencies n.id) false with
    | waiting => rfl
    | blocked reason =>
      obtain ⟨other, hother, hbad⟩ := failed_or_skipped_of_blocked hr
      obtain ⟨hfailed, hskipped⟩ := unblocked other (TaskGraph.mem_dependencies.mp hother)
      exact absurd hbad (not_or.mpr ⟨hfailed, hskipped⟩)
    | clear => exact absurd ((readiness_eq_clear.mp hr).2 dep hdep) unsettled

/-! ## One pass suffices -/

theorem artifacts_resolveNodes (p : Plan) (now : Instant) (d : Drive) (ids : List String) :
    (ids.foldl (resolveNode p now) d).artifacts = d.artifacts := by
  have hframed : Framed fun e => e.artifacts = d.artifacts := ⟨fun _ _ h => h, fun _ _ _ h => h⟩
  exact hframed.resolveNodes rfl now ids

/-- What a pass makes of a pending node is what the table at its end says about it. -/
theorem resolvePending_decision (hp : p.Proper) (now : Instant)
    (hn : p.manifest.node? id = some n) (hpending : d.table.status? id = some .pending) :
    ∃ s, (resolvePending p now d).table.status? id = some s ∧
      Decision p (resolvePending p now d).table d.artifacts n s := by
  obtain ⟨earlier, later, hsplit⟩ := List.append_of_mem (hp.mem_order_of_node? hn)
  have hnodup : (earlier ++ id :: later).Nodup := hsplit ▸ hp.topological.nodup
  obtain ⟨hbefore, hturn⟩ := get?_foldl_at_turn (d := d) (f := resolveNode p now)
    get?_resolveNode_of_ne hnodup
  obtain ⟨s, hs, hdecision⟩ := resolveNode_decision (d := earlier.foldl (resolveNode p now) d)
    now hn ((NodeTable.status?_congr hbefore).trans hpending)
  rw [artifacts_resolveNodes] at hdecision
  refine ⟨s, ?_, hdecision.congr fun dep he => ?_⟩
  · rw [resolvePending, hsplit, NodeTable.status?_congr hturn, hs]
  · obtain ⟨-, rfl⟩ := Manifest.mem_of_node? hn
    have hdep : dep ∈ earlier := hp.topological.producer_mem hsplit he
    rw [resolvePending, hsplit]
    exact NodeTable.status?_congr (get?_foldl_after_turn get?_resolveNode_of_ne hnodup hdep)

/-- A node that is not pending keeps its state. -/
theorem get?_resolvePending_of_ne_pending (h : d.table.status? id ≠ some .pending) :
    (resolvePending p now d).table.get? id = d.table.get? id := by
  refine List.foldlRecOn p.order (resolveNode p now)
    (motive := fun e => e.table.get? id = d.table.get? id) rfl fun e he x _ => ?_
  by_cases hx : id = x
  · subst hx
    rwa [resolveNode_of_ne_pending (NodeTable.status?_congr he ▸ h)]
  · rw [get?_resolveNode_of_ne hx, he]

theorem pending_of_resolvePending
    (h : (resolvePending p now d).table.status? id = some .pending) :
    d.table.status? id = some .pending := by
  by_contra hne
  exact hne ((NodeTable.status?_congr (get?_resolvePending_of_ne_pending hne)).symm.trans h)

/-- A second pass changes nothing. -/
theorem resolvePending_resolvePending (hp : p.Proper) (now later : Instant) (d : Drive) :
    resolvePending p later (resolvePending p now d) = resolvePending p now d := by
  refine List.foldl_fixed' (fun id => ?_) p.order
  by_cases hpending : (resolvePending p now d).table.status? id = some .pending
  · cases hn : p.manifest.node? id with
    | none => simp [resolveNode, hn]
    | some n =>
      obtain ⟨s, hs, hdecision⟩ :=
        resolvePending_decision hp now hn (pending_of_resolvePending hpending)
      cases hpending.symm.trans hs
      refine resolveNode_of_wait hn ?_
      rwa [resolvePending, artifacts_resolveNodes]
  · exact resolveNode_of_ne_pending hpending

/-- A node that stays pending waits for a predecessor that has not succeeded, and has none that
failed or was skipped. -/
theorem waits_of_resolvePending (hp : p.Proper) (h : Reachable p bodies params d)
    (hpending : (resolvePending p now d).table.status? id = some .pending) :
    (∀ dep, p.graph.Edge dep id → (resolvePending p now d).table.status? dep ≠ some .failed ∧
      (resolvePending p now d).table.status? dep ≠ some .skipped) ∧
    ∃ dep, p.graph.Edge dep id ∧
      (resolvePending p now d).table.status? dep ≠ some .succeeded := by
  have hbefore := pending_of_resolvePending hpending
  obtain ⟨s, hs, -⟩ := NodeTable.status?_eq_some_iff.mp hbefore
  obtain ⟨n, hn⟩ := h.ledger.known hs
  obtain ⟨-, rfl⟩ := Manifest.mem_of_node? hn
  obtain ⟨s, hs, hdecision⟩ := resolvePending_decision hp now hn hbefore
  cases hpending.symm.trans hs
  cases hdecision with
  | wait edge unsettled unblocked => exact ⟨unblocked, _, edge, unsettled⟩

theorem exists_status_resolvePending (hp : p.Proper) (h : Reachable p bodies params d)
    (now : Instant) (hid : id ∈ p.order) :
    ∃ s, (resolvePending p now d).table.status? id = some s := by
  have hnode := hp.mem_order.mp hid
  obtain ⟨n, hn⟩ := Manifest.exists_node? hnode
  by_cases hpending : d.table.status? id = some .pending
  · obtain ⟨s, hs, -⟩ := resolvePending_decision hp now hn hpending
    exact ⟨s, hs⟩
  · rw [NodeTable.status?_congr (get?_resolvePending_of_ne_pending hpending)]
    exact h.exists_status hnode

/-- After one pass a node that is still pending has a predecessor that is not terminal and none that
failed or was skipped. A node that was let through has predecessors that succeeded, a node that was
skipped has one that failed or was skipped or a clause that is false, and a node that was not
pending has not changed. -/
theorem Reachable.decided_in_one_pass (hp : p.Proper) (h : Reachable p bodies params d)
    (now : Instant) :
    let after := resolvePending p now d
    (∀ id, after.table.status? id = some .pending →
      (∃ dep s, p.manifest.graph.Edge dep id ∧ after.table.status? dep = some s ∧
        s.isTerminal = false) ∧
      ∀ dep, p.manifest.graph.Edge dep id →
        after.table.status? dep ≠ some .failed ∧ after.table.status? dep ≠ some .skipped) ∧
    (∀ id, d.table.status? id = some .pending → after.table.status? id = some .ready →
      ∀ dep, p.manifest.graph.Edge dep id → after.table.status? dep = some .succeeded) ∧
    (∀ id, d.table.status? id = some .pending → after.table.status? id = some .skipped →
      (∃ dep, p.manifest.graph.Edge dep id ∧
        (after.table.status? dep = some .failed ∨ after.table.status? dep = some .skipped)) ∨
      ∃ n, p.manifest.node? id = some n ∧ ∃ c ∈ n.condition.clauses, c.Fails d.artifacts) ∧
    ∀ id, d.table.status? id ≠ some .pending → after.table.get? id = d.table.get? id := by
  intro after
  rw [← hp.graph_eq]
  -- what has become of a pending node can be read off the table at the end of the pass
  have hdecided {id : String} {s : NodeStatus} (hpending : d.table.status? id = some .pending)
      (hs : after.table.status? id = some s) :
      ∃ n, p.manifest.node? id = some n ∧ n.id = id ∧
        Decision p after.table d.artifacts n s := by
    obtain ⟨state, hstate, -⟩ := NodeTable.status?_eq_some_iff.mp hpending
    obtain ⟨n, hn⟩ := h.ledger.known hstate
    obtain ⟨t, ht, hdecision⟩ := resolvePending_decision hp now hn hpending
    cases hs.symm.trans ht
    exact ⟨n, hn, (Manifest.mem_of_node? hn).2, hdecision⟩
  refine ⟨fun id hpending => ?_, fun id hpending hready => ?_, fun id hpending hskipped => ?_,
    fun id => get?_resolvePending_of_ne_pending⟩
  · obtain ⟨hbad, dep, he, hne⟩ := waits_of_resolvePending hp h hpending
    obtain ⟨s, hs⟩ := exists_status_resolvePending hp h now (hp.source_mem_order he)
    refine ⟨⟨dep, s, he, hs, ?_⟩, hbad⟩
    obtain ⟨hfailed, hskipped⟩ := hbad dep he
    cases s with
    | succeeded => exact absurd hs hne
    | failed => exact absurd hs hfailed
    | skipped => exact absurd hs hskipped
    | _ => rfl
  · obtain ⟨n, -, rfl, hdecision⟩ := hdecided hpending hready
    cases hdecision with
    | allow cleared holds => exact cleared
  · obtain ⟨n, hn, rfl, hdecision⟩ := hdecided hpending hskipped
    cases hdecision with
    | block edge blocked => exact .inl ⟨_, edge, blocked⟩
    | decline cleared fails => exact .inr ⟨n, hn, exists_fails_of_clausesHold fails⟩

/-- A switch that is off at the gate of the first node, a node behind it, and two nodes besides. -/
def switched : Plan where
  manifest := ⟨manifestVersion, ⟨"switched", none⟩, [⟨"on", .bool, some (.bool false)⟩],
    [⟨"a", "a", "work", [], [], .empty, ⟨[⟨.param "on", .bool true⟩]⟩, .registered "work"⟩,
      ⟨"b", "b", "work", [], [], .empty, .always, .registered "work"⟩,
      ⟨"c", "c", "work", [], [], .empty, .always, .registered "work"⟩,
      ⟨"d", "d", "work", [], [], .empty, .always, .registered "work"⟩], [("a", "b"), ("c", "d")]⟩
  graph := ⟨["a", "b", "c", "d"], [("a", "b"), ("c", "d")]⟩
  order := ["c", "d", "a", "b"]
  run := "r"
  workers := 1
  resolveBody := fun _ _ => .ok ()
  location := fun _ _ => ""

def switchedOff : Drive := begin switched.manifest (Dict.empty.insert "on" (.bool false))

theorem switched_decided :
    switched.Proper ∧
    Reachable switched (fun _ _ => True) (Dict.empty.insert "on" (.bool false)) switchedOff ∧
    ["a", "b", "c", "d"].map (resolvePending switched ⟨0, 0⟩ switchedOff).table.status? =
      [some .skipped, some .skipped, some .ready, some .pending] ∧
    ∃ dep s, switched.manifest.graph.Edge dep "d" ∧
      (resolvePending switched ⟨0, 0⟩ switchedOff).table.status? dep = some s ∧
      s.isTerminal = false := by
  have hp : switched.Proper := ⟨rfl, rfl⟩
  have hreachable : Reachable switched (fun _ _ => True)
      (Dict.empty.insert "on" (.bool false)) switchedOff := .refl
  obtain ⟨hwaits, -⟩ := Reachable.decided_in_one_pass hp hreachable ⟨0, 0⟩
  exact ⟨hp, hreachable, rfl, (hwaits "d" rfl).1⟩

end Workflow.Drive
