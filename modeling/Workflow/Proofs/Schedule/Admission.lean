import Workflow.Proofs.Schedule.Loop
import Workflow.Proofs.Schedule.Values

/-!
# When bodies are started

A node leaves `Pending` for `Ready` when its predecessors have succeeded and its condition holds.
Both stay true, since a terminal node keeps its state and the store only grows, so that they are true
when the body is started.
-/
namespace Workflow.Drive
variable {p : Plan} {bodies : Bodies} {params : Dict Scalar} {d d' : Drive}

/-- A terminal node keeps its state. -/
theorem Change.get?_of_isTerminal (h : Ledger p d) (hc : Change p bodies d d') {id : String}
    {s : NodeState} (hs : d.table.get? id = some s) (hterm : s.status.isTerminal = true) :
    d'.table.get? id = some s := by
  have hother {x : String} {t : NodeStatus} (hx : d.table.status? x = some t)
      (ht : t.isTerminal = false) : id ≠ x := by
    rintro rfl
    rw [NodeTable.status?_of_get? hs] at hx
    rw [Option.some.inj hx, ht] at hterm
    cases hterm
  cases hc with
  | idle => exact hs
  | cancel => exact hs
  | abort => exact hs
  | settle node status why =>
    rw [get?_put, if_neg]
    · exact hs
    · rcases why.source_eq with rfl | rfl <;> exact hother status rfl
  | launch node status =>
    simp only [spawn, get?_put]
    rw [if_neg (hother status rfl)]
    exact hs
  | leave node entry =>
    rw [get?_put, if_neg (hother (h.status?_of_entry entry) rfl)]
    exact hs

theorem Leaves.extends {n : ManifestNode} {i : Invocation} {v : Verdict} {mark : Bool}
    {store : ArtifactStore} (h : Leaves bodies d n i v mark store) : d.artifacts.Extends store := by
  cases h with
  | succeed ends results => exact extends_storeOutputs _ _ _
  | _ => exact .refl _

/-- The store only grows. -/
theorem Change.extends (hc : Change p bodies d d') : d.artifacts.Extends d'.artifacts := by
  cases hc with
  | leave node entry invoked task_eq node_eq why => exact why.extends
  | _ => exact .refl _

theorem Cleared.change {id : String} (h : Cleared p d id) (hl : Ledger p d)
    (hc : Change p bodies d d') : Cleared p d' id := by
  intro dep he
  obtain ⟨s, hs, hst⟩ := NodeTable.status?_eq_some_iff.mp (h dep he)
  have hs' := hc.get?_of_isTerminal hl hs (by rw [hst]; rfl)
  rw [NodeTable.status?_of_get? hs', hst]

/-- The predecessors of a node that is neither pending nor skipped have succeeded, and the condition
of a node that is ready, running or done holds. -/
structure Admitted (p : Plan) (d : Drive) : Prop where
  cleared : ∀ {id n s}, p.manifest.node? id = some n → d.table.status? id = some s →
    s ≠ .pending → s ≠ .skipped → Cleared p d id
  holds : ∀ {id n s}, p.manifest.node? id = some n → d.table.status? id = some s →
    s = .ready ∨ s = .running ∨ s = .succeeded → ∀ c ∈ n.condition.clauses, c.Holds d.artifacts

theorem Settles.cleared {n : ManifestNode} {source : NodeStatus} {v : Verdict} {mark : Bool}
    (h : Settles p d n source v mark) (hsource : source = .ready → Cleared p d n.id)
    (hv : v.status ≠ .skipped) : Cleared p d n.id := by
  cases h with
  | allow active cleared holds => exact cleared
  | refuse active cleared unresolved => exact cleared
  | doom active room unprepared => exact hsource rfl
  | _ => exact absurd rfl hv

theorem Settles.holds {n : ManifestNode} {source : NodeStatus} {v : Verdict} {mark : Bool}
    (h : Settles p d n source v mark) (hv : v.status = .ready ∨ v.status = .running ∨
      v.status = .succeeded) : ∀ c ∈ n.condition.clauses, c.Holds d.artifacts := by
  cases h with
  | allow active cleared holds => exact clausesHold_eq_ok_true_iff.mp holds
  | _ => simp at hv

/-- Where the status of a node comes from. -/
theorem Change.status?_cases (hl : Ledger p d) (hc : Change p bodies d d') {id : String}
    {n : ManifestNode} {s : NodeStatus} (hn : p.manifest.node? id = some n)
    (hs : d'.table.status? id = some s) :
    d.table.status? id = some s ∨
    (∃ source v mark, d.table.status? id = some source ∧ Settles p d n source v mark ∧
      s = v.status) ∨
    d.table.status? id = some .ready ∨ d.table.status? id = some .running := by
  cases hc with
  | settle node status why =>
    rw [status?_put] at hs
    split_ifs at hs with he
    · subst he
      cases node.symm.trans hn
      exact .inr (.inl ⟨_, _, _, status, why, (Option.some.inj hs).symm⟩)
    · exact .inl hs
  | launch node status =>
    simp only [spawn, status?_put] at hs
    split_ifs at hs with he
    · exact .inr (.inr (.inl (he ▸ status)))
    · exact .inl hs
  | leave node entry =>
    rw [status?_put] at hs
    split_ifs at hs with he
    · exact .inr (.inr (.inr (he ▸ hl.status?_of_entry entry)))
    · exact .inl hs
  | _ => exact .inl hs

/-- A node that is not running has its state from before, or is settled, or has left. -/
theorem Change.get?_cases (hc : Change p bodies d d') {id : String} {n : ManifestNode}
    {s : NodeState} (hn : p.manifest.node? id = some n) (hs : d'.table.get? id = some s)
    (hne : s.status ≠ .running) :
    d.table.get? id = some s ∨
    (∃ source, d.table.status? id = some source ∧ Settles p d n source s.verdict s.cancelled) ∨
    ∃ i ∈ d.invocations, i.context.node = id ∧
      ∃ store, Leaves bodies d n i s.verdict s.cancelled store := by
  cases hc with
  | settle node status why =>
    rw [get?_put] at hs
    split_ifs at hs with he
    · subst he
      cases hs
      cases node.symm.trans hn
      exact .inr (.inl ⟨_, status, why⟩)
    · exact .inl hs
  -- a node that has just been launched runs, which `hne` excludes
  | launch node status active room prepared verdict =>
    simp only [spawn, get?_put] at hs
    split_ifs at hs with he
    · cases hs
      exact absurd (congrArg Verdict.status verdict) hne
    · exact .inl hs
  | leave node entry invoked task_eq node_eq why =>
    rw [get?_put] at hs
    split_ifs at hs with he
    · subst he
      cases hs
      cases node.symm.trans hn
      exact .inr (.inr ⟨_, invoked, node_eq, _, why⟩)
    · exact .inl hs
  | _ => exact .inl hs

/-- A node that has succeeded has done so before, or its body has just ended. -/
theorem Change.get?_of_succeeded (hc : Change p bodies d d') {id : String} {n : ManifestNode}
    {s : NodeState} (hn : p.manifest.node? id = some n) (hs : d'.table.get? id = some s)
    (hst : s.status = .succeeded) :
    d.table.get? id = some s ∨
    ∃ i ∈ d.invocations, i.context.node = id ∧
      ∃ store, Leaves bodies d n i s.verdict s.cancelled store := by
  rcases hc.get?_cases hn hs (by simp [hst]) with hs | ⟨source, -, why⟩ | hleft
  · exact .inl hs
  · obtain ⟨htarget, -⟩ := why.target
    simp [NodeState.verdict, hst] at htarget
  · exact .inr hleft

theorem Admitted.change (h : Admitted p d) (hl : Ledger p d) (hc : Change p bodies d d') :
    Admitted p d' where
  cleared {id n s} hn hs hp hk := by
    suffices hbefore : Cleared p d id from hbefore.change hl hc
    rcases hc.status?_cases hl hn hs with hs | ⟨source, v, mark, hsource, why, rfl⟩ | hs | hs
    · exact h.cleared hn hs hp hk
    · obtain ⟨-, rfl⟩ := Manifest.mem_of_node? hn
      exact why.cleared (fun hr => h.cleared hn (hr ▸ hsource) (by decide) (by decide)) hk
    · exact h.cleared hn hs (by decide) (by decide)
    · exact h.cleared hn hs (by decide) (by decide)
  holds {id n s} hn hs hone c hm := by
    suffices hbefore : ∀ c ∈ n.condition.clauses, c.Holds d.artifacts from
      (hbefore c hm).mono hc.extends
    rcases hc.status?_cases hl hn hs with hs | ⟨source, v, mark, hsource, why, rfl⟩ | hs | hs
    · exact h.holds hn hs hone
    · exact why.holds hone
    · exact h.holds hn hs (.inl rfl)
    · exact h.holds hn hs (.inr (.inl rfl))

theorem Reachable.admitted (h : Reachable p bodies params d) : Admitted p d := by
  refine h.induct ?_ fun hr ha hc => ha.change hr.ledger hc
  constructor
  · intro id n s hn hs hp
    exact absurd (status_eq_pending_of_begin hs) hp
  · intro id n s hn hs hone
    rw [status_eq_pending_of_begin hs] at hone
    simp at hone

/-- What a step adds to the log of invocations is the body of a node that was ready. -/
theorem Change.ready_of_new (hc : Change p bodies d d') {i : Invocation} (hi : i ∈ d'.invocations)
    (hnew : i ∉ d.invocations) :
    ∃ n, p.manifest.node? i.context.node = some n ∧ i.body = n.body ∧
      d.table.status? i.context.node = some .ready := by
  cases hc with
  | launch node status =>
    rcases List.mem_cons.mp hi with rfl | hi
    · obtain ⟨-, rfl⟩ := Manifest.mem_of_node? node
      exact ⟨_, node, rfl, status⟩
    · exact absurd hi hnew
  | _ => exact absurd hi hnew

/-- At every point of a run each node has been started at most once; whatever step starts a node next
finds its predecessors succeeded and the clauses of its condition true of the stored values; the nodes
that the table calls running are the values of the map of running nodes, one for each task that has
not been joined, and there are no more of them than workers. -/
theorem Reachable.started_once_when_admitted (hp : p.Proper)
    (h : Reachable p bodies params d) :
    d.invocations.length = d.spawned ∧ (d.invocations.map (·.context.node)).Nodup ∧
    (∀ d' i, Step p bodies d d' → i ∈ d'.invocations → i ∉ d.invocations →
      ∃ n, p.manifest.node? i.context.node = some n ∧ i.body = n.body ∧
        (∀ dep, p.manifest.graph.Edge dep i.context.node →
          d.table.status? dep = some .succeeded) ∧
        ∀ c ∈ n.condition.clauses, c.Holds d.artifacts) ∧
    (∀ id, d.table.status? id = some .running ↔ id ∈ d.running.map (·.2)) ∧
    (d.running.map (·.2)).Nodup ∧ d.running.map (·.1) = d.tasks ∧ d.tasks.Nodup ∧
    d.tasks.length ≤ p.workers := by
  have hl := h.ledger
  refine ⟨hl.counted, hl.invocation_nodes_nodup, ?_, fun id => hl.running_iff, hl.nodes_nodup,
    hl.tasks_eq, hl.tasks_nodup, hl.room⟩
  intro d' i hs hi hnew
  obtain ⟨n, hn, hbody, hready⟩ := (hs.change hl).ready_of_new hi hnew
  refine ⟨n, hn, hbody, ?_, h.admitted.holds hn hready (.inl rfl)⟩
  intro dep he
  exact h.admitted.cleared hn hready (by decide) (by decide) dep (hp.graph_eq ▸ he)

/-- Two nodes, of which the second waits for the first. -/
def relay : Plan where
  manifest := ⟨manifestVersion, ⟨"relay", none⟩, [],
    [⟨"a", "a", "work", [], [], .empty, .always, .registered "work"⟩,
      ⟨"b", "b", "work", [], [], .empty, .always, .registered "work"⟩], [("a", "b")]⟩
  graph := ⟨["a", "b"], [("a", "b")]⟩
  order := ["a", "b"]
  run := "r"
  workers := 1
  resolveBody := fun _ _ => .ok ()
  location := fun _ _ => ""

/-- The relay while its first node runs. -/
def relayStarted : Drive :=
  startNode relay ⟨0, 0⟩ (resolveNode relay ⟨0, 0⟩ (begin relay.manifest .empty) "a") "a"

/-- The relay when its first node has ended and the second one is ready. -/
def relayed : Drive :=
  resolveNode relay ⟨2, 0⟩ (relayStarted.finish relay ⟨1, 0⟩ 0 (.ended (.returned .empty))) "b"

theorem relayed_reachable : Reachable relay (fun _ _ => True) .empty relayed := by
  have hresolved : Reachable relay (fun _ _ => True) .empty
      (resolveNode relay ⟨0, 0⟩ (begin relay.manifest .empty) "a") :=
    .single (.resolve _ (by decide) rfl)
  have hstarted : Reachable relay (fun _ _ => True) .empty relayStarted :=
    hresolved.tail (.start _ (by decide) rfl)
  have hentry : (0, "a") ∈ relayStarted.running := by decide
  obtain ⟨i, hi, hit, -⟩ := hstarted.ledger.invoked hentry
  exact (hstarted.tail (.finish _ (by decide) hi hit trivial)).tail (.resolve _ (by decide) rfl)

theorem relayed_started_once :
    relay.Proper ∧ Reachable relay (fun _ _ => True) .empty relayed ∧
    (relayed.invocations.map (·.context.node)).Nodup ∧
    relayed.table.status? "a" = some .succeeded ∧ relayed.table.status? "b" = some .ready := by
  have hp : relay.Proper := ⟨rfl, rfl⟩
  obtain ⟨-, honce, -⟩ := Reachable.started_once_when_admitted hp relayed_reachable
  exact ⟨hp, relayed_reachable, honce, rfl, rfl⟩

end Workflow.Drive
