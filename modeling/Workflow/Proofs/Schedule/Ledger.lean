import Mathlib.Data.List.Perm.Subperm
import Workflow.Proofs.Manifest.Basic
import Workflow.Proofs.Schedule.Step

/-!
# The books of a drive

Four structures tell which bodies run: the node table, the set of tasks, the map of running nodes
and the log of invocations. `Ledger` says how they agree. While they do, a step can only do one of few
things, which `Change` lists with all that is known when it is done.
-/
namespace Workflow

namespace Drive
variable {p : Plan} {bodies : Bodies} {d d' : Drive}

/-- All predecessors of a node have succeeded. -/
def Cleared (p : Plan) (d : Drive) (id : String) : Prop :=
  ∀ dep, p.graph.Edge dep id → d.table.status? dep = some .succeeded

/-- Node table, tasks, running nodes and invocations agree. -/
structure Ledger (p : Plan) (d : Drive) : Prop where
  known : ∀ {id s}, d.table.get? id = some s → ∃ n, p.manifest.node? id = some n
  unfinished : ∀ {id s}, d.table.get? id = some s → s.status ≠ .succeeded → s.outputs = Dict.empty
  marked : ∀ {id s}, d.table.get? id = some s → s.cancelled = true →
    s.status = .skipped ∧ d.cancelling = true
  aborted : d.aborted = true → d.cancelling = true
  tasks_eq : d.running.map (·.1) = d.tasks
  tasks_nodup : d.tasks.Nodup
  nodes_nodup : (d.running.map (·.2)).Nodup
  running_iff : ∀ {id}, d.table.status? id = some .running ↔ id ∈ d.running.map (·.2)
  room : d.tasks.length ≤ p.workers
  invoked : ∀ {r}, r ∈ d.running → ∃ i ∈ d.invocations, i.task = r.1 ∧ i.context.node = r.2
  counted : d.invocations.length = d.spawned
  invocation_lt : ∀ {i}, i ∈ d.invocations → i.task < d.spawned
  invocations_nodup : (d.invocations.map (·.task)).Nodup
  invocation_nodes_nodup : (d.invocations.map (·.context.node)).Nodup
  started : ∀ {i}, i ∈ d.invocations → ∃ s, d.table.status? i.context.node = some s ∧
    s ≠ .pending ∧ s ≠ .ready

/-- Why a node that has not started moves on without being started: from which status, to which
verdict, and whether it is marked as cancelled. -/
inductive Settles (p : Plan) (d : Drive) (n : ManifestNode) : NodeStatus → Verdict → Bool → Prop
  | block {dep : String} (active : d.cancelling = false) (edge : p.graph.Edge dep n.id)
      (blocked : d.table.status? dep = some .failed ∨ d.table.status? dep = some .skipped) :
      Settles p d n .pending ⟨.skipped, .empty⟩ false
  | allow (active : d.cancelling = false) (cleared : Cleared p d n.id)
      (holds : clausesHold d.artifacts n.condition.clauses = .ok true) :
      Settles p d n .pending ⟨.ready, .empty⟩ false
  | decline (active : d.cancelling = false) (cleared : Cleared p d n.id)
      (fails : clausesHold d.artifacts n.condition.clauses = .ok false) :
      Settles p d n .pending ⟨.skipped, .empty⟩ false
  | refuse {fault : NodeFault} (active : d.cancelling = false) (cleared : Cleared p d n.id)
      (unresolved : clausesHold d.artifacts n.condition.clauses = .error fault) :
      Settles p d n .pending ⟨.failed, .empty⟩ false
  | doom {fault : NodeFault} (active : d.cancelling = false) (room : d.tasks.length < p.workers)
      (unprepared : prepare p n d.artifacts = .error fault) :
      Settles p d n .ready ⟨.failed, .empty⟩ false
  | drop {source : NodeStatus} (cancelling : d.cancelling = true)
      (unstarted : source = .pending ∨ source = .ready) :
      Settles p d n source ⟨.skipped, .empty⟩ true

/-- Why a running node ends: its verdict, whether it is marked as cancelled, and the values that are
stored then. -/
inductive Leaves (bodies : Bodies) (d : Drive) (n : ManifestNode) (i : Invocation) :
    Verdict → Bool → ArtifactStore → Prop
  | abandon (aborted : d.aborted = true) : Leaves bodies d n i ⟨.skipped, .empty⟩ true d.artifacts
  | fail {ending : Ending} {fault : NodeFault} (ends : bodies i ending)
      (results : n.results ending = .error fault) :
      Leaves bodies d n i ⟨.failed, .empty⟩ false d.artifacts
  | succeed {ending : Ending} {values : Dict Value} (ends : bodies i ending)
      (results : n.results ending = .ok values) :
      Leaves bodies d n i ⟨.succeeded, values⟩ false (storeOutputs n.outputs values d.artifacts)

/-- What a step can make of a drive whose books agree. -/
inductive Change (p : Plan) (bodies : Bodies) (d : Drive) : Drive → Prop
  | idle : Change p bodies d d
  | cancel : Change p bodies d { d with cancelling := true }
  | abort (cancelling : d.cancelling = true) : Change p bodies d d.abort
  | settle {id : String} {n : ManifestNode} {source : NodeStatus} {s : NodeState}
      (node : p.manifest.node? id = some n) (status : d.table.status? id = some source)
      (why : Settles p d n source s.verdict s.cancelled) : Change p bodies d (d.put id s)
  | launch {id : String} {n : ManifestNode} {inputs : Dict Value} {s : NodeState}
      (node : p.manifest.node? id = some n) (status : d.table.status? id = some .ready)
      (active : d.cancelling = false) (room : d.tasks.length < p.workers)
      (prepared : prepare p n d.artifacts = .ok inputs)
      (verdict : s.verdict = ⟨.running, .empty⟩) (unmarked : s.cancelled = false) :
      Change p bodies d ((d.put id s).spawn id n.body (contextOf p n inputs))
  | leave {task : Nat} {id : String} {n : ManifestNode} {i : Invocation} {s : NodeState}
      {store : ArtifactStore} (node : p.manifest.node? id = some n)
      (entry : (task, id) ∈ d.running) (invoked : i ∈ d.invocations) (task_eq : i.task = task)
      (node_eq : i.context.node = id) (why : Leaves bodies d n i s.verdict s.cancelled store) :
      Change p bodies d ((d.close task store).put id s)

/-! ## What a step can do -/

/-- A node that is not terminal has no outputs and is not marked as cancelled. -/
theorem Ledger.blank (h : Ledger p d) {id : String} {s : NodeState}
    (hs : d.table.get? id = some s) {status : NodeStatus} (hst : s.status = status)
    (hopen : status.isTerminal = false) : s.outputs = Dict.empty ∧ s.cancelled = false := by
  subst hst
  constructor
  · refine h.unfinished hs fun he => ?_
    rw [he] at hopen
    cases hopen
  · by_contra hc
    rw [(h.marked hs (by simpa using hc)).1] at hopen
    cases hopen

theorem change_resolveNode (h : Ledger p d) (now : Instant) (id : String)
    (active : d.cancelling = false) : Change p bodies d (resolveNode p now d id) := by
  unfold resolveNode
  split_ifs with hp
  · exact .idle
  obtain ⟨s, hs, hst⟩ := NodeTable.status?_eq_some_iff.mp (not_not.mp hp)
  obtain ⟨n, hn⟩ := h.known hs
  obtain ⟨-, rfl⟩ := Manifest.mem_of_node? hn
  obtain ⟨hout, hmark⟩ := h.blank hs hst rfl
  simp only [hn, move_of_get? hs hst]
  -- a predecessor is open, one has failed or was skipped, or the condition decides
  split
  · exact .idle
  · rename_i reason hr
    obtain ⟨dep, hdep, hbad⟩ := failed_or_skipped_of_blocked hr
    refine .settle hn (not_not.mp hp) ?_
    simpa [hout, hmark] using
      Settles.block active (TaskGraph.mem_dependencies.mp hdep) hbad
  · rename_i hr
    have hclear : Cleared p d n.id := fun dep he =>
      (readiness_eq_clear.mp hr).2 dep (TaskGraph.mem_dependencies.mpr he)
    split
    · rename_i hholds
      refine .settle hn (not_not.mp hp) ?_
      change Settles p d n _ (NodeTable.stamp s .ready now).verdict
        (NodeTable.stamp s _ now).cancelled
      simpa [hout, hmark] using Settles.allow active hclear hholds
    · rename_i hfails
      refine .settle hn (not_not.mp hp) ?_
      simpa [hout, hmark] using Settles.decline active hclear hfails
    · rename_i fault hfault
      refine .settle hn (not_not.mp hp) ?_
      simpa [hout, hmark] using Settles.refuse active hclear hfault

theorem change_startNode (h : Ledger p d) (now : Instant) (id : String)
    (active : d.cancelling = false) : Change p bodies d (startNode p now d id) := by
  unfold startNode
  split_ifs with hp
  · exact .idle
  simp only [Bool.or_eq_true, decide_eq_true_eq, not_or, Nat.not_le, ne_eq, not_not] at hp
  obtain ⟨hroom, hready⟩ := hp
  obtain ⟨s, hs, hst⟩ := NodeTable.status?_eq_some_iff.mp hready
  obtain ⟨n, hn⟩ := h.known hs
  obtain ⟨hout, hmark⟩ := h.blank hs hst rfl
  simp only [hn, move?_of_get? hs hst, move_of_get? hs hst]
  split
  · rename_i fault hfault
    refine .settle hn hready ?_
    simpa [hout, hmark] using Settles.doom active hroom hfault
  · rename_i inputs hinputs
    refine .launch hn hready active hroom hinputs ?_ ?_
    · simp [hout]
    · simp [hmark]

theorem change_skipNode (h : Ledger p d) (now : Instant) (id : String)
    (cancelling : d.cancelling = true) : Change p bodies d (skipNode now d id) := by
  unfold skipNode
  by_cases hp : d.table.status? id = some .pending
  · obtain ⟨s, hs, hst⟩ := NodeTable.status?_eq_some_iff.mp hp
    obtain ⟨n, hn⟩ := h.known hs
    rw [move_of_get? hs hst, move_of_ne]
    · refine .settle hn hp ?_
      simpa [(h.blank hs hst rfl).1] using Settles.drop cancelling (.inl rfl)
    · simp [status?_put]
  · rw [move_of_ne hp]
    by_cases hr : d.table.status? id = some .ready
    · obtain ⟨s, hs, hst⟩ := NodeTable.status?_eq_some_iff.mp hr
      obtain ⟨n, hn⟩ := h.known hs
      rw [move_of_get? hs hst]
      refine .settle hn hr ?_
      simpa [(h.blank hs hst rfl).1] using Settles.drop cancelling (.inr rfl)
    · rw [move_of_ne hr]
      exact .idle

/-- The task of an invocation that has not been joined is the one that runs the node of the
invocation. -/
theorem Ledger.entry (h : Ledger p d) {i : Invocation} (hi : i ∈ d.invocations)
    (ht : i.task ∈ d.tasks) : (i.task, i.context.node) ∈ d.running := by
  rw [← h.tasks_eq] at ht
  obtain ⟨r, hr, hrt⟩ := List.mem_map.mp ht
  obtain ⟨j, hj, hjt, hjn⟩ := h.invoked hr
  have hij : i = j :=
    List.inj_on_of_nodup_map h.invocations_nodup hi hj (by rw [hjt, hrt])
  subst hij
  rwa [hjt, hjn]

theorem Ledger.status?_of_entry (h : Ledger p d) {task : Nat} {id : String}
    (hentry : (task, id) ∈ d.running) : d.table.status? id = some .running :=
  h.running_iff.mpr (List.mem_map.mpr ⟨_, hentry, rfl⟩)

theorem change_finish (h : Ledger p d) (now : Instant) {task : Nat} {joined : Joined}
    {i : Invocation} (member : task ∈ d.tasks) (invoked : i ∈ d.invocations)
    (same : i.task = task) (why : joined = .aborted ∧ d.aborted = true ∨
      ∃ ending, joined = .ended ending ∧ bodies i ending) :
    Change p bodies d (d.finish p now task joined) := by
  subst same
  have hentry := h.entry invoked member
  have hlookup : d.running.lookup i.task = some i.context.node :=
    Dict.lookup_eq_some_of_mem (h.tasks_eq ▸ h.tasks_nodup) hentry
  obtain ⟨s, hs, hst⟩ := NodeTable.status?_eq_some_iff.mp (h.status?_of_entry hentry)
  obtain ⟨n, hn⟩ := h.known hs
  obtain ⟨hout, hmark⟩ := h.blank hs hst rfl
  have hmove (store : ArtifactStore) (target : NodeStatus) (details : NodeState → NodeState) :
      (d.close i.task store).move i.context.node .running target now details =
        (d.close i.task store).put i.context.node (details (NodeTable.stamp s target now)) :=
    move_of_get? (d := d.close i.task store) hs hst target now details
  have hjoin : d.join i.task = d.close i.task d.artifacts := rfl
  unfold finish
  simp only [hlookup]
  -- a task that was stopped is abandoned; otherwise the node makes of the ending what it can
  rcases why with ⟨rfl, habort⟩ | ⟨ending, rfl, hends⟩
  · have hleaves : Leaves bodies d n i _ _ d.artifacts := .abandon habort
    simp only [hjoin, hmove]
    exact .leave hn hentry invoked rfl rfl (by simpa [hout] using hleaves)
  · simp only [hn]
    split
    · rename_i fault hfault
      have hleaves : Leaves bodies d n i _ _ d.artifacts := .fail hends hfault
      simp only [hjoin, hmove]
      exact .leave hn hentry invoked rfl rfl (by simpa [hout, hmark] using hleaves)
    · rename_i values hvalues
      have hleaves : Leaves bodies d n i _ _ _ := .succeed hends hvalues
      change Change p bodies d
        ((d.close i.task (storeOutputs n.outputs values d.artifacts)).move _ _ _ _ _)
      rw [hmove]
      refine .leave hn hentry invoked rfl rfl ?_
      change Leaves bodies d n i ⟨(NodeTable.stamp s .succeeded now).status, values⟩
        (NodeTable.stamp s _ now).cancelled _
      simpa [hmark] using hleaves

theorem Step.change (h : Ledger p d) (hs : Step p bodies d d') : Change p bodies d d' := by
  cases hs with
  | resolve now member active => exact change_resolveNode h now _ active
  | start now member active => exact change_startNode h now _ active
  | cancel => exact .cancel
  | skip now member cancelling => exact change_skipNode h now _ cancelling
  | finish now member invoked same ends =>
    exact change_finish h now member invoked same (.inr ⟨_, rfl, ends⟩)
  | abandon now member aborted =>
    obtain ⟨r, hr, rfl⟩ := List.mem_map.mp (h.tasks_eq ▸ member)
    obtain ⟨i, hi, hit, -⟩ := h.invoked hr
    exact change_finish h now member hi hit (.inl ⟨rfl, aborted⟩)
  | abort cancelling => exact .abort cancelling

/-! ## Every step keeps the books -/

section
variable {n : ManifestNode} {i : Invocation} {source : NodeStatus} {v : Verdict} {mark : Bool}
  {store : ArtifactStore}

theorem Settles.source_eq (h : Settles p d n source v mark) :
    source = .pending ∨ source = .ready := by
  cases h with
  | doom => exact .inr rfl
  | drop _ unstarted => exact unstarted
  | _ => exact .inl rfl

theorem Settles.target (h : Settles p d n source v mark) :
    (v.status = .ready ∨ v.status = .failed ∨ v.status = .skipped) ∧ v.outputs = .empty := by
  cases h <;> simp

theorem Settles.mark_eq (h : Settles p d n source v mark) (hm : mark = true) :
    v.status = .skipped ∧ d.cancelling = true := by
  cases h <;> simp_all

theorem Leaves.target (h : Leaves bodies d n i v mark store) :
    v.status.isTerminal = true ∧ (v.status ≠ .succeeded → v.outputs = .empty) := by
  cases h <;> simp [NodeStatus.isTerminal]

theorem Leaves.mark_eq (h : Leaves bodies d n i v mark store) (hm : mark = true) :
    v.status = .skipped ∧ d.aborted = true := by
  cases h <;> simp_all

end

/-- What the ledger says of single states, after one of them has been replaced. -/
theorem Ledger.get?_put (h : Ledger p d) {id : String} {n : ManifestNode} {s : NodeState}
    (node : p.manifest.node? id = some n) (hempty : s.status ≠ .succeeded → s.outputs = .empty)
    (hmark : s.cancelled = true → s.status = .skipped ∧ d.cancelling = true) {x : String}
    {t : NodeState} (hx : (d.put id s).table.get? x = some t) :
    (∃ n, p.manifest.node? x = some n) ∧ (t.status ≠ .succeeded → t.outputs = .empty) ∧
      (t.cancelled = true → t.status = .skipped ∧ d.cancelling = true) := by
  rw [Drive.get?_put] at hx
  split_ifs at hx with he
  · cases hx
    exact ⟨⟨n, he ▸ node⟩, hempty, hmark⟩
  · exact ⟨h.known hx, h.unfinished hx, h.marked hx⟩

/-- A ready node has no task, and its body has not been started. -/
theorem Ledger.fresh_of_ready (h : Ledger p d) {id : String}
    (status : d.table.status? id = some .ready) :
    id ∉ d.running.map (·.2) ∧ ∀ i ∈ d.invocations, i.context.node ≠ id := by
  constructor
  · rw [← h.running_iff, status]
    simp
  · intro i hi he
    obtain ⟨t, ht, -, hne⟩ := h.started hi
    rw [he, status] at ht
    exact hne (Option.some.inj ht).symm

/-- The next task has a number of its own. -/
theorem Ledger.spawned_notMem (h : Ledger p d) :
    d.spawned ∉ d.tasks ∧ d.spawned ∉ d.invocations.map (·.task) := by
  have hnew : d.spawned ∉ d.invocations.map (·.task) := by
    intro hm
    obtain ⟨i, hi, hit⟩ := List.mem_map.mp hm
    exact absurd (h.invocation_lt hi) (by omega)
  refine ⟨fun hm => hnew ?_, hnew⟩
  obtain ⟨r, hr, hrt⟩ := List.mem_map.mp (h.tasks_eq ▸ hm)
  obtain ⟨i, hi, hit, -⟩ := h.invoked hr
  exact List.mem_map.mpr ⟨i, hi, hit.trans hrt⟩

/-- With its task a node leaves the map of running nodes. -/
theorem Ledger.mem_nodes_close (h : Ledger p d) {task : Nat} {id : String} (store : ArtifactStore)
    (entry : (task, id) ∈ d.running) {x : String} :
    x ∈ (d.close task store).running.map (·.2) ↔ x ∈ d.running.map (·.2) ∧ x ≠ id := by
  have hkeys : (d.running.map (·.1)).Nodup := h.tasks_eq ▸ h.tasks_nodup
  -- tasks and nodes occur once each, so that a task and its node tell each other
  simp only [close, join, List.mem_map, List.mem_filter, decide_eq_true_eq, ne_eq]
  constructor
  · rintro ⟨r, ⟨hr, hne⟩, rfl⟩
    refine ⟨⟨r, hr, rfl⟩, fun he => hne ?_⟩
    exact congrArg Prod.fst (List.inj_on_of_nodup_map h.nodes_nodup hr entry he)
  · rintro ⟨⟨r, hr, rfl⟩, hne⟩
    refine ⟨r, ⟨hr, fun he => hne ?_⟩, rfl⟩
    exact congrArg Prod.snd (List.inj_on_of_nodup_map hkeys hr entry he)

theorem Ledger.settle (h : Ledger p d) {id : String} {n : ManifestNode} {source : NodeStatus}
    {s : NodeState} (node : p.manifest.node? id = some n)
    (status : d.table.status? id = some source)
    (why : Settles p d n source s.verdict s.cancelled) : Ledger p (d.put id s) := by
  obtain ⟨htarget, hempty⟩ := why.target
  simp only [NodeState.verdict] at htarget hempty
  have hsource := why.source_eq
  have htable {x t} (hx : (d.put id s).table.get? x = some t) :=
    h.get?_put node (fun _ => hempty) why.mark_eq hx
  refine { h with
    known := fun hx => (htable hx).1, unfinished := fun hx => (htable hx).2.1,
    marked := fun hx => (htable hx).2.2, running_iff := ?_, started := ?_ }
  · intro x
    by_cases hx : x = id
    · subst hx
      have hold : x ∉ d.running.map (·.2) := by
        rw [← h.running_iff, status]
        rcases hsource with rfl | rfl <;> simp
      rw [status?_put, if_pos rfl, put_running]
      rcases htarget with ht | ht | ht <;> simp [ht, hold]
    · rw [status?_put, if_neg hx]
      exact h.running_iff
  · intro i hi
    obtain ⟨t, ht, hne⟩ := h.started hi
    refine ⟨t, ?_, hne⟩
    rw [status?_put, if_neg]
    · exact ht
    · intro he
      rw [he, status] at ht
      cases ht
      rcases hsource with rfl | rfl
      · exact hne.1 rfl
      · exact hne.2 rfl

theorem Ledger.launch (h : Ledger p d) {id : String} {n : ManifestNode} {inputs : Dict Value}
    {s : NodeState} (node : p.manifest.node? id = some n)
    (status : d.table.status? id = some .ready) (room : d.tasks.length < p.workers)
    (verdict : s.verdict = ⟨.running, .empty⟩) (unmarked : s.cancelled = false) :
    Ledger p ((d.put id s).spawn id n.body (contextOf p n inputs)) := by
  obtain ⟨-, hid⟩ := Manifest.mem_of_node? node
  obtain ⟨hst, hout⟩ := Verdict.mk.inj verdict
  obtain ⟨hfresh, hnumber⟩ := h.spawned_notMem
  obtain ⟨hidle, hnew⟩ := h.fresh_of_ready status
  have htable {x t} (hx : (d.put id s).table.get? x = some t) :=
    h.get?_put node (fun _ => hout) (by simp [unmarked]) hx
  -- a launch adds a task, the node for which it runs, and an invocation
  refine { h with
    known := fun hx => (htable hx).1, unfinished := fun hx => (htable hx).2.1,
    marked := fun hx => (htable hx).2.2, tasks_eq := ?_, tasks_nodup := ?_,
    nodes_nodup := ?_, running_iff := ?_, room := ?_, invoked := ?_, counted := ?_,
    invocation_lt := ?_, invocations_nodup := List.nodup_cons.mpr ⟨hnumber, h.invocations_nodup⟩,
    invocation_nodes_nodup := ?_, started := ?_ }
  · simp [spawn, h.tasks_eq]
  · simpa only [spawn, put_tasks, put_spawned, ← List.concat_eq_append] using
      h.tasks_nodup.concat hfresh
  · have hnodes := h.nodes_nodup.concat hidle
    rw [List.concat_eq_append] at hnodes
    simpa only [spawn, put_running, List.map_append, List.map_cons, List.map_nil] using hnodes
  · intro x
    simp only [spawn, status?_put, put_running, List.map_append, List.mem_append, List.map_cons,
      List.map_nil, List.mem_singleton]
    by_cases hx : x = id
    · simp [hx, hst]
    · simp [hx, h.running_iff]
  · simpa [spawn] using Nat.succ_le_of_lt room
  · intro r hr
    simp only [spawn, put_running, put_spawned, List.mem_append, List.mem_singleton] at hr
    rcases hr with hr | rfl
    · obtain ⟨i, hi, hit, hin⟩ := h.invoked hr
      exact ⟨i, List.mem_cons_of_mem _ hi, hit, hin⟩
    · exact ⟨_, List.mem_cons_self, rfl, hid⟩
  · simp [spawn, h.counted]
  · intro i hi
    rcases List.mem_cons.mp hi with rfl | hi
    · exact Nat.lt_succ_self _
    · exact Nat.lt_succ_of_lt (h.invocation_lt hi)
  · refine List.nodup_cons.mpr ⟨?_, h.invocation_nodes_nodup⟩
    intro hm
    obtain ⟨i, hi, hin⟩ := List.mem_map.mp hm
    exact hnew i hi (hin.trans hid)
  · intro i hi
    simp only [spawn, status?_put]
    rcases List.mem_cons.mp hi with rfl | hi
    · exact ⟨.running, by simp [contextOf, hid, hst]⟩
    · rw [if_neg (hnew i hi)]
      exact h.started hi

theorem Ledger.leave (h : Ledger p d) {task : Nat} {id : String} {n : ManifestNode}
    {i : Invocation} {s : NodeState} {store : ArtifactStore} (node : p.manifest.node? id = some n)
    (entry : (task, id) ∈ d.running) (why : Leaves bodies d n i s.verdict s.cancelled store) :
    Ledger p ((d.close task store).put id s) := by
  obtain ⟨hterm, hempty⟩ := why.target
  simp only [NodeState.verdict] at hterm hempty
  have htable {x t} (hx : (d.put id s).table.get? x = some t) :=
    h.get?_put node hempty (fun hm => ⟨(why.mark_eq hm).1, h.aborted (why.mark_eq hm).2⟩) hx
  -- the task goes together with its entry in the map; the log of invocations stays
  refine { h with
    known := fun hx => (htable hx).1, unfinished := fun hx => (htable hx).2.1,
    marked := fun hx => (htable hx).2.2, tasks_eq := ?_, tasks_nodup := h.tasks_nodup.erase task,
    nodes_nodup := (List.filter_sublist.map _).nodup h.nodes_nodup, running_iff := ?_,
    room := Nat.le_trans List.length_erase_le h.room,
    invoked := fun hr => h.invoked (List.mem_filter.mp hr).1, started := ?_ }
  · change (d.running.filter fun r => r.1 ≠ task).map (·.1) = d.tasks.erase task
    rw [h.tasks_nodup.erase_eq_filter, ← h.tasks_eq, List.filter_map]
    congr 2
    funext r
    by_cases he : r.1 = task <;> simp [he]
  · intro x
    rw [put_running, h.mem_nodes_close store entry, status?_put]
    split_ifs with hx
    · subst hx
      constructor
      · intro he
        rw [Option.some.inj he] at hterm
        cases hterm
      · exact fun he => absurd rfl he.2
    · exact ⟨fun ht => ⟨h.running_iff.mp ht, hx⟩, fun ht => h.running_iff.mpr ht.1⟩
  · intro j hj
    by_cases hx : j.context.node = id
    · refine ⟨s.status, by simp [status?_put, hx], ?_, ?_⟩ <;> intro he <;>
        rw [he] at hterm <;> cases hterm
    · rw [status?_put, if_neg hx]
      exact h.started hj

theorem Ledger.change (h : Ledger p d) (hc : Change p bodies d d') : Ledger p d' := by
  cases hc with
  | idle => exact h
  | cancel =>
    exact { h with marked := fun hs hm => ⟨(h.marked hs hm).1, rfl⟩, aborted := fun _ => rfl }
  | abort cancelling => exact { h with aborted := fun _ => cancelling }
  | settle node status why => exact h.settle node status why
  | launch node status active room prepared verdict unmarked =>
    exact h.launch node status room verdict unmarked
  | leave node entry invoked task_eq node_eq why => exact h.leave node entry why

/-! ## The books are in order from the beginning on -/

theorem get?_begin {m : Manifest} {params : Dict Scalar} {id : String} :
    (begin m params).table.get? id =
      if id ∈ m.nodes.map (·.id) then some NodeState.pending else none :=
  Dict.get?_ofList_const _ _ _

theorem eq_pending_of_begin {m : Manifest} {params : Dict Scalar} {id : String} {s : NodeState}
    (h : (begin m params).table.get? id = some s) : s = .pending := by
  rw [get?_begin] at h
  split_ifs at h
  exact (Option.some.inj h).symm

theorem status_eq_pending_of_begin {m : Manifest} {params : Dict Scalar} {id : String}
    {s : NodeStatus} (h : (begin m params).table.status? id = some s) : s = .pending := by
  obtain ⟨n, hn, rfl⟩ := NodeTable.status?_eq_some_iff.mp h
  rw [eq_pending_of_begin hn]
  rfl

theorem ledger_begin (params : Dict Scalar) : Ledger p (begin p.manifest params) := by
  constructor
  case known =>
    intro id s hs
    rw [get?_begin] at hs
    split_ifs at hs with hm
    exact Manifest.exists_node? hm
  case unfinished =>
    intro id s hs _
    rw [eq_pending_of_begin hs]
    rfl
  case marked =>
    intro id s hs hm
    rw [eq_pending_of_begin hs] at hm
    cases hm
  case running_iff =>
    intro id
    constructor
    · intro hr
      cases status_eq_pending_of_begin hr
    · intro hr
      cases hr
  all_goals simp [begin, start]

theorem Reachable.ledger {params : Dict Scalar} (h : Reachable p bodies params d) : Ledger p d := by
  refine h.invariant (ledger_begin params) ?_
  intro d d' _ hl hs
  exact hl.change (hs.change hl)

/-- No more bodies have been started than there are nodes. -/
theorem Ledger.length_invocations_le (h : Ledger p d) :
    d.invocations.length ≤ p.manifest.nodes.length := by
  have hsub : d.invocations.map (·.context.node) ⊆ p.manifest.nodes.map (·.id) := by
    intro id hid
    obtain ⟨i, hi, rfl⟩ := List.mem_map.mp hid
    obtain ⟨s, hst, -⟩ := h.started hi
    obtain ⟨state, hs, -⟩ := NodeTable.status?_eq_some_iff.mp hst
    obtain ⟨n, hn⟩ := h.known hs
    obtain ⟨hmem, he⟩ := Manifest.mem_of_node? hn
    exact List.mem_map.mpr ⟨n, hmem, he⟩
  simpa using (h.invocation_nodes_nodup.subperm hsub).length_le

/-- What holds in the beginning and is kept by every change holds in every state that is reached. -/
theorem Reachable.induct {params : Dict Scalar} {P : Drive → Prop}
    (h : Reachable p bodies params d) (hbegin : P (begin p.manifest params))
    (hchange : ∀ {d d'}, Reachable p bodies params d → P d → Change p bodies d d' → P d') :
    P d := by
  refine h.invariant hbegin ?_
  intro d d' hr hp hs
  exact hchange hr hp (hs.change hr.ledger)

/-- Every node of the manifest has a status in every state that is reached. -/
theorem Reachable.exists_status {params : Dict Scalar} {id : String}
    (h : Reachable p bodies params d) (hid : id ∈ p.manifest.nodes.map (·.id)) :
    ∃ s, d.table.status? id = some s := by
  refine h.induct (P := fun d => ∃ s, d.table.status? id = some s) ?_ ?_
  · refine ⟨.pending, ?_⟩
    rw [NodeTable.status?, get?_begin, if_pos hid]
    rfl
  · rintro d d' - ⟨s, hs⟩ hc
    cases hc with
    | settle => rw [status?_put]; split_ifs <;> simp [hs]
    | launch => simp only [spawn, status?_put]; split_ifs <;> simp [hs]
    | leave =>
      rw [status?_put]
      split_ifs
      · exact ⟨_, rfl⟩
      · exact ⟨s, hs⟩
    | _ => exact ⟨s, hs⟩

/-! ## What bodies are handed -/

/-- Every body that was started is the one of a node, with a context that is made for the node. -/
def Handed (p : Plan) (d : Drive) : Prop :=
  ∀ i ∈ d.invocations, ∃ n inputs, p.manifest.node? i.context.node = some n ∧ i.body = n.body ∧
    i.context = contextOf p n inputs

theorem Handed.change (h : Handed p d) (hc : Change p bodies d d') : Handed p d' := by
  cases hc with
  | @launch id n inputs s node status active room prepared verdict unmarked =>
    intro i hi
    rcases List.mem_cons.mp hi with rfl | hi
    · obtain ⟨-, rfl⟩ := Manifest.mem_of_node? node
      exact ⟨n, inputs, node, rfl, rfl⟩
    · exact h i hi
  | _ => exact h

theorem Reachable.handed {params : Dict Scalar} (h : Reachable p bodies params d) : Handed p d :=
  h.induct (fun _ hi => nomatch hi) fun _ hd hc => hd.change hc

end Drive
end Workflow
