import Workflow.Proofs.Graph.Order
import Workflow.Proofs.Schedule.Ledger

/-!
# The loop of a drive

The loop passes, ends if no task is left, and otherwise waits for one event. A pass is a sequence of
steps, so that every state of the loop is reached by steps.
-/
namespace Workflow

/-- A plan follows its manifest: the graph is that of the manifest and the order is a topological
order of it. -/
structure Plan.Proper (p : Plan) : Prop where
  graph_eq : p.graph = p.manifest.graph
  order_eq : p.manifest.graph.topologicalOrder = .ok p.order

namespace Plan.Proper
variable {p : Plan}

theorem topological (hp : p.Proper) : p.graph.Topological p.order := by
  rw [hp.graph_eq]
  exact TaskGraph.topological_of_topologicalOrder (TaskGraph.ofEdges_wellFormed _ _) hp.order_eq

theorem mem_order (hp : p.Proper) {id : String} :
    id ∈ p.order ↔ id ∈ p.manifest.nodes.map (·.id) := by
  rw [hp.topological.mem_iff, hp.graph_eq]
  exact TaskGraph.mem_nodes_ofEdges

theorem mem_order_of_node? (hp : p.Proper) {id : String} {n : ManifestNode}
    (h : p.manifest.node? id = some n) : id ∈ p.order := by
  obtain ⟨hn, rfl⟩ := Manifest.mem_of_node? h
  exact hp.mem_order.mpr (List.mem_map.mpr ⟨n, hn, rfl⟩)

theorem source_mem_order (hp : p.Proper) {a b : String} (h : p.graph.Edge a b) : a ∈ p.order := by
  rw [hp.graph_eq] at h
  exact hp.mem_order.mpr (TaskGraph.edge_ofEdges.mp h).2.1

theorem target_mem_order (hp : p.Proper) {a b : String} (h : p.graph.Edge a b) : b ∈ p.order := by
  rw [hp.graph_eq] at h
  exact hp.mem_order.mpr (TaskGraph.edge_ofEdges.mp h).2.2

end Plan.Proper

namespace Drive
variable {p : Plan} {bodies : Bodies} {params : Dict Scalar} {d d' : Drive}

/-- The states that follow by steps. -/
abbrev Steps (p : Plan) (bodies : Bodies) : Drive → Drive → Prop :=
  Relation.ReflTransGen (Step p bodies)

theorem Reachable.steps (h : Reachable p bodies params d) (hs : Steps p bodies d d') :
    Reachable p bodies params d' :=
  h.trans hs

/-! ## Passes -/

section
variable {P : Drive → Prop} {id : String} {source target : NodeStatus} {now : Instant}
  {details : NodeState → NodeState}

theorem move?_of_put (hput : d.table.contains id = true → ∀ n, P (d.put id n))
    (h : d.move? id source target now details = some d') : P d' := by
  obtain ⟨⟨table, n⟩, ht, rfl⟩ := Option.map_eq_some_iff.mp h
  unfold NodeTable.transition? at ht
  split at ht
  · cases ht
  · rename_i before hknown
    split_ifs at ht
    cases ht
    exact hput (Dict.contains_iff.mpr ⟨before, hknown⟩) _

theorem move_of_put (hput : d.table.contains id = true → ∀ n, P (d.put id n)) (hd : P d) :
    P (d.move id source target now details) := by
  cases h : d.move? id source target now details with
  | none =>
    rw [move, h, Option.getD_none]
    exact hd
  | some d' =>
    rw [move, h, Option.getD_some]
    exact move?_of_put hput h

/-- A task that is joined is taken off the books, its outputs may be stored, and its node may take a
new state. -/
theorem finish_of_put {task : Nat} (hclose : ∀ store, P (d.close task store))
    (hput : ∀ {e : Drive} {id : String} (n : NodeState), e.table.contains id = true → P e →
      P (e.put id n))
    (joined : Joined) : P (d.finish p now task joined) := by
  have hmove (store : ArtifactStore) (id : String) (target : NodeStatus)
      (details : NodeState → NodeState) :
      P ((d.close task store).move id .running target now details) :=
    move_of_put (fun known n => hput n known (hclose store)) (hclose store)
  unfold finish
  split
  · exact hclose d.artifacts
  · split
    · exact hmove d.artifacts _ _ _
    · split
      · exact hclose d.artifacts
      · split
        · exact hmove d.artifacts _ _ _
        · exact hmove _ _ _ _

end

/-- What is kept when a node of the table takes a new state and when a task is spawned. -/
structure Framed (P : Drive → Prop) : Prop where
  put : ∀ {d} {id : String} (n : NodeState), d.table.contains id = true → P d → P (d.put id n)
  spawn : ∀ {d} (id : String) (body : BodyRef) (context : TaskContext), P d →
    P (d.spawn id body context)

namespace Framed
variable {P : Drive → Prop}

theorem move (h : Framed P) (hd : P d) (id : String) (source target : NodeStatus) (now : Instant)
    (details : NodeState → NodeState) : P (d.move id source target now details) :=
  move_of_put (fun known n => h.put n known hd) hd

theorem resolveNode (h : Framed P) (hd : P d) (now : Instant) (id : String) :
    P (resolveNode p now d id) := by
  unfold Drive.resolveNode
  split_ifs
  · exact hd
  · split
    · exact hd
    · split
      · exact hd
      · exact h.move hd _ _ _ _ _
      · split <;> exact h.move hd _ _ _ _ _

theorem startNode (h : Framed P) (hd : P d) (now : Instant) (id : String) :
    P (startNode p now d id) := by
  unfold Drive.startNode
  split_ifs
  · exact hd
  · split
    · exact hd
    · split
      · exact h.move hd _ _ _ _ _
      · split
        · exact hd
        · rename_i hmove
          exact h.spawn _ _ _ (move?_of_put (fun known n => h.put n known hd) hmove)

theorem skipNode (h : Framed P) (hd : P d) (now : Instant) (id : String) : P (skipNode now d id) :=
  h.move (h.move hd _ _ _ _ _) _ _ _ _ _

theorem resolveNodes (h : Framed P) (hd : P d) (now : Instant) (ids : List String) :
    P (ids.foldl (Drive.resolveNode p now) d) :=
  List.foldlRecOn ids _ hd fun _ hd id _ => h.resolveNode hd now id

theorem startNodes (h : Framed P) (hd : P d) (now : Instant) (ids : List String) :
    P (ids.foldl (Drive.startNode p now) d) :=
  List.foldlRecOn ids _ hd fun _ hd id _ => h.startNode hd now id

/-- A pass keeps it if the notice of a cancellation does. -/
theorem pass (h : Framed P) (now : Instant) {cancel : Bool} (hactive : cancel = false → P d)
    (hcancel : cancel = true → P { d with cancelling := true }) : P (d.pass p cancel now) := by
  cases cancel with
  | true =>
    exact List.foldlRecOn p.order _ (hcancel rfl) fun _ hd id _ => h.skipNode hd now id
  | false =>
    exact h.startNodes (h.resolveNodes (hactive rfl) now p.order) now p.order

theorem cancelling (flag : Bool) : Framed fun d => d.cancelling = flag :=
  ⟨fun _ _ h => h, fun _ _ _ h => h⟩

end Framed

/-- The join of a task takes it away and leaves the others. -/
theorem finish_frame (p : Plan) (now : Instant) (d : Drive) (task : Nat) (joined : Joined) :
    (d.finish p now task joined).tasks = d.tasks.erase task ∧
    (d.finish p now task joined).cancelling = d.cancelling ∧
    (d.finish p now task joined).aborted = d.aborted ∧
    (d.finish p now task joined).invocations = d.invocations := by
  let P (e : Drive) : Prop := e.tasks = d.tasks.erase task ∧ e.cancelling = d.cancelling ∧
    e.aborted = d.aborted ∧ e.invocations = d.invocations
  exact finish_of_put (P := P) (fun _ => ⟨rfl, rfl, rfl, rfl⟩) (fun _ _ h => h) joined

theorem pass_cancelling (p : Plan) {cancel : Bool} (now : Instant)
    (kept : d.cancelling = true → cancel = true) : (d.pass p cancel now).cancelling = cancel := by
  refine (Framed.cancelling cancel).pass now (fun hc => ?_) fun hc => hc.symm
  subst hc
  simpa using kept

/-- Going through a list of nodes, one step for each. -/
theorem steps_foldl {f : Drive → String → Drive} {flag : Bool}
    (hstep : ∀ {d id}, id ∈ p.order → d.cancelling = flag → Step p bodies d (f d id))
    (hflag : ∀ {d} id, d.cancelling = flag → (f d id).cancelling = flag) {ids : List String}
    (hids : ids ⊆ p.order) (hd : d.cancelling = flag) :
    Steps p bodies d (ids.foldl f d) ∧ (ids.foldl f d).cancelling = flag := by
  induction ids generalizing d with
  | nil => exact ⟨.refl, hd⟩
  | cons id ids ih =>
    obtain ⟨hmem, hrest⟩ := List.cons_subset.mp hids
    obtain ⟨htail, hlast⟩ := ih (d := f d id) hrest (hflag id hd)
    exact ⟨.head (hstep hmem hd) htail, hlast⟩

theorem resolveNodes_steps (p : Plan) (bodies : Bodies) (now : Instant) {ids : List String}
    (hids : ids ⊆ p.order) (hd : d.cancelling = false) :
    Steps p bodies d (ids.foldl (resolveNode p now) d) ∧
      (ids.foldl (resolveNode p now) d).cancelling = false :=
  steps_foldl (.resolve now) (fun id h => (Framed.cancelling _).resolveNode h now id) hids hd

theorem startNodes_steps (p : Plan) (bodies : Bodies) (now : Instant) {ids : List String}
    (hids : ids ⊆ p.order) (hd : d.cancelling = false) :
    Steps p bodies d (ids.foldl (startNode p now) d) ∧
      (ids.foldl (startNode p now) d).cancelling = false :=
  steps_foldl (.start now) (fun id h => (Framed.cancelling _).startNode h now id) hids hd

theorem resolvePending_steps (p : Plan) (bodies : Bodies) (now : Instant)
    (hd : d.cancelling = false) :
    Steps p bodies d (resolvePending p now d) ∧ (resolvePending p now d).cancelling = false :=
  resolveNodes_steps p bodies now (List.Subset.refl _) hd

theorem startReady_steps (p : Plan) (bodies : Bodies) (now : Instant)
    (hd : d.cancelling = false) :
    Steps p bodies d (startReady p now d) ∧ (startReady p now d).cancelling = false :=
  startNodes_steps p bodies now (List.Subset.refl _) hd

theorem skipUnstarted_steps (p : Plan) (bodies : Bodies) (now : Instant)
    (hd : d.cancelling = true) :
    Steps p bodies d (skipUnstarted p now d) ∧ (skipUnstarted p now d).cancelling = true :=
  steps_foldl (.skip now) (fun id h => (Framed.cancelling _).skipNode h now id)
    (List.Subset.refl _) hd

theorem pass_steps (cancel : Bool) (now : Instant) (hd : d.cancelling = true → cancel = true) :
    Steps p bodies d (d.pass p cancel now) := by
  cases cancel with
  | true =>
    exact .head .cancel (skipUnstarted_steps p bodies now rfl).1
  | false =>
    have hactive : d.cancelling = false := by simpa using hd
    have hresolve := resolvePending_steps p bodies now hactive
    have hstart := startReady_steps p bodies now hresolve.2
    exact hresolve.1.trans hstart.1

/-! ## The loop -/

/-- What the loop waits for: a task is joined, the cancellation is noticed, or the grace period that
began with it ends. -/
inductive Event (p : Plan) (bodies : Bodies) (d : Drive) : Drive → Prop
  | finish {task : Nat} {ending : Ending} {i : Invocation} (now : Instant) (member : task ∈ d.tasks)
      (invoked : i ∈ d.invocations) (same : i.task = task) (ends : bodies i ending) :
      Event p bodies d (d.finish p now task (.ended ending))
  | abandon {task : Nat} (now : Instant) (member : task ∈ d.tasks) (aborted : d.aborted = true) :
      Event p bodies d (d.finish p now task .aborted)
  | notice : Event p bodies d d
  | deadline (cancelling : d.cancelling = true) (running : d.aborted = false) :
      Event p bodies d d.abort

/-- The states at the head of the loop. A cancellation is never taken back. -/
inductive Head (p : Plan) (bodies : Bodies) (params : Dict Scalar) : Drive → Prop
  | start : Head p bodies params (begin p.manifest params)
  | turn {d d' : Drive} (head : Head p bodies params d) (cancel : Bool) (now : Instant)
      (kept : d.cancelling = true → cancel = true) (busy : (d.pass p cancel now).isIdle = false)
      (event : Event p bodies (d.pass p cancel now) d') : Head p bodies params d'

theorem Event.steps (h : Event p bodies d d') : Steps p bodies d d' := by
  cases h with
  | finish now member invoked same ends => exact .single (.finish now member invoked same ends)
  | abandon now member aborted => exact .single (.abandon now member aborted)
  | notice => exact .refl
  | deadline cancelling running => exact .single (.abort cancelling)

/-- Every head of the loop is reached by steps, and so is the state after the next pass. -/
theorem Head.reachable (h : Head p bodies params d) : Reachable p bodies params d := by
  induction h with
  | start => exact .refl
  | turn head cancel now kept busy event ih =>
    exact (ih.steps (pass_steps cancel now kept)).steps event.steps

theorem Head.reachable_pass (h : Head p bodies params d) {cancel : Bool} (now : Instant)
    (kept : d.cancelling = true → cancel = true) :
    Reachable p bodies params (d.pass p cancel now) :=
  h.reachable.steps (pass_steps cancel now kept)

/-- A turn of the loop that ends with the body of a running node. -/
theorem Head.finish (h : Head p bodies params d) {cancel : Bool} {now : Instant} {task : Nat}
    {id : String} {ending : Ending} (later : Instant) (kept : d.cancelling = true → cancel = true)
    (entry : (task, id) ∈ (d.pass p cancel now).running)
    (ends : ∀ i, i.context.node = id → bodies i ending) :
    Head p bodies params ((d.pass p cancel now).finish p later task (.ended ending)) := by
  have hl := (h.reachable_pass now kept).ledger
  obtain ⟨i, hi, hit, hin⟩ := hl.invoked entry
  have hmem : task ∈ (d.pass p cancel now).tasks :=
    hl.tasks_eq ▸ List.mem_map.mpr ⟨_, entry, rfl⟩
  refine .turn h cancel now kept ?_ (.finish later hmem hi hit (ends i hin))
  simpa [isIdle] using List.ne_nil_of_mem hmem

end Drive
end Workflow
