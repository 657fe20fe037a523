import Mathlib.Logic.Relation
import Workflow.Proofs.Data.Dict
import Workflow.Proofs.Graph.Basic
import Workflow.Schedule.Drive

/-!
# The steps of a drive

A drive is taken apart into steps that change one node each, or one flag. Passes are sequences of
such steps and so is everything that follows from an event; a statement about all states that are
reached by steps holds at every point of every pass, for every order in which bodies end and for
every moment of a cancellation.
-/
namespace Workflow

/-- What a node has come to: its status and its outputs. -/
structure Verdict where
  status : NodeStatus
  outputs : Dict Value

def NodeState.verdict (n : NodeState) : Verdict := ⟨n.status, n.outputs⟩

namespace NodeTable
variable {t : NodeTable} {id : String} {n : NodeState}

theorem status?_eq_some_iff {s : NodeStatus} :
    t.status? id = some s ↔ ∃ n, t.get? id = some n ∧ n.status = s := by
  simp [status?]

theorem status?_of_get? (h : t.get? id = some n) : t.status? id = some n.status := by
  simp [status?, h]

theorem status?_congr {t' : NodeTable} (h : t.get? id = t'.get? id) :
    t.status? id = t'.status? id := by
  rw [status?, status?, h]

@[simp] theorem stamp_verdict (n : NodeState) (s : NodeStatus) (now : Instant) :
    (stamp n s now).verdict = ⟨s, n.outputs⟩ := by
  unfold stamp
  split_ifs <;> rfl

@[simp] theorem stamp_status (n : NodeState) (s : NodeStatus) (now : Instant) :
    (stamp n s now).status = s :=
  congrArg Verdict.status (stamp_verdict n s now)

@[simp] theorem stamp_cancelled (n : NodeState) (s : NodeStatus) (now : Instant) :
    (stamp n s now).cancelled = n.cancelled := by
  unfold stamp
  split_ifs <;> rfl

end NodeTable

namespace Drive
variable {p : Plan} {d : Drive} {id x : String} {n : NodeState}

/-! ## Moving a node -/

/-- The drive after a node has taken a new state. -/
def put (d : Drive) (id : String) (n : NodeState) : Drive :=
  { d with table := d.table.insert id n, writes := (id, n) :: d.writes }

@[simp] theorem put_spawned (d : Drive) (id : String) (n : NodeState) :
    (d.put id n).spawned = d.spawned := rfl
@[simp] theorem put_tasks (d : Drive) (id : String) (n : NodeState) :
    (d.put id n).tasks = d.tasks := rfl
@[simp] theorem put_running (d : Drive) (id : String) (n : NodeState) :
    (d.put id n).running = d.running := rfl
@[simp] theorem put_invocations (d : Drive) (id : String) (n : NodeState) :
    (d.put id n).invocations = d.invocations := rfl

/-- The drive after a task has been joined and values have been stored. -/
def close (d : Drive) (task : Nat) (store : ArtifactStore) : Drive :=
  { d.join task with artifacts := store }

theorem get?_put : (d.put id n).table.get? x = if x = id then some n else d.table.get? x :=
  Dict.get?_insert d.table id x n

theorem status?_put :
    (d.put id n).table.status? x = if x = id then some n.status else d.table.status? x := by
  simp only [NodeTable.status?, get?_put]
  split_ifs <;> rfl

theorem move?_of_get? {source : NodeStatus} (h : d.table.get? id = some n)
    (hs : n.status = source) (target : NodeStatus) (now : Instant)
    (details : NodeState → NodeState) :
    d.move? id source target now details =
      some (d.put id (details (NodeTable.stamp n target now))) := by
  simp [move?, NodeTable.transition?, h, hs, put]

theorem move_of_get? {source : NodeStatus} (h : d.table.get? id = some n)
    (hs : n.status = source) (target : NodeStatus) (now : Instant)
    (details : NodeState → NodeState) :
    d.move id source target now details =
      d.put id (details (NodeTable.stamp n target now)) := by
  rw [move, move?_of_get? h hs, Option.getD_some]

theorem move_of_ne {source target : NodeStatus} {now : Instant} {details : NodeState → NodeState}
    (h : d.table.status? id ≠ some source) : d.move id source target now details = d := by
  have hnone : d.table.transition? id source target now details = none := by
    unfold NodeTable.transition?
    cases hg : d.table.get? id with
    | none => rfl
    | some n =>
      have hne : n.status ≠ source := fun he => h (he ▸ NodeTable.status?_of_get? hg)
      simp [hne]
  simp [move, move?, hnone]

@[simp] theorem withReason_verdict (reason : String) (n : NodeState) :
    (withReason reason n).verdict = n.verdict := rfl
@[simp] theorem withReason_cancelled (reason : String) (n : NodeState) :
    (withReason reason n).cancelled = n.cancelled := rfl
@[simp] theorem cancelled_verdict (n : NodeState) : (cancelled n).verdict = n.verdict := rfl
@[simp] theorem cancelled_status (n : NodeState) : (cancelled n).status = n.status := rfl
@[simp] theorem cancelled_cancelled (n : NodeState) : (cancelled n).cancelled = true := rfl

/-! ## Predecessors -/

theorem readiness_eq_clear {table : NodeTable} {deps : List String} {waiting : Bool} :
    readiness table deps waiting = .clear ↔
      waiting = false ∧ ∀ dep ∈ deps, table.status? dep = some .succeeded := by
  induction deps generalizing waiting with
  | nil => cases waiting <;> simp [readiness]
  | cons dep deps ih =>
    simp only [readiness, List.forall_mem_cons]
    split
    · rename_i hdep
      simp [ih, hdep]
    · rename_i hdep
      simp [hdep]
    · rename_i hdep
      simp [hdep]
    · rename_i hne _ _
      simp only [ih, Bool.true_eq_false, false_and, false_iff, not_and]
      exact fun _ h => absurd h hne

theorem waits_of_waiting {table : NodeTable} {deps : List String} {waiting : Bool}
    (h : readiness table deps waiting = .waiting) :
    (∀ dep ∈ deps, table.status? dep ≠ some .failed ∧ table.status? dep ≠ some .skipped) ∧
      (waiting = true ∨ ∃ dep ∈ deps, table.status? dep ≠ some .succeeded) := by
  induction deps generalizing waiting with
  | nil => cases waiting <;> simp [readiness] at h ⊢
  | cons dep deps ih =>
    simp only [readiness] at h
    split at h
    · rename_i hdep
      obtain ⟨hbad, hwait⟩ := ih h
      refine ⟨List.forall_mem_cons.mpr ⟨by simp [hdep], hbad⟩, hwait.imp_right ?_⟩
      rintro ⟨other, hmem, hst⟩
      exact ⟨other, List.mem_cons_of_mem _ hmem, hst⟩
    · cases h
    · cases h
    · rename_i hsucceeded hfailed hskipped
      obtain ⟨hbad, -⟩ := ih h
      exact ⟨List.forall_mem_cons.mpr ⟨⟨hfailed, hskipped⟩, hbad⟩,
        .inr ⟨dep, List.mem_cons_self, hsucceeded⟩⟩

theorem failed_or_skipped_of_blocked {table : NodeTable} {deps : List String} {waiting : Bool}
    {reason : String} (h : readiness table deps waiting = .blocked reason) :
    ∃ dep ∈ deps, table.status? dep = some .failed ∨ table.status? dep = some .skipped := by
  induction deps generalizing waiting with
  | nil => cases waiting <;> simp [readiness] at h
  | cons dep deps ih =>
    simp only [readiness] at h
    split at h
    · obtain ⟨other, hmem, hst⟩ := ih h
      exact ⟨other, List.mem_cons_of_mem _ hmem, hst⟩
    · exact ⟨dep, List.mem_cons_self, .inl ‹_›⟩
    · exact ⟨dep, List.mem_cons_self, .inr ‹_›⟩
    · obtain ⟨other, hmem, hst⟩ := ih h
      exact ⟨other, List.mem_cons_of_mem _ hmem, hst⟩

/-! ## Steps -/

end Drive

/-- Which endings the body of an invocation may have. -/
abbrev Bodies := Invocation → Ending → Prop

namespace Drive

/-- One step of a drive. Nodes are decided and started while no cancellation has been seen, and
skipped once one has been; a task may be joined with an ending that its body may have, or, when the
bodies have been told to stop, as aborted. -/
inductive Step (p : Plan) (bodies : Bodies) : Drive → Drive → Prop
  | resolve {d : Drive} {id : String} (now : Instant) (member : id ∈ p.order)
      (active : d.cancelling = false) : Step p bodies d (resolveNode p now d id)
  | start {d : Drive} {id : String} (now : Instant) (member : id ∈ p.order)
      (active : d.cancelling = false) : Step p bodies d (startNode p now d id)
  | cancel {d : Drive} : Step p bodies d { d with cancelling := true }
  | skip {d : Drive} {id : String} (now : Instant) (member : id ∈ p.order)
      (cancelling : d.cancelling = true) : Step p bodies d (skipNode now d id)
  | finish {d : Drive} {task : Nat} {ending : Ending} {i : Invocation} (now : Instant)
      (member : task ∈ d.tasks) (invoked : i ∈ d.invocations) (same : i.task = task)
      (ends : bodies i ending) : Step p bodies d (d.finish p now task (.ended ending))
  | abandon {d : Drive} {task : Nat} (now : Instant) (member : task ∈ d.tasks)
      (aborted : d.aborted = true) : Step p bodies d (d.finish p now task .aborted)
  | abort {d : Drive} (cancelling : d.cancelling = true) : Step p bodies d d.abort

/-- The state in which the run of a manifest begins: all of its nodes are pending. -/
def begin (m : Manifest) (params : Dict Scalar) : Drive :=
  .start m params (Dict.ofList ((m.nodes.map (·.id)).map fun id => (id, NodeState.pending)))

/-- The states that a run of a plan can come to. -/
def Reachable (p : Plan) (bodies : Bodies) (params : Dict Scalar) (d : Drive) : Prop :=
  Relation.ReflTransGen (Step p bodies) (begin p.manifest params) d

/-- What holds in the beginning and is kept by every step holds in every state. -/
theorem Reachable.invariant {bodies : Bodies} {params : Dict Scalar} {P : Drive → Prop}
    (h : Reachable p bodies params d) (hbegin : P (begin p.manifest params))
    (hstep : ∀ {d d'}, Reachable p bodies params d → P d → Step p bodies d d' → P d') : P d := by
  induction h with
  | refl => exact hbegin
  | tail hr hs ih => exact hstep hr ih hs

end Drive
end Workflow
