import Workflow.Proofs.Orchestrator.Keeping
import Workflow.Proofs.Orchestrator.Timeline

/-!
# What is recorded of a run that is driven

Every change of the node table is noted, and the tracker is told of it before the loop goes on. The
outstanding updates make of a run with the nodes of before one with the nodes of the table: a pass
keeps to that and so does what follows from an event, so that the tracker has the nodes of the table
at every head of the loop, and those of the run that is returned when the loop ends.
-/
namespace Workflow

namespace Drive
variable {p : Plan} {bodies : Bodies} {d d' : Drive} {run r : Run}

/-! ## Outstanding updates -/

/-- What the tracker has still to be told, the oldest first. -/
def updates (d : Drive) : List Run.Update := d.writes.reverse.map fun w => .node w.1 w.2

/-- The drive when the tracker has been told of everything. -/
def handed (d : Drive) : Drive := { d with writes := [] }

theorem updates_put (d : Drive) (id : String) (n : NodeState) :
    (d.put id n).updates = d.updates ++ [.node id n] := by
  simp [updates, put]

/-- The outstanding updates make of a run one that has the nodes of the table. -/
def Accounts (r : Run) (d : Drive) : Prop := r.updates? d.updates = some { r with nodes := d.table }

theorem accounts_of_writes (hwrites : d.writes = []) (h : r.nodes = d.table) : Accounts r d := by
  rw [Accounts, updates, hwrites, ← h]
  rfl

theorem Accounts.put (h : Accounts r d) {id : String} (known : d.table.contains id = true)
    (n : NodeState) : Accounts r (d.put id n) := by
  rw [Accounts, updates_put, Run.updates?_append h, Run.updates?_cons_eq_some]
  exact ⟨_, if_pos known, rfl⟩

theorem framed_accounts (r : Run) : Framed (Accounts r) :=
  ⟨fun n known h => h.put known n, fun _ _ _ h => h⟩

/-- Every change that a pass makes is noted as it is made. -/
theorem Accounts.pass (h : Accounts r d) (p : Plan) (cancel : Bool) (now : Instant) :
    Accounts r (d.pass p cancel now) :=
  (framed_accounts r).pass now (fun _ => h) fun _ => h

theorem Accounts.finish (h : Accounts r d) (p : Plan) (now : Instant) (task : Nat)
    (joined : Joined) : Accounts r (d.finish p now task joined) :=
  finish_of_put (fun _ => h) (fun n known h => h.put known n) joined

theorem Accounts.event (h : Accounts r d) (hevent : Event p bodies d d') : Accounts r d' := by
  cases hevent with
  | finish now _ _ _ _ => exact h.finish p now _ _
  | abandon now _ _ => exact h.finish p now _ _
  | notice => exact h
  | deadline _ _ => exact h

theorem after_handed (d : Drive) : d.handed.after d.writes [] = d := by
  simp only [after, handed, List.nil_append, List.append_nil]

/-- A pass does the same when updates are outstanding, and its own come after these. -/
theorem pass_handed (d : Drive) (p : Plan) (cancel : Bool) (now : Instant) :
    (d.pass p cancel now).updates = d.updates ++ (d.handed.pass p cancel now).updates ∧
      (d.pass p cancel now).handed = (d.handed.pass p cancel now).handed := by
  have hpass : d.pass p cancel now = (d.handed.pass p cancel now).after d.writes [] := by
    rw [← pass_after, after_handed]
  rw [hpass]
  simp only [updates, handed, after, List.reverse_append, List.map_append, List.append_nil,
    and_self]

end Drive

theorem isTerminal_finalStatus (nodes : Dict NodeState) :
    (finalStatus nodes).isTerminal = true := by
  unfold finalStatus
  split_ifs <;> rfl

/-! ## The loop together with the tracker -/

namespace Tracker.Keeping
variable {σ : Type} {t : Tracker σ} {k : t.Keeping} {p : Plan} {bodies : Bodies} {run : Run}
  {d d' : Drive} {s s' : σ}

/-- The heads of the loop of a run that is driven, with the states that the services have there. It
begins when the run is recorded. The tracker is told of a pass before the loop waits, and of what
has followed from an event before the loop goes on. Others may change the services meanwhile but
leave the run alone. -/
inductive Attended (k : t.Keeping) (p : Plan) (bodies : Bodies) (run : Run) : Drive → σ → Prop
  | start {s s' : σ} (now : Instant) (recorded : k.Holds s run)
      (begun : k.Posted run.id [.status .running now] s s') :
      Attended k p bodies run (.start p.manifest run.params run.nodes) s'
  | turn {d d' : Drive} {s s₁ s' : σ} (head : Attended k p bodies run d s) (cancel : Bool)
      (now : Instant) (kept : d.cancelling = true → cancel = true)
      (passed : k.Posted run.id (d.pass p cancel now).updates s s₁)
      (busy : (d.pass p cancel now).isIdle = false)
      (event : Drive.Event p bodies (d.pass p cancel now).handed d')
      (followed : k.Posted run.id d'.updates s₁ s') : Attended k p bodies run d'.handed s'

/-- The run that is returned when the loop has ended, with the state that the services have then:
the tracker has been told of the last pass and of the status. -/
inductive Returned (k : t.Keeping) (p : Plan) (bodies : Bodies) (run : Run) : Run → σ → Prop
  | exit {d : Drive} {s s' : σ} (head : Attended k p bodies run d s) (cancel : Bool)
      (now later finished : Instant) (kept : d.cancelling = true → cancel = true)
      (idle : (d.pass p cancel now).isIdle = true)
      (closed : k.Posted run.id ((d.pass p cancel now).updates ++
        [.status (finalStatus (d.pass p cancel now).table) later]) s s') :
      Returned k p bodies run
        { run with
          nodes := (d.pass p cancel now).table
          status := finalStatus (d.pass p cancel now).table
          finishedAt := some finished } s'

/-- The tracker holds a run with these nodes. -/
def Records (k : t.Keeping) (id : String) (nodes : Dict NodeState) (s : σ) : Prop :=
  ∃ r, r.id = id ∧ k.Holds s r ∧ r.nodes = nodes

theorem Records.post {id : String} {nodes : Dict NodeState} (h : k.Records id nodes s)
    (haccounts : ∀ r, r.nodes = nodes → Drive.Accounts r d)
    (hposted : k.Posted id d.updates s s') : k.Records id d.table s' := by
  obtain ⟨r, hid, held, hnodes⟩ := h
  exact ⟨{ r with nodes := d.table }, hid, hposted.holds hid held (haccounts r hnodes), rfl⟩

theorem Attended.writes_eq (h : k.Attended p bodies run d s) : d.writes = [] := by
  cases h <;> rfl

theorem Attended.accounts_pass (h : k.Attended p bodies run d s) (cancel : Bool) (now : Instant)
    {r : Run} (hr : r.nodes = d.table) : Drive.Accounts r (d.pass p cancel now) :=
  (Drive.accounts_of_writes h.writes_eq hr).pass p cancel now

/-- At every head of the loop the tracker has the nodes of the table. -/
theorem Attended.records (h : k.Attended p bodies run d s) : k.Records run.id d.table s := by
  induction h with
  | start now recorded begun =>
    exact ⟨run.setStatus .running now, rfl, begun.holds rfl recorded rfl, rfl⟩
  | @turn d d' s s₁ s' head cancel now kept passed busy event followed ih =>
    -- the tracker is told twice: of the pass, and then of what has followed from the event
    have hpassed : k.Records run.id (d.pass p cancel now).table s₁ :=
      ih.post (fun r hr => head.accounts_pass cancel now hr) passed
    have hhanded (r : Run) (hr : r.nodes = (d.pass p cancel now).table) :
        Drive.Accounts r (d.pass p cancel now).handed := Drive.accounts_of_writes rfl hr
    have hfollowed : k.Records run.id d'.table s' :=
      hpassed.post (fun r hr => (hhanded r hr).event event) followed
    exact hfollowed

/-- When a run is returned the tracker has its nodes and its status. -/
theorem Returned.records {result : Run} (h : k.Returned p bodies run result s) :
    result.status.isTerminal = true ∧
    ∃ r, r.id = run.id ∧ k.Holds s r ∧ r.nodes = result.nodes ∧ r.status = result.status := by
  cases h with
  | @exit d s s' head cancel now later finished kept idle closed =>
    obtain ⟨r, hid, held, hnodes⟩ := head.records
    let stored := { r with nodes := (d.pass p cancel now).table }
    have hupdated : r.updates? ((d.pass p cancel now).updates ++
        [.status (finalStatus (d.pass p cancel now).table) later]) =
        some (stored.setStatus (finalStatus (d.pass p cancel now).table) later) :=
      Run.updates?_append (head.accounts_pass cancel now hnodes)
    exact ⟨isTerminal_finalStatus _, stored.setStatus _ later, hid,
      closed.holds hid held hupdated, rfl, rfl⟩

end Tracker.Keeping
end Workflow
