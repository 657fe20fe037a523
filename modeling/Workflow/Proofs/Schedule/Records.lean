import Mathlib.Data.List.Destutter
import Workflow.Proofs.Schedule.History
import Workflow.Proofs.Schedule.Typing

/-!
# The records of the nodes

The record of a node is changed at few places, each of which sets some of its fields. `Update` lists
them; every step leaves a record as it is or updates it once. What the fields say then follows from
the statuses through which the node has gone.
-/
namespace Workflow

/-- The ways on from a status: through ready and running to an end, with shortcuts for nodes that
are skipped or fail before they run. -/
inductive NodeStatus.Leads : NodeStatus → NodeStatus → Prop
  | allow : Leads .pending .ready
  | launch : Leads .ready .running
  | conclude {s : NodeStatus} (terminal : s.isTerminal = true) : Leads .running s
  | shortcut {s t : NodeStatus} (early : s = .pending ∨ s = .ready)
      (short : t = .skipped ∨ t = .failed) : Leads s t

/-- What becomes of the record of a node that moves on. -/
inductive NodeState.Update (s : NodeState) : NodeState → Prop
  | allow (now : Instant) (pending : s.status = .pending) :
      Update s { NodeTable.stamp s .ready now with reason := none }
  | launch (now : Instant) (ready : s.status = .ready) : Update s (NodeTable.stamp s .running now)
  | decline (now : Instant) (reason : String) (pending : s.status = .pending) :
      Update s (Drive.withReason reason (NodeTable.stamp s .skipped now))
  | fail (now : Instant) (reason : String) (unfinished : s.status.isTerminal = false) :
      Update s (Drive.withReason reason (NodeTable.stamp s .failed now))
  | cancel (now : Instant) (unfinished : s.status.isTerminal = false) :
      Update s (Drive.cancelled (NodeTable.stamp s .skipped now))
  | succeed (now : Instant) (outputs : Dict Value) (running : s.status = .running) :
      Update s { NodeTable.stamp s .succeeded now with outputs }

namespace NodeTable

@[simp] theorem stamp_startedAt (n : NodeState) (s : NodeStatus) (now : Instant) :
    (stamp n s now).startedAt = if s = .running then some now else n.startedAt := by
  cases s <;> rfl

@[simp] theorem stamp_finishedAt (n : NodeState) (s : NodeStatus) (now : Instant) :
    (stamp n s now).finishedAt = if s.isTerminal then some now else n.finishedAt := by
  cases s <;> rfl

@[simp] theorem stamp_reason (n : NodeState) (s : NodeStatus) (now : Instant) :
    (stamp n s now).reason = n.reason := by
  cases s <;> rfl

end NodeTable

theorem NodeStatus.Leads.ne {s t : NodeStatus} (h : s.Leads t) : t ≠ s := by
  cases h with
  | allow => decide
  | launch => decide
  | conclude terminal =>
    rintro rfl
    cases terminal
  | shortcut early short => rcases early with rfl | rfl <;> rcases short with rfl | rfl <;> decide

theorem NodeStatus.Leads.of_unfinished {s t : NodeStatus} (hs : s.isTerminal = false)
    (ht : t = .skipped ∨ t = .failed) : s.Leads t := by
  cases s with
  | pending => exact .shortcut (.inl rfl) ht
  | ready => exact .shortcut (.inr rfl) ht
  | running => exact .conclude (by rcases ht with rfl | rfl <;> rfl)
  | _ => cases hs

namespace NodeState
variable {s s' : NodeState}

theorem Update.unfinished (h : s.Update s') : s.status.isTerminal = false := by
  cases h with
  | allow now pending => rw [pending]; rfl
  | launch now ready => rw [ready]; rfl
  | decline now reason pending => rw [pending]; rfl
  | fail now reason unfinished => exact unfinished
  | cancel now unfinished => exact unfinished
  | succeed now outputs running => rw [running]; rfl

theorem Update.leads (h : s.Update s') : s.status.Leads s'.status := by
  cases h with
  | allow now pending => simpa [pending] using NodeStatus.Leads.allow
  | launch now ready => simpa [ready] using NodeStatus.Leads.launch
  | decline now reason pending =>
    have hopen : s.status.isTerminal = false := by rw [pending]; rfl
    simpa [Drive.withReason] using NodeStatus.Leads.of_unfinished hopen (.inl rfl)
  | fail now reason unfinished =>
    simpa [Drive.withReason] using NodeStatus.Leads.of_unfinished unfinished (.inr rfl)
  | cancel now unfinished => simpa using NodeStatus.Leads.of_unfinished unfinished (.inl rfl)
  | succeed now outputs running => simpa [running] using NodeStatus.Leads.conclude rfl

/-- What an update makes of the fields of a record without an end and without a reason. -/
theorem Update.fields (h : s.Update s') (hfinished : s.finishedAt = none)
    (hreason : s.reason = none) :
    (s'.finishedAt.isSome = true ↔ s'.status.isTerminal = true) ∧
    (s'.startedAt.isSome = true ↔ s.startedAt.isSome = true ∨ s'.status = .running) ∧
    (s'.reason.isSome = true ↔ s'.status = .failed ∨ s'.status = .skipped) := by
  cases h <;>
    simp [Drive.withReason, Drive.cancelled, NodeStatus.isTerminal, hfinished, hreason]

/-- A record agrees with the statuses through which the node has gone. -/
structure Agrees (history : List NodeStatus) (s : NodeState) : Prop where
  path : history.IsChain NodeStatus.Leads
  first : history.head? = some .pending
  last : history.getLast? = some s.status
  finished : s.finishedAt.isSome = true ↔ s.status.isTerminal = true
  started : s.startedAt.isSome = true ↔ .running ∈ history
  reason : s.reason.isSome = true ↔ s.status = .failed ∨ s.status = .skipped

theorem agrees_pending : Agrees [.pending] .pending :=
  ⟨.singleton _, rfl, rfl, by decide, by decide, by decide⟩

theorem Agrees.update {history : List NodeStatus} (h : Agrees history s) (ht : s.Update s') :
    Agrees (history ++ [s'.status]) s' := by
  have hopen := ht.unfinished
  have hfinished : s.finishedAt = none := by
    rw [← Option.not_isSome_iff_eq_none, h.finished, hopen]
    decide
  have hreason : s.reason = none := by
    rw [← Option.not_isSome_iff_eq_none, h.reason]
    rintro (hs | hs) <;> rw [hs] at hopen <;> cases hopen
  obtain ⟨hfinished', hstarted', hreason'⟩ := ht.fields hfinished hreason
  refine ⟨?_, ?_, by simp, hfinished', ?_, hreason'⟩
  · refine List.isChain_append.mpr ⟨h.path, .singleton _, fun x hx y hy => ?_⟩
    obtain rfl : s.status = x := Option.some.inj (h.last.symm.trans hx)
    obtain rfl : s'.status = y := by simpa using hy
    exact ht.leads
  · rw [List.head?_append, h.first]
    rfl
  · rw [hstarted', h.started, List.mem_append, List.mem_singleton, eq_comm]

end NodeState

namespace Drive
variable {p : Plan} {bodies : Bodies} {params : Dict Scalar} {d d' : Drive} {id : String}
  {s : NodeState} {states : List Drive} {now : Instant}

/-! ## Steps -/

/-- Every record of the table is left as it is or updated. -/
def Advances (d d' : Drive) : Prop :=
  ∀ id s, d.table.get? id = some s →
    ∃ s', d'.table.get? id = some s' ∧ Relation.ReflGen NodeState.Update s s'

theorem Advances.refl (d : Drive) : Advances d d := fun _ s hs => ⟨s, hs, .refl⟩

theorem advances_put (hs : d.table.get? id = some s) {s' : NodeState} (ht : s.Update s') :
    Advances d (d.put id s') := by
  intro x t hx
  rw [get?_put]
  split_ifs with he
  · subst he
    cases hs.symm.trans hx
    exact ⟨s', rfl, .single ht⟩
  · exact ⟨t, hx, .refl⟩

theorem advances_move {source target : NodeStatus} {details : NodeState → NodeState}
    (hupdate : ∀ s : NodeState, s.status = source →
      s.Update (details (NodeTable.stamp s target now))) :
    Advances d (d.move id source target now details) := by
  by_cases h : d.table.status? id = some source
  · obtain ⟨s, hs, hst⟩ := NodeTable.status?_eq_some_iff.mp h
    rw [move_of_get? hs hst]
    exact advances_put hs (hupdate s hst)
  · rw [move_of_ne h]
    exact .refl d

theorem advances_resolveNode (now : Instant) : Advances d (resolveNode p now d id) := by
  unfold resolveNode
  split_ifs
  · exact .refl d
  · split
    · exact .refl d
    · split
      · exact .refl d
      · exact advances_move fun s hs => .decline now _ hs
      · split
        · exact advances_move fun s hs => .allow now hs
        · exact advances_move fun s hs => .decline now _ hs
        · exact advances_move fun s hs => .fail now _ (by rw [hs]; rfl)

theorem advances_startNode (now : Instant) : Advances d (startNode p now d id) := by
  unfold startNode
  split_ifs with hready
  · exact .refl d
  · simp only [Bool.or_eq_true, decide_eq_true_eq, not_or, ne_eq, not_not] at hready
    obtain ⟨s, hs, hst⟩ := NodeTable.status?_eq_some_iff.mp hready.2
    split
    · exact .refl d
    · split
      · exact advances_move fun s hs => .fail now _ (by rw [hs]; rfl)
      · rw [move?_of_get? hs hst]
        exact advances_put hs (.launch now hst)

theorem advances_skipNode (now : Instant) : Advances d (skipNode now d id) := by
  unfold skipNode
  by_cases hpending : d.table.status? id = some .pending
  · obtain ⟨s, hs, hst⟩ := NodeTable.status?_eq_some_iff.mp hpending
    rw [move_of_get? hs hst, move_of_ne (by simp [status?_put])]
    exact advances_put hs (.cancel now (by rw [hst]; rfl))
  · rw [move_of_ne hpending]
    exact advances_move fun s hs => .cancel now (by rw [hs]; rfl)

theorem advances_finish (now : Instant) (task : Nat) (joined : Joined) :
    Advances d (d.finish p now task joined) := by
  unfold finish
  split
  · exact Advances.refl d
  · rename_i id _
    split
    · exact advances_move (d := d.join task) fun s hs => .cancel now (by rw [hs]; rfl)
    · split
      · exact Advances.refl d
      · split
        · exact advances_move (d := d.join task) fun s hs => .fail now _ (by rw [hs]; rfl)
        · exact advances_move (d := d.close task _) fun s hs => .succeed now _ hs

theorem Step.advances (h : Step p bodies d d') : Advances d d' := by
  cases h with
  | resolve now => exact advances_resolveNode now
  | start now => exact advances_startNode now
  | skip now => exact advances_skipNode now
  | finish now => exact advances_finish now _ _
  | abandon now => exact advances_finish now _ _
  | _ => exact Advances.refl d

/-! ## Runs -/

/-- The states of a run, the latest first. -/
inductive Trail (p : Plan) (bodies : Bodies) (params : Dict Scalar) : List Drive → Prop
  | start : Trail p bodies params [begin p.manifest params]
  | step {d d' : Drive} {states : List Drive} (before : Trail p bodies params (d :: states))
      (step : Step p bodies d d') : Trail p bodies params (d' :: d :: states)

theorem Trail.reachable (h : Trail p bodies params (d :: states)) :
    Reachable p bodies params d := by
  generalize hall : d :: states = all at h
  induction h generalizing d states with
  | start =>
    obtain ⟨rfl, -⟩ := List.cons.inj hall
    exact .refl
  | step before step ih =>
    obtain ⟨rfl, -⟩ := List.cons.inj hall
    exact (ih rfl).tail step

/-- Every state that is reached is the latest one of a run. -/
theorem Reachable.exists_trail (h : Reachable p bodies params d) :
    ∃ states, Trail p bodies params (d :: states) := by
  induction h with
  | refl => exact ⟨[], .start⟩
  | tail _ hs ih =>
    obtain ⟨states, htrail⟩ := ih
    exact ⟨_, htrail.step hs⟩

/-- The statuses through which a node has gone. -/
def history (states : List Drive) (id : String) : List NodeStatus :=
  ((states.filterMap fun d => d.table.status? id).destutter (· ≠ ·)).reverse

theorem history_cons {s' : NodeState} (hs : d.table.get? id = some s)
    (hs' : d'.table.get? id = some s') :
    history (d' :: d :: states) id =
      if s'.status = s.status then history (d :: states) id
      else history (d :: states) id ++ [s'.status] := by
  unfold history
  simp only [List.filterMap_cons, NodeTable.status?_of_get? hs', NodeTable.status?_of_get? hs,
    List.destutter_cons_cons]
  by_cases heq : s'.status = s.status
  · rw [if_neg (not_not.mpr heq), if_pos heq, heq, List.destutter_cons']
  · rw [if_pos heq, if_neg heq, List.reverse_cons, List.destutter_cons']

/-- A node that has a record has had one from the beginning on. -/
theorem Reachable.exists_earlier (h : Reachable p bodies params d)
    (h' : Reachable p bodies params d') (hs : d'.table.get? id = some s) :
    ∃ t, d.table.get? id = some t := by
  obtain ⟨n, hn⟩ := h'.ledger.known hs
  obtain ⟨hmem, rfl⟩ := Manifest.mem_of_node? hn
  obtain ⟨status, hstatus⟩ := h.exists_status (List.mem_map.mpr ⟨n, hmem, rfl⟩)
  obtain ⟨t, ht, -⟩ := NodeTable.status?_eq_some_iff.mp hstatus
  exact ⟨t, ht⟩

theorem Trail.agrees (h : Trail p bodies params (d :: states)) (hs : d.table.get? id = some s) :
    s.Agrees (history (d :: states) id) := by
  generalize hall : d :: states = all at h
  induction h generalizing d states s with
  | start =>
    obtain ⟨rfl, rfl⟩ := List.cons.inj hall
    obtain rfl := eq_pending_of_begin hs
    have hhistory : history [begin p.manifest params] id = [.pending] := by
      simp [history, NodeTable.status?_of_get? hs, NodeState.pending, NodeState.ofStatus]
    exact hhistory ▸ NodeState.agrees_pending
  | @step before after earlier hbefore hstep ih =>
    obtain ⟨rfl, rfl⟩ := List.cons.inj hall
    have hreachable := hbefore.reachable
    obtain ⟨t, ht⟩ := hreachable.exists_earlier (hreachable.tail hstep) hs
    obtain ⟨s', hs', hupdate⟩ := hstep.advances id t ht
    cases hs.symm.trans hs'
    have hagrees := ih ht rfl
    rw [history_cons ht hs]
    cases hupdate with
    | refl => rwa [if_pos rfl]
    | single hupdate =>
      rw [if_neg hupdate.leads.ne]
      exact hagrees.update hupdate

/-- A terminal record stays as it is. -/
theorem Trail.kept (h : Trail p bodies params (d :: states)) {before : Drive}
    (hbefore : before ∈ states) (hs : before.table.get? id = some s)
    (hterminal : s.status.isTerminal = true) : d.table.get? id = some s := by
  generalize hall : d :: states = all at h
  induction h generalizing d states with
  | start =>
    obtain ⟨rfl, rfl⟩ := List.cons.inj hall
    cases hbefore
  | @step previous after earlier hprevious hstep ih =>
    obtain ⟨rfl, rfl⟩ := List.cons.inj hall
    have ht : previous.table.get? id = some s := by
      rcases List.mem_cons.mp hbefore with rfl | hbefore
      · exact hs
      · exact ih hbefore rfl
    have hl := hprevious.reachable.ledger
    exact (hstep.change hl).get?_of_isTerminal hl ht hterminal

/-! ## Well-formed records -/

/-- What the record of a node says of the statuses through which the node has gone and of its
outputs. -/
structure Recorded (n : ManifestNode) (history : List NodeStatus) (s : NodeState) : Prop
    extends NodeState.Agrees history s where
  cancelled : s.cancelled = true → s.status = .skipped
  blank : s.status ≠ .succeeded → s.outputs = .empty
  names : s.status = .succeeded → ∀ name, name ∈ s.outputs.keys ↔ name ∈ n.outputs.map (·.name)
  typed : s.status = .succeeded → ∀ o ∈ n.outputs, ∃ v, s.outputs.get? o.name = some v ∧
    v.Fits o.dataType

theorem Reachable.mem_keys_outputs (h : Reachable p bodies params d) {n : ManifestNode}
    (hn : p.manifest.node? id = some n) (hs : d.table.get? id = some s)
    (hst : s.status = .succeeded) {name : String} :
    name ∈ s.outputs.keys ↔ name ∈ n.outputs.map (·.name) := by
  rw [Dict.mem_keys_iff]
  constructor
  · rintro ⟨v, hv⟩
    obtain ⟨-, -, -, ending, -, hresults⟩ := h.made id n s hn hs hst
    by_contra hname
    rw [get?_results_of_notMem hresults hname] at hv
    cases hv
  · intro hname
    obtain ⟨o, ho, rfl⟩ := List.mem_map.mp hname
    obtain ⟨v, hv, -⟩ := h.outputsFit id n s hn hs hst o ho
    exact ⟨v, hv⟩

/-- In every run the record of every node is well-formed, and a record that is terminal has not
changed since it became so. -/
theorem Trail.records_wellFormed (h : Trail p bodies params (d :: states))
    (hs : d.table.get? id = some s) :
    (∃ n, p.manifest.node? id = some n ∧ Recorded n (history (d :: states) id) s) ∧
      ∀ before ∈ states, ∀ t, before.table.get? id = some t → t.status.isTerminal = true →
        t = s := by
  have hreachable := h.reachable
  have hl := hreachable.ledger
  obtain ⟨n, hn⟩ := hl.known hs
  refine ⟨⟨n, hn, h.agrees hs, ?_, ?_, ?_, ?_⟩, fun before hbefore t ht hterminal => ?_⟩
  · exact fun hcancelled => (hl.marked hs hcancelled).1
  · exact hl.unfinished hs
  · exact fun hst _ => hreachable.mem_keys_outputs hn hs hst
  · exact hreachable.outputsFit id n s hn hs
  · exact Option.some.inj ((h.kept hbefore ht hterminal).symm.trans hs)

/-- The states of the gated run before its first node has ended, the latest first. -/
def gatedStates : List Drive :=
  [startNode gatedPlan ⟨0, 0⟩ gatedReady "a", gatedReady,
    begin gatedPlan.manifest (Dict.empty.insert "n" (.int 3))]

theorem gated_recorded :
    Trail gatedPlan (fun _ _ => True) (Dict.empty.insert "n" (.int 3)) (gatedHalf :: gatedStates) ∧
    history (gatedHalf :: gatedStates) "a" = [.pending, .ready, .running, .succeeded] ∧
    ∃ n s, gatedPlan.manifest.node? "a" = some n ∧ gatedHalf.table.get? "a" = some s ∧
      Recorded n [.pending, .ready, .running, .succeeded] s := by
  have hready : Trail gatedPlan (fun _ _ => True) (Dict.empty.insert "n" (.int 3))
      [gatedReady, begin gatedPlan.manifest (Dict.empty.insert "n" (.int 3))] :=
    .step .start (.resolve _ (by decide) rfl)
  have hstarted : Trail gatedPlan (fun _ _ => True) (Dict.empty.insert "n" (.int 3)) gatedStates :=
    hready.step (.start _ (by decide) rfl)
  have hentry : (0, "a") ∈ (startNode gatedPlan ⟨0, 0⟩ gatedReady "a").running := by decide
  obtain ⟨i, hi, hit, -⟩ := hstarted.reachable.ledger.invoked hentry
  have hhalf : Trail gatedPlan (fun _ _ => True) (Dict.empty.insert "n" (.int 3))
      (gatedHalf :: gatedStates) := hstarted.step (.finish _ (by decide) hi hit trivial)
  have hhistory : history (gatedHalf :: gatedStates) "a" =
      [.pending, .ready, .running, .succeeded] := rfl
  have hs : gatedHalf.table.get? "a" = some _ := rfl
  obtain ⟨⟨n, hn, hrecorded⟩, -⟩ := Trail.records_wellFormed hhalf hs
  exact ⟨hhalf, hhistory, n, _, hn, hs, hhistory ▸ hrecorded⟩

end Drive
end Workflow
