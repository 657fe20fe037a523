import Workflow.Proofs.Schedule.Admission

/-!
# What bodies got and what they gave

Two facts about the past stay true in a run, because the store only grows and a terminal node keeps
its state: every body that was started got the values of the inputs of its node, and the outputs of
every node that has succeeded come from an ending of its body. With a log of the endings the second
fact tells which ending that was.
-/
namespace Workflow.Drive
variable {p : Plan} {bodies bodies' : Bodies} {params : Dict Scalar} {d d' : Drive}
  {log : List (Nat × Ending)}

theorem Change.invocations_subset (hc : Change p bodies d d') :
    d.invocations ⊆ d'.invocations := by
  cases hc with
  | launch => exact List.subset_cons_self _ _
  | _ => exact List.Subset.refl _

/-! ## Inputs -/

/-- Every body that was started got the values of the inputs of its node. -/
def Received (p : Plan) (d : Drive) : Prop :=
  ∀ i ∈ d.invocations, ∃ n, p.manifest.node? i.context.node = some n ∧
    resolveInputs d.artifacts n.inputs .empty = .ok i.context.inputs

theorem Received.change (h : Received p d) (hc : Change p bodies d d') : Received p d' := by
  intro i hi
  by_cases hold : i ∈ d.invocations
  · obtain ⟨n, hn, hinputs⟩ := h i hold
    exact ⟨n, hn, resolveInputs_mono hc.extends hinputs⟩
  · cases hc with
    | @launch id n inputs s node status active room prepared verdict unmarked =>
      obtain rfl : i = _ := (List.mem_cons.mp hi).resolve_right hold
      obtain ⟨-, rfl⟩ := Manifest.mem_of_node? node
      refine ⟨n, node, ?_⟩
      unfold prepare at prepared
      split at prepared
      · cases prepared
      · exact prepared
    | _ => exact absurd hi hold

theorem Reachable.received (h : Reachable p bodies params d) : Received p d :=
  h.induct (fun _ hi => nomatch hi) fun _ hr hc => hr.change hc

/-! ## Outputs -/

/-- The outputs of every node that has succeeded come from an ending of its body. -/
def Made (p : Plan) (bodies : Bodies) (d : Drive) : Prop :=
  ∀ id n s, p.manifest.node? id = some n → d.table.get? id = some s → s.status = .succeeded →
    ∃ j ∈ d.invocations, j.context.node = id ∧
      ∃ ending, bodies j ending ∧ n.results ending = .ok s.outputs

theorem Leaves.made {n : ManifestNode} {i : Invocation} {v : Verdict} {mark : Bool}
    {store : ArtifactStore} (h : Leaves bodies d n i v mark store) (hv : v.status = .succeeded) :
    ∃ ending, bodies i ending ∧ n.results ending = .ok v.outputs := by
  cases h with
  | succeed ends results => exact ⟨_, ends, results⟩
  | _ => cases hv

theorem Made.change (h : Made p bodies d) (hc : Change p bodies d d') : Made p bodies d' := by
  intro id n s hn hs hst
  rcases hc.get?_of_succeeded hn hs hst with hs | ⟨i, hi, hnode, store, why⟩
  · obtain ⟨j, hj, hrest⟩ := h id n s hn hs hst
    exact ⟨j, hc.invocations_subset hj, hrest⟩
  · exact ⟨i, hc.invocations_subset hi, hnode, why.made hst⟩

theorem Reachable.made (h : Reachable p bodies params d) : Made p bodies d := by
  refine h.induct ?_ fun _ hm hc => hm.change hc
  intro id n s _ hs hst
  rw [eq_pending_of_begin hs] at hst
  cases hst

/-! ## The log of endings -/

/-- The runs of a plan with the endings of bodies, in the order in which their tasks were joined. -/
inductive Logged (p : Plan) (bodies : Bodies) (params : Dict Scalar) :
    List (Nat × Ending) → Drive → Prop
  | start : Logged p bodies params [] (begin p.manifest params)
  | quiet {log : List (Nat × Ending)} {d d' : Drive} (before : Logged p bodies params log d)
      (step : Step p (fun _ _ => False) d d') : Logged p bodies params log d'
  | finish {log : List (Nat × Ending)} {d : Drive} {task : Nat} {ending : Ending} {i : Invocation}
      (before : Logged p bodies params log d) (now : Instant) (member : task ∈ d.tasks)
      (invoked : i ∈ d.invocations) (same : i.task = task) (ends : bodies i ending) :
      Logged p bodies params (log ++ [(task, ending)]) (d.finish p now task (.ended ending))

theorem Step.mono (hbodies : ∀ {i ending}, bodies i ending → bodies' i ending)
    (h : Step p bodies d d') : Step p bodies' d d' := by
  cases h with
  | resolve now member active => exact .resolve now member active
  | start now member active => exact .start now member active
  | cancel => exact .cancel
  | skip now member cancelling => exact .skip now member cancelling
  | finish now member invoked same ends => exact .finish now member invoked same (hbodies ends)
  | abandon now member aborted => exact .abandon now member aborted
  | abort cancelling => exact .abort cancelling

theorem Reachable.mono (hbodies : ∀ {i ending}, bodies i ending → bodies' i ending)
    (h : Reachable p bodies params d) : Reachable p bodies' params d :=
  Relation.ReflTransGen.mono (fun _ _ hs => hs.mono hbodies) _ _ h

/-- The bodies of a run may be taken to end as the log says. -/
theorem Logged.reachable (h : Logged p bodies params log d) :
    Reachable p (fun i ending => bodies i ending ∧ (i.task, ending) ∈ log) params d := by
  induction h with
  | start => exact .refl
  | quiet before step ih => exact ih.tail (step.mono False.elim)
  | finish before now member invoked same ends ih =>
    refine (ih.mono fun hi => ⟨hi.1, List.mem_append_left _ hi.2⟩).tail ?_
    exact .finish now member invoked same ⟨ends, by simp [same]⟩

/-- Every run has a log. -/
theorem Reachable.exists_log (h : Reachable p bodies params d) :
    ∃ log, Logged p bodies params log d := by
  induction h with
  | refl => exact ⟨[], .start⟩
  | tail _ hs ih =>
    obtain ⟨log, hlog⟩ := ih
    cases hs with
    | finish now member invoked same ends => exact ⟨_, hlog.finish now member invoked same ends⟩
    | resolve now member active => exact ⟨log, hlog.quiet (.resolve now member active)⟩
    | start now member active => exact ⟨log, hlog.quiet (.start now member active)⟩
    | cancel => exact ⟨log, hlog.quiet .cancel⟩
    | skip now member cancelling => exact ⟨log, hlog.quiet (.skip now member cancelling)⟩
    | abandon now member aborted => exact ⟨log, hlog.quiet (.abandon now member aborted)⟩
    | abort cancelling => exact ⟨log, hlog.quiet (.abort cancelling)⟩

theorem Change.tasks (hc : Change p bodies d d') :
    (∀ t ∈ d'.tasks, t ∈ d.tasks ∨ t = d.spawned) ∧ d.spawned ≤ d'.spawned := by
  cases hc with
  | launch =>
    refine ⟨fun t ht => ?_, Nat.le_succ _⟩
    simpa [spawn] using ht
  | leave => exact ⟨fun t ht => .inl (List.mem_of_mem_erase ht), Nat.le_refl _⟩
  | _ => exact ⟨fun t ht => .inl ht, Nat.le_refl _⟩

/-- What has been joined is neither among the tasks nor will it be spawned again. -/
theorem Logged.joined (h : Logged p bodies params log d) :
    (log.map (·.1)).Nodup ∧ ∀ t ∈ log.map (·.1), t ∉ d.tasks ∧ t < d.spawned := by
  induction h with
  | start => exact ⟨.nil, fun _ ht => nomatch ht⟩
  | quiet before step ih =>
    obtain ⟨hnodup, hgone⟩ := ih
    obtain ⟨htasks, hspawned⟩ := (step.change before.reachable.ledger).tasks
    refine ⟨hnodup, fun t ht => ⟨fun hmem => ?_, Nat.lt_of_lt_of_le (hgone t ht).2 hspawned⟩⟩
    rcases htasks t hmem with hmem | rfl
    · exact (hgone t ht).1 hmem
    · exact Nat.lt_irrefl _ (hgone _ ht).2
  | @finish log d task ending i before now member invoked same ends ih =>
    obtain ⟨hnodup, hgone⟩ := ih
    have hl := before.reachable.ledger
    have hchange : Change p bodies d _ :=
      change_finish hl now member invoked same (.inr ⟨ending, rfl, ends⟩)
    obtain ⟨-, hspawned⟩ := hchange.tasks
    have hnew : task ∉ log.map (·.1) := fun ht => (hgone task ht).1 member
    rw [List.map_append, List.map_singleton, ← List.concat_eq_append]
    refine ⟨hnodup.concat hnew, fun t ht => ?_⟩
    rw [(finish_frame p now d task _).1, List.concat_eq_append, List.mem_append, List.mem_singleton] at *
    rcases ht with ht | rfl
    · exact ⟨fun hmem => (hgone t ht).1 (List.mem_of_mem_erase hmem),
        Nat.lt_of_lt_of_le (hgone t ht).2 hspawned⟩
    · exact ⟨hl.tasks_nodup.not_mem_erase, Nat.lt_of_lt_of_le (same ▸ hl.invocation_lt invoked) hspawned⟩

end Workflow.Drive
