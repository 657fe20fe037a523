import Workflow.Proofs.Manifest.Typed
import Workflow.Proofs.Schedule.Exit
import Workflow.Proofs.Schedule.History
import Workflow.Proofs.Schedule.Typing

/-!
# What a sealed pipeline comes to

When all bodies are available and deliver what is declared, a node of a sealed pipeline fails only if
it is not feasible, and such a node never succeeds. If every node is feasible, a run that is not
cancelled ends with every node succeeded, or skipped because a condition at it or above it does not
hold.
-/
namespace Workflow
variable {p : Plan} {bodies : Bodies} {params supplied : Dict Scalar} {id : String}
  {n : ManifestNode}

/-- A body has returned, and with a value for every declared output that passes for its type. -/
def ManifestNode.Delivered (n : ManifestNode) (ending : Ending) : Prop :=
  ∃ outputs, ending = .returned outputs ∧
    ∀ o ∈ n.outputs, ∃ v w, outputs.get? o.name = some v ∧ o.dataType.coerce v = .ok w

/-- Every node has a body, and all bodies deliver what is declared. -/
structure Plan.Served (p : Plan) (bodies : Bodies) : Prop where
  available : ∀ n ∈ p.manifest.nodes, p.resolveBody n.id n.body = .ok ()
  delivered : ∀ {i ending n}, bodies i ending → p.manifest.node? i.context.node = some n →
    n.Delivered ending

theorem ManifestNode.Delivered.exists_results {ending : Ending} (h : n.Delivered ending)
    (hnodup : (n.outputs.map (·.name)).Nodup) : ∃ values, n.results ending = .ok values := by
  obtain ⟨outputs, rfl, hall⟩ := h
  exact exists_checkOutputs hnodup hall

namespace Drive
variable {d d' : Drive} {log : List (Nat × Ending)}

/-! ## Failures -/

section
variable (hm : p.manifest.Coherent) (hg : p.manifest.Grounded) (hp : p.Proper)
  (hbind : bindParameters p.manifest.parameters supplied = .ok params)
include hm hg hp hbind

theorem Reachable.feasible_of_succeeded (h : Reachable p bodies params d)
    (hn : p.manifest.node? id = some n) (hst : d.table.status? id = some .succeeded) :
    p.manifest.Feasible n := by
  have hcleared := h.admitted.cleared hn hst (by decide) (by decide)
  obtain ⟨s, hs, hst⟩ := NodeTable.status?_eq_some_iff.mp hst
  obtain ⟨j, hj, rfl, ending, -, hresults⟩ := h.made id n s hn hs hst
  -- the body got its inputs when it was started, and they can be read from the store ever since
  obtain ⟨n', hn', hinputs⟩ := h.received j hj
  cases hn.symm.trans hn'
  constructor
  case outputs_nodup =>
    obtain ⟨outputs, -, hchecked⟩ := returned_of_results hresults
    exact (checkOutputs_spec hchecked).1
  case input =>
    intro i hi
    obtain ⟨binding, t, hsource, hdeclares⟩ := hg.source n (Manifest.mem_of_node? hn).1 i hi
    obtain ⟨v, hv, hfits⟩ := h.exists_source_value hm hg.params_nodup hp hbind hn hcleared hi
      hsource hdeclares
    obtain ⟨w, hw⟩ := resolveInput_of_resolveInputs hinputs hi
    obtain ⟨v', hv', hcoerce⟩ := resolveInput_eq_ok_iff.mp hw
    cases hv.symm.trans hv'
    exact ⟨binding, t, hsource, hdeclares, (DataType.exists_coerce_iff hfits).mp ⟨w, hcoerce⟩⟩

theorem Reachable.exists_prepared (h : Reachable p bodies params d) (hserved : p.Served bodies)
    (hn : p.manifest.node? id = some n) (hcleared : Cleared p d id)
    (hfeasible : p.manifest.Feasible n) : ∃ inputs, prepare p n d.artifacts = .ok inputs := by
  unfold prepare
  rw [hserved.available n (Manifest.mem_of_node? hn).1]
  refine exists_resolveInputs fun i hi => ?_
  obtain ⟨binding, t, hsource, hdeclares, htakes⟩ := hfeasible.input i hi
  obtain ⟨v, hv, hfits⟩ := h.exists_source_value hm hg.params_nodup hp hbind hn hcleared hi
    hsource hdeclares
  obtain ⟨w, hw⟩ := (DataType.exists_coerce_iff hfits).mpr htakes
  exact ⟨w, resolveInput_eq_ok_iff.mpr ⟨v, hv, hw⟩⟩

theorem Settles.not_feasible {source : NodeStatus} {v : Verdict} {mark : Bool}
    (why : Settles p d n source v mark) (h : Reachable p bodies params d)
    (hserved : p.Served bodies) (hn : p.manifest.node? n.id = some n)
    (hsource : d.table.status? n.id = some source) (hv : v.status = .failed) :
    ¬ p.manifest.Feasible n := by
  intro hfeasible
  cases why with
  | refuse active cleared unresolved =>
    obtain ⟨holds, hholds⟩ := h.exists_holds hm hg.params_nodup hp hbind hn cleared
      (hg.gate n (Manifest.mem_of_node? hn).1)
    cases hholds.symm.trans unresolved
  | doom active room unprepared =>
    have hcleared := h.admitted.cleared hn hsource (by decide) (by decide)
    obtain ⟨inputs, hinputs⟩ := h.exists_prepared hm hg hp hbind hserved hn hcleared hfeasible
    cases hinputs.symm.trans unprepared
  | _ => cases hv

omit hm hg hp hbind in
theorem Leaves.not_feasible {i : Invocation} {v : Verdict} {mark : Bool} {store : ArtifactStore}
    (why : Leaves bodies d n i v mark store) (hserved : p.Served bodies)
    (hn : p.manifest.node? i.context.node = some n) (hv : v.status = .failed) :
    ¬ p.manifest.Feasible n := by
  intro hfeasible
  cases why with
  | fail ends results =>
    obtain ⟨values, hvalues⟩ := (hserved.delivered ends hn).exists_results hfeasible.outputs_nodup
    cases hvalues.symm.trans results
  | _ => cases hv

theorem Reachable.not_feasible_of_failed (h : Reachable p bodies params d)
    (hserved : p.Served bodies) (hn : p.manifest.node? id = some n)
    (hst : d.table.status? id = some .failed) : ¬ p.manifest.Feasible n := by
  refine h.induct (P := fun d => d.table.status? id = some .failed → ¬ p.manifest.Feasible n)
    ?_ ?_ hst
  · intro hst
    cases status_eq_pending_of_begin hst
  · intro d d' hr ih hc hst
    obtain ⟨-, rfl⟩ := Manifest.mem_of_node? hn
    obtain ⟨s, hs, hst⟩ := NodeTable.status?_eq_some_iff.mp hst
    -- a node fails when its condition is looked at or it is prepared, or when its body ends
    rcases hc.get?_cases hn hs (by simp [hst]) with hs | ⟨source, hsource, why⟩ |
      ⟨i, -, hnode, store, why⟩
    · exact ih (NodeTable.status?_eq_some_iff.mpr ⟨s, hs, hst⟩)
    · exact why.not_feasible hm hg hp hbind hr hserved hn hsource hst
    · exact why.not_feasible hserved (hnode ▸ hn) hst

end

/-! ## Skipped nodes -/

/-- The condition of a node was looked at and does not hold. -/
structure Declined (p : Plan) (d : Drive) (id : String) : Prop where
  cleared : Cleared p d id
  fails : ∃ n, p.manifest.node? id = some n ∧
    clausesHold d.artifacts n.condition.clauses = .ok false

theorem Declined.change (h : Declined p d id) (hl : Ledger p d) (hc : Change p bodies d d') :
    Declined p d' id := by
  obtain ⟨hcleared, n, hn, hfails⟩ := h
  exact ⟨hcleared.change hl hc, n, hn, clausesHold_mono hc.extends hfails⟩

/-- There is a node at or above this one that failed or whose condition does not hold. -/
def Cut (p : Plan) (d : Drive) (id : String) : Prop :=
  ∃ a, Relation.ReflTransGen p.graph.Edge a id ∧
    (d.table.status? a = some .failed ∨ Declined p d a)

theorem Cut.change (h : Cut p d id) (hl : Ledger p d) (hc : Change p bodies d d') :
    Cut p d' id := by
  obtain ⟨a, hway, hcause⟩ := h
  refine ⟨a, hway, hcause.imp (fun hfailed => ?_) fun hdeclined => hdeclined.change hl hc⟩
  obtain ⟨s, hs, hst⟩ := NodeTable.status?_eq_some_iff.mp hfailed
  have hs' := hc.get?_of_isTerminal hl hs (by rw [hst]; rfl)
  rw [NodeTable.status?_of_get? hs', hst]

theorem Change.active (hc : Change p bodies d d') (active : d'.cancelling = false) :
    d.cancelling = false := by
  cases hc with
  | cancel => cases active
  | _ => exact active

theorem Settles.cut {source : NodeStatus} {v : Verdict} {mark : Bool}
    (why : Settles p d n source v mark) (active : d.cancelling = false)
    (hn : p.manifest.node? n.id = some n)
    (hcut : ∀ x, d.table.status? x = some .skipped → Cut p d x) (hv : v.status = .skipped) :
    Cut p d n.id := by
  cases why with
  | block _ edge blocked =>
    rcases blocked with hfailed | hskipped
    · exact ⟨_, .single edge, .inl hfailed⟩
    · obtain ⟨a, hway, hcause⟩ := hcut _ hskipped
      exact ⟨a, hway.tail edge, hcause⟩
  | decline _ cleared fails => exact ⟨n.id, .refl, .inr ⟨cleared, n, hn, fails⟩⟩
  | drop cancelling => cases cancelling.symm.trans active
  | _ => cases hv

theorem Leaves.aborted_of_skipped {i : Invocation} {v : Verdict} {mark : Bool}
    {store : ArtifactStore} (why : Leaves bodies d n i v mark store) (hv : v.status = .skipped) :
    d.aborted = true := by
  cases why with
  | abandon aborted => exact aborted
  | _ => cases hv

/-- What is skipped without a cancellation has been cut off. -/
theorem Reachable.cut_of_skipped (h : Reachable p bodies params d) (active : d.cancelling = false)
    (hst : d.table.status? id = some .skipped) : Cut p d id := by
  refine h.induct (P := fun d => d.cancelling = false → ∀ id,
    d.table.status? id = some .skipped → Cut p d id) ?_ ?_ active id hst
  · intro _ id hst
    cases status_eq_pending_of_begin hst
  · intro d d' hr ih hc active' id hst
    have active := hc.active active'
    have hl := hr.ledger
    obtain ⟨s, hs, hskipped⟩ := NodeTable.status?_eq_some_iff.mp hst
    obtain ⟨n, hn⟩ := (hl.change hc).known hs
    suffices hcut : Cut p d id from hcut.change hl hc
    rcases hc.get?_cases hn hs (by simp [hskipped]) with hs | ⟨source, -, why⟩ |
      ⟨i, -, -, store, why⟩
    · exact ih active id (NodeTable.status?_eq_some_iff.mpr ⟨s, hs, hskipped⟩)
    · obtain ⟨-, rfl⟩ := Manifest.mem_of_node? hn
      exact why.cut active hn (ih active) hskipped
    · -- only the abortion of a body skips a node that runs, and a cancellation comes before it
      cases (hl.aborted (why.aborted_of_skipped hskipped)).symm.trans active

/-! ## The end of a run -/

theorem Logged.length_le (h : Logged p bodies params log d) :
    log.length ≤ p.manifest.nodes.length := by
  have hl := h.reachable.ledger
  -- a task is joined once, and a node is started once
  have hjoined : log.length ≤ d.invocations.length := by
    obtain ⟨hnodup, hgone⟩ := h.joined
    have hsub : log.map (·.1) ⊆ List.range d.spawned := fun t ht =>
      List.mem_range.mpr (hgone t ht).2
    simpa [hl.counted] using (hnodup.subperm hsub).length_le
  exact hjoined.trans hl.length_invocations_le

/-- If nodes do not fail, the loop ends with every node succeeded or cut off. -/
theorem Head.exit_of_not_failed (hp : p.Proper) (hw : 1 ≤ p.workers) (h : Head p bodies params d)
    {now : Instant} (active : d.cancelling = false) (hidle : (d.pass p false now).isIdle = true)
    (hnot : ∀ x, (d.pass p false now).table.status? x ≠ some .failed) (hid : id ∈ p.order) :
    (d.pass p false now).table.status? id = some .succeeded ∨
    (d.pass p false now).table.status? id = some .skipped ∧
      ∃ a, Relation.ReflTransGen p.graph.Edge a id ∧ Declined p (d.pass p false now) a := by
  have hpass := h.reachable.steps (pass_steps false now (by simp [active]))
  have hactive : (d.pass p false now).cancelling = false :=
    (Framed.cancelling false).pass now (fun _ => active) nofun
  have hstranded : ¬ Stranded p (resolvePending p now d) := by
    rintro ⟨a, b, hab, ha, -⟩
    obtain ⟨hsteps, hresolved⟩ := resolvePending_steps p bodies now active
    obtain ⟨hready, -⟩ := startReady_of_idle hp (h.reachable.steps hsteps) hresolved hw
      (List.isEmpty_iff.mp hidle) (hp.source_mem_order hab)
    exact hnot a (hready ha).1
  obtain ⟨s, hs, hterm⟩ := (h.exit_active_iff hp hw active hidle).mpr hstranded id hid
  cases s with
  | succeeded => exact .inl hs
  | failed => exact absurd hs (hnot id)
  | skipped =>
    obtain ⟨a, hway, hcause⟩ := hpass.cut_of_skipped hactive hs
    exact .inr ⟨hs, a, hway, hcause.resolve_left (hnot a)⟩
  | _ => cases hterm

/-- In every run of a sealed pipeline whose bodies are there and deliver what is declared, only nodes
that are not feasible fail, and they never succeed; and no run joins more tasks than there are nodes.
If all nodes are feasible, a run that is not cancelled ends with every node succeeded, or skipped
since a condition at it or above it does not hold. Nodes are feasible if the definitions have
distinct names and the defaults of unbound inputs are of use, which sealing does not check. -/
theorem progress_of_feasible {ok : TaskDefinition → Prop} {b : Builder} {pipeline : Pipeline}
    (hb : b.Reached ok) (hseal : b.seal = .ok pipeline)
    (hcompile : pipeline.compile = .ok p.manifest) (hp : p.Proper) (hw : 1 ≤ p.workers)
    (hbind : bindParameters p.manifest.parameters supplied = .ok params)
    (hserved : p.Served bodies) :
    (∀ d id n, Reachable p bodies params d → p.manifest.node? id = some n →
      (d.table.status? id = some .failed → ¬ p.manifest.Feasible n) ∧
      (d.table.status? id = some .succeeded → p.manifest.Feasible n)) ∧
    (∀ log d, Logged p bodies params log d → log.length ≤ p.manifest.nodes.length) ∧
    ((∀ n ∈ p.manifest.nodes, p.manifest.Feasible n) → ∀ d now, Head p bodies params d →
      d.cancelling = false → (d.pass p false now).isIdle = true → ∀ n ∈ p.manifest.nodes,
        (d.pass p false now).table.status? n.id = some .succeeded ∨
        (d.pass p false now).table.status? n.id = some .skipped ∧
          ∃ a, Relation.ReflTransGen p.manifest.graph.Edge a n.id ∧
            Declined p (d.pass p false now) a) ∧
    ((∀ t ∈ b.nodes, t.Usable) → ∀ n ∈ p.manifest.nodes, p.manifest.Feasible n) := by
  have hm := Manifest.coherent_of_compile hb hseal hcompile
  have hg := Manifest.grounded_of_compile hb hseal hcompile
  refine ⟨?_, fun log d h => h.length_le, ?_, Manifest.feasible_of_usable hb hseal hcompile⟩
  · intro d id n h hn
    exact ⟨h.not_feasible_of_failed hm hg hp hbind hserved hn,
      h.feasible_of_succeeded hm hg hp hbind hn⟩
  · intro hfeasible d now h active hidle n hn
    have hpass := h.reachable.steps (pass_steps false now (by simp [active]))
    -- where all nodes are feasible none fails, and only conditions cut nodes off
    have hnot (x : String) : (d.pass p false now).table.status? x ≠ some .failed := by
      intro hfailed
      obtain ⟨s, hs, -⟩ := NodeTable.status?_eq_some_iff.mp hfailed
      obtain ⟨k, hk⟩ := hpass.ledger.known hs
      exact hpass.not_feasible_of_failed hm hg hp hbind hserved hk hfailed
        (hfeasible k (Manifest.mem_of_node? hk).1)
    rw [← hp.graph_eq]
    exact h.exit_of_not_failed hp hw active hidle hnot
      (hp.mem_order.mpr (List.mem_map.mpr ⟨n, hn, rfl⟩))

/-- Two tasks, of which the second waits for a truth value of the first. The int input of the first
is not bound and has a default, which may be a text. -/
def preset (mistyped : Bool) : Builder :=
  (((Builder.ofName "preset" none).define "a"
      { TaskDefinition.ofBody "test" (.registered "test") with
        inputs := [⟨"x", .int, some (if mistyped then .text "three" else .int 3)⟩]
        outputs := [⟨"out", .bool⟩] } [] .empty).1.openScope ⟨.output "a" "out", .bool true⟩).define
    "b" (TaskDefinition.ofBody "act" (.registered "act")) [] .empty |>.1

def presetPipeline (mistyped : Bool) : Pipeline :=
  ⟨(preset mistyped).name, (preset mistyped).description, (preset mistyped).params,
    (preset mistyped).nodes, edgesOf (preset mistyped).nodes, (preset mistyped).registry⟩

def presetPlan (mistyped : Bool) : Plan where
  manifest := (presetPipeline mistyped).plainManifest
  graph := ⟨["a", "b"], [("a", "b")]⟩
  order := ["a", "b"]
  run := "r"
  workers := 1
  resolveBody := fun _ _ => .ok ()
  location := fun _ _ => ""

/-- Every body returns a truth value that says no. -/
def presetBodies : Bodies := fun _ ending =>
  ending = .returned (Dict.empty.insert "out" (.scalar (.bool false)))

theorem preset_built (mistyped : Bool) :
    (preset mistyped).Reached TaskDefinition.DistinctNames ∧
    (preset mistyped).seal = .ok (presetPipeline mistyped) ∧
    (presetPipeline mistyped).compile = .ok (presetPlan mistyped).manifest ∧
    (presetPlan mistyped).Proper := by
  have hreached : (preset mistyped).Reached TaskDefinition.DistinctNames :=
    .define (.openScope (.define (.ofName _ _) _
      ⟨List.nodup_singleton _, List.nodup_singleton _⟩ _ _) _) _ ⟨.nil, .nil⟩ _ _
  have hseal : (preset mistyped).seal = .ok (presetPipeline mistyped) := by cases mistyped <;> rfl
  have hcompile : (presetPipeline mistyped).compile = .ok (presetPlan mistyped).manifest :=
    Pipeline.compile_of_sorted (by cases mistyped <;> rfl) (by cases mistyped <;> decide)
      (by cases mistyped <;> decide) (by cases mistyped <;> decide)
  exact ⟨hreached, hseal, hcompile, rfl, by cases mistyped <;> rfl⟩

theorem preset_served (mistyped : Bool) : (presetPlan mistyped).Served presetBodies := by
  refine ⟨fun _ _ => rfl, fun {i ending n} hends hn => ⟨_, hends, fun o ho => ?_⟩⟩
  have hout : ∀ n ∈ (presetPlan mistyped).manifest.nodes, ∀ o ∈ n.outputs,
      o.name = "out" ∧ o.dataType = .bool := by
    cases mistyped <;> decide
  obtain ⟨hname, htype⟩ := hout n (Manifest.mem_of_node? hn).1 o ho
  rw [hname, htype]
  exact ⟨_, _, rfl, rfl⟩

/-- The first body has said no. -/
def presetDone : Drive :=
  ((begin (presetPlan false).manifest .empty).pass (presetPlan false) false ⟨0, 0⟩).finish
    (presetPlan false) ⟨1, 0⟩ 0
    (.ended (.returned (Dict.empty.insert "out" (.scalar (.bool false)))))

theorem preset_progresses :
    Head (presetPlan false) presetBodies .empty presetDone ∧
    (presetDone.pass (presetPlan false) false ⟨2, 0⟩).isIdle = true ∧
    (presetDone.pass (presetPlan false) false ⟨2, 0⟩).table.status? "a" = some .succeeded ∧
    ∃ a, Relation.ReflTransGen (presetPlan false).manifest.graph.Edge a "b" ∧
      Declined (presetPlan false) (presetDone.pass (presetPlan false) false ⟨2, 0⟩) a := by
  obtain ⟨hb, hseal, hcompile, hp⟩ := preset_built false
  have hentry : (0, "a") ∈
      ((begin (presetPlan false).manifest .empty).pass (presetPlan false) false ⟨0, 0⟩).running := by
    decide
  have hdone : Head (presetPlan false) presetBodies .empty presetDone :=
    Head.finish .start _ (by decide) hentry fun _ _ => rfl
  have hidle : (presetDone.pass (presetPlan false) false ⟨2, 0⟩).isIdle = true := by decide
  have hbind : bindParameters (presetPlan false).manifest.parameters .empty = .ok .empty := rfl
  obtain ⟨-, -, hexit, hfeasible⟩ :=
    progress_of_feasible hb hseal hcompile hp (by decide) hbind (preset_served false)
  -- the default is an int, so that nothing but the condition can stop the second node
  have husable : ∀ t ∈ (preset false).nodes, t.Usable := by
    have hnames : ∀ t ∈ (preset false).nodes,
        (t.definition.inputs.map (·.name)).Nodup ∧ (t.definition.outputs.map (·.name)).Nodup ∧
        ∀ i ∈ t.definition.inputs, i.dataType = .int ∧ i.defaultValue = some (.int 3) := by
      decide
    intro t ht
    obtain ⟨hinputs, houtputs, hdefaults⟩ := hnames t ht
    refine ⟨⟨hinputs, houtputs⟩, fun i hi _ value hvalue => ?_⟩
    obtain ⟨htype, hdefault⟩ := hdefaults i hi
    obtain rfl := Option.some.inj (hvalue.symm.trans hdefault)
    rw [htype]
    rfl
  obtain ⟨n, hn, hid⟩ : ∃ n ∈ (presetPlan false).manifest.nodes, n.id = "b" := by decide
  have hlast := hexit (hfeasible husable) _ ⟨2, 0⟩ hdone rfl hidle n hn
  rw [hid] at hlast
  have hnot : (presetDone.pass (presetPlan false) false ⟨2, 0⟩).table.status? "b" ≠
      some .succeeded := by decide
  obtain ⟨-, hcause⟩ := hlast.resolve_left hnot
  exact ⟨hdone, hidle, by decide, hcause⟩

/-- Sealing lets a default through with which the first node fails in every run. -/
theorem preset_fails :
    (preset true).Reached TaskDefinition.DistinctNames ∧
    (preset true).seal = .ok (presetPipeline true) ∧
    (presetPipeline true).compile = .ok (presetPlan true).manifest ∧ (presetPlan true).Proper ∧
    bindParameters (presetPlan true).manifest.parameters .empty = .ok .empty ∧
    (presetPlan true).Served presetBodies ∧
    Head (presetPlan true) presetBodies .empty (begin (presetPlan true).manifest .empty) ∧
    ((begin (presetPlan true).manifest .empty).pass (presetPlan true) false ⟨0, 0⟩).isIdle = true ∧
    ((begin (presetPlan true).manifest .empty).pass (presetPlan true) false ⟨0, 0⟩).table.status?
      "a" = some .failed := by
  obtain ⟨hb, hseal, hcompile, hp⟩ := preset_built true
  exact ⟨hb, hseal, hcompile, hp, rfl, preset_served true, .start, rfl, rfl⟩

end Drive
end Workflow
