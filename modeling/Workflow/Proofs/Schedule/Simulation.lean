import Workflow.Proofs.Schedule.Admission
import Workflow.Proofs.Schedule.Sequential

/-!
# A drive decides as the reference does

Whatever a drive has decided, with any number of workers, in any order of endings and up to any
cancellation, is what the sequential reference decides.
-/
namespace Workflow
variable {p : Plan} {params : Dict Scalar} {work : String → Dict Value → Ending} {id : String}
  {n : ManifestNode}

/-- Bodies that end as `work` tells for their node and inputs. -/
def Bodies.ofWork (work : String → Dict Value → Ending) : Bodies :=
  fun i ending => ending = work i.context.node i.context.inputs

namespace Drive
variable {d d' : Drive}

/-- A drive follows the reference: terminal nodes have the verdict of the reference unless the
cancellation ended them, and bodies have got the inputs that the reference gives them. -/
structure Follows (p : Plan) (work : String → Dict Value → Ending) (params : Dict Scalar)
    (d : Drive) : Prop where
  terminal : ∀ {id s}, d.table.get? id = some s → s.status.isTerminal = true →
    s.cancelled = false → (p.sequential work params).verdicts.get? id = some s.verdict
  invoked : ∀ {i n}, i ∈ d.invocations → p.manifest.node? i.context.node = some n →
    (p.sequential work params).verdicts.get? i.context.node =
      some (n.conclude (work i.context.node i.context.inputs))

/-- The reference agrees on a terminal predecessor as long as no cancellation has been seen or the
predecessor has succeeded. -/
theorem Follows.verdict_of_status (h : Follows p work params d) (hl : Ledger p d) {s : NodeStatus}
    (hs : d.table.status? id = some s) (ht : s.isTerminal = true)
    (hwhole : d.cancelling = false ∨ s = .succeeded) :
    ∃ v, (p.sequential work params).verdicts.get? id = some v ∧ d.verdict? id = some v ∧
      v.status = s := by
  obtain ⟨state, hstate, rfl⟩ := NodeTable.status?_eq_some_iff.mp hs
  have hmark : state.cancelled = false := by
    by_contra hc
    obtain ⟨hskipped, hcancelling⟩ := hl.marked hstate (by simpa using hc)
    rcases hwhole with hactive | hdone
    · simp [hactive] at hcancelling
    · simp [hdone] at hskipped
  refine ⟨state.verdict, h.terminal hstate ht hmark, ?_, rfl⟩
  rw [verdict?, hstate, Option.map_some]

/-- When the predecessors of a node have succeeded the reference assesses it with the same reads. -/
theorem Follows.assess_eq (h : Follows p work params d) (hl : Ledger p d)
    (hstore : Stored p.manifest params d.verdict? d.artifacts) (hm : p.manifest.Coherent)
    (hp : p.Proper) (hn : p.manifest.node? id = some n) (hcleared : Cleared p d id) :
    (p.sequential work params).verdicts.get? id = some (p.assess work n d.artifacts) := by
  obtain ⟨s, hfinal, hstored, hagree⟩ := sequential_verdict work params hm hp hn
  have hpred : ∀ dep, p.graph.Edge dep id → ∃ v, s.verdicts.get? dep = some v ∧
      d.verdict? dep = some v ∧ v.status = .succeeded := by
    intro dep he
    obtain ⟨v, hv, hd, hst⟩ := h.verdict_of_status hl (hcleared dep he) rfl (.inr rfl)
    exact ⟨v, (hagree dep he).trans hv, hd, hst⟩
  have hsame : ∀ dep, p.manifest.graph.Edge dep id → s.verdicts.get? dep = d.verdict? dep := by
    intro dep he
    obtain ⟨v, hv, hd, -⟩ := hpred dep (hp.graph_eq ▸ he)
    rw [hv, hd]
  -- the node reads from its predecessors only, and on these the account and the drive agree
  have hclauses := clausesHold_of_preds hstored hstore hsame hm hn
  have hprepare := prepare_of_preds (p := p) hstored hstore hsame hm hn
  obtain ⟨-, rfl⟩ := Manifest.mem_of_node? hn
  have hall : ∀ dep ∈ p.graph.dependencies n.id,
      (s.verdicts.get? dep).map (·.status) = some .succeeded := by
    intro dep hdep
    obtain ⟨v, hv, -, hst⟩ := hpred dep (TaskGraph.mem_dependencies.mp hdep)
    rw [hv, Option.map_some, hst]
  rw [hfinal, Plan.judge, if_pos hall, Plan.assess, hclauses, hprepare]
  rfl

/-- Below a node that failed or was skipped the reference skips. -/
theorem Follows.skipped_of_blocked (h : Follows p work params d) (hl : Ledger p d)
    (hm : p.manifest.Coherent) (hp : p.Proper) (hn : p.manifest.node? id = some n)
    (active : d.cancelling = false) {dep : String} (edge : p.graph.Edge dep id)
    (blocked : d.table.status? dep = some .failed ∨ d.table.status? dep = some .skipped) :
    (p.sequential work params).verdicts.get? id = some ⟨.skipped, .empty⟩ := by
  obtain ⟨s, hfinal, -, hagree⟩ := sequential_verdict work params hm hp hn
  have hbad : ∃ v, s.verdicts.get? dep = some v ∧ v.status ≠ .succeeded := by
    rcases blocked with hs | hs
    · obtain ⟨v, hv, -, hst⟩ := h.verdict_of_status hl hs rfl (.inl active)
      exact ⟨v, (hagree dep edge).trans hv, by simp [hst]⟩
    · obtain ⟨v, hv, -, hst⟩ := h.verdict_of_status hl hs rfl (.inl active)
      exact ⟨v, (hagree dep edge).trans hv, by simp [hst]⟩
  obtain ⟨v, hv, hne⟩ := hbad
  obtain ⟨-, rfl⟩ := Manifest.mem_of_node? hn
  rw [hfinal, Plan.judge, if_neg]
  intro hall
  have hdep := hall dep (TaskGraph.mem_dependencies.mpr edge)
  rw [hv, Option.map_some] at hdep
  exact hne (Option.some.inj hdep)

/-- A node that moves on without a start comes to what the reference says. -/
theorem Follows.verdict_of_settles (h : Follows p work params d) (hl : Ledger p d)
    (ha : Admitted p d) (hstore : Stored p.manifest params d.verdict? d.artifacts)
    (hm : p.manifest.Coherent) (hp : p.Proper) (hn : p.manifest.node? id = some n)
    {source : NodeStatus} {v : Verdict} (hs : d.table.status? id = some source)
    (why : Settles p d n source v false) (hterm : v.status.isTerminal = true) :
    (p.sequential work params).verdicts.get? id = some v := by
  obtain ⟨-, rfl⟩ := Manifest.mem_of_node? hn
  have hassess (hcleared : Cleared p d n.id) := h.assess_eq hl hstore hm hp hn hcleared
  cases why with
  | block active edge blocked => exact h.skipped_of_blocked hl hm hp hn active edge blocked
  | allow => cases hterm
  | decline active cleared fails =>
    rw [hassess cleared, Plan.assess, fails]
  | refuse active cleared unresolved =>
    rw [hassess cleared, Plan.assess, unresolved]
  | doom active room unprepared =>
    have hholds := clausesHold_eq_ok_true_iff.mpr (ha.holds hn hs (.inl rfl))
    rw [hassess (ha.cleared hn hs (by decide) (by decide)), Plan.assess, hholds]
    simp only [unprepared]

/-- A body that ends by itself ends its node as the reference says. -/
theorem Follows.verdict_of_leaves (h : Follows p work params d) {i : Invocation}
    (hn : p.manifest.node? i.context.node = some n) (hi : i ∈ d.invocations) {v : Verdict}
    {store : ArtifactStore} (why : Leaves (.ofWork work) d n i v false store) :
    (p.sequential work params).verdicts.get? i.context.node = some v := by
  rw [h.invoked hi hn, ManifestNode.conclude]
  cases why with
  | fail ends results =>
    rw [← ends, results]
  | succeed ends results =>
    rw [← ends, results]

theorem Follows.change (h : Follows p work params d) (hl : Ledger p d) (ha : Admitted p d)
    (hstore : Stored p.manifest params d.verdict? d.artifacts) (hm : p.manifest.Coherent)
    (hp : p.Proper) (hc : Change p (.ofWork work) d d') : Follows p work params d' := by
  -- verdicts come about when a node settles or leaves, inputs are handed over at a launch
  cases hc with
  | idle => exact h
  | cancel => exact ⟨h.terminal, h.invoked⟩
  | abort => exact ⟨h.terminal, h.invoked⟩
  | settle node status why =>
    refine ⟨fun hx hterm hmark => ?_, h.invoked⟩
    rw [get?_put] at hx
    split_ifs at hx with he
    · cases hx
      exact he ▸ h.verdict_of_settles hl ha hstore hm hp node status (hmark ▸ why) hterm
    · exact h.terminal hx hterm hmark
  | @launch id n inputs s node status active room prepared verdict unmarked =>
    obtain ⟨-, rfl⟩ := Manifest.mem_of_node? node
    constructor
    · intro x t hx hterm hmark
      simp only [spawn, get?_put] at hx
      split_ifs at hx with he
      · cases hx
        have hrunning : s.status = .running := congrArg Verdict.status verdict
        rw [hrunning] at hterm
        cases hterm
      · exact h.terminal hx hterm hmark
    · intro i k hi hk
      rcases List.mem_cons.mp hi with rfl | hi
      · cases node.symm.trans hk
        have hholds := clausesHold_eq_ok_true_iff.mpr (ha.holds node status (.inl rfl))
        have hcleared := ha.cleared node status (by decide) (by decide)
        refine (h.assess_eq hl hstore hm hp node hcleared).trans ?_
        rw [Plan.assess, hholds]
        simp only [prepared]
        rfl
      · exact h.invoked hi hk
  | leave node entry invoked task_eq node_eq why =>
    subst node_eq
    refine ⟨fun hx hterm hmark => ?_, h.invoked⟩
    rw [get?_put] at hx
    split_ifs at hx with he
    · cases hx
      exact he ▸ h.verdict_of_leaves node invoked (hmark ▸ why)
    · exact h.terminal hx hterm hmark

theorem Reachable.follows (hm : p.manifest.Coherent) (hp : p.Proper)
    (h : Reachable p (.ofWork work) params d) : Follows p work params d := by
  refine h.induct ⟨fun hs hterm => ?_, fun hi => nomatch hi⟩ fun hr hf hc =>
    hf.change hr.ledger hr.admitted (hr.stored hm) hm hp hc
  rw [eq_pending_of_begin hs] at hterm
  cases hterm

/-- In a run of a pipeline that has been built, sealed and compiled, with bodies whose endings depend
on their nodes and inputs alone, every terminal node that was not cancelled has the status and the
outputs of the sequential reference. -/
theorem Reachable.verdict_eq_sequential {ok : TaskDefinition → Prop} {b : Builder}
    {pipeline : Pipeline} (hb : b.Reached ok) (hseal : b.seal = .ok pipeline)
    (hcompile : pipeline.compile = .ok p.manifest) (hp : p.Proper)
    (h : Reachable p (.ofWork work) params d) {s : NodeState} (hs : d.table.get? id = some s)
    (hterm : s.status.isTerminal = true) (hmark : s.cancelled = false) :
    (p.sequential work params).verdicts.get? id = some ⟨s.status, s.outputs⟩ := by
  have hm := Manifest.coherent_of_compile hb hseal hcompile
  exact (h.follows hm hp).terminal hs hterm hmark

/-- A pipeline of two tasks, of which the second reads what the first makes. -/
def chain : Builder :=
  (((Builder.ofName "chain" none).define "a"
      { TaskDefinition.ofBody "make" (.registered "make") with outputs := [⟨"out", .int⟩] }
      [] .empty).1.define "b"
    { TaskDefinition.ofBody "take" (.registered "take") with inputs := [⟨"in", .int, none⟩] }
    [("in", .output "a" "out")] .empty).1

def chainPipeline : Pipeline :=
  ⟨chain.name, chain.description, chain.params, chain.nodes, edgesOf chain.nodes, chain.registry⟩

def chainPlan : Plan where
  manifest := chainPipeline.plainManifest
  graph := ⟨["a", "b"], [("a", "b")]⟩
  order := ["a", "b"]
  run := "r"
  workers := 2
  resolveBody := fun _ _ => .ok ()
  location := fun _ _ => ""

/-- The first task makes a number and the second one panics. -/
def chainWork (node : String) (_ : Dict Value) : Ending :=
  if node = "a" then .returned (Dict.empty.insert "out" (.scalar (.int 7))) else .panicked

theorem chain_compile : chainPipeline.compile = .ok chainPlan.manifest :=
  Pipeline.compile_of_sorted rfl (by decide) (by decide) (by decide)

def chainHalf : Drive :=
  ((begin chainPlan.manifest .empty).pass chainPlan false ⟨0, 0⟩).finish chainPlan ⟨1, 0⟩ 0
    (.ended (chainWork "a" .empty))

def chainDone : Drive :=
  (chainHalf.pass chainPlan false ⟨2, 0⟩).finish chainPlan ⟨3, 0⟩ 1
    (.ended (chainWork "b" .empty))

theorem chainDone_head : Head chainPlan (.ofWork chainWork) .empty chainDone := by
  have hends (id : String) (i : Invocation) (hi : i.context.node = id) :
      Bodies.ofWork chainWork i (chainWork id .empty) := by
    subst hi
    rfl
  have ha : (0, "a") ∈ ((begin chainPlan.manifest .empty).pass chainPlan false ⟨0, 0⟩).running := by
    decide
  have hhalf : Head chainPlan (.ofWork chainWork) .empty chainHalf :=
    Head.finish .start _ (by decide) ha (hends "a")
  have hb : (1, "b") ∈ (chainHalf.pass chainPlan false ⟨2, 0⟩).running := by decide
  exact Head.finish hhalf _ (by decide) hb (hends "b")

theorem chain_follows : ∃ s, chainDone.table.get? "a" = some s ∧
    s.outputs = Dict.empty.insert "out" (.scalar (.int 7)) ∧
    (chainPlan.sequential chainWork .empty).verdicts.get? "a" = some ⟨.succeeded, s.outputs⟩ ∧
    (chainPlan.sequential chainWork .empty).verdicts.get? "b" = some ⟨.failed, .empty⟩ := by
  have hb : chain.Reached fun _ => True :=
    .define (.define (.ofName _ _) _ trivial _ _) _ trivial _ _
  have hseal : chain.seal = .ok chainPipeline := rfl
  have hp : chainPlan.Proper := ⟨rfl, rfl⟩
  have hverdict {id : String} {s : NodeState} (hs : chainDone.table.get? id = some s) :=
    Reachable.verdict_eq_sequential hb hseal chain_compile hp chainDone_head.reachable hs
  have ha : chainDone.table.get? "a" = some _ := rfl
  have hb' : chainDone.table.get? "b" = some _ := rfl
  exact ⟨_, ha, rfl, hverdict ha rfl rfl, hverdict hb' rfl rfl⟩

end Drive
end Workflow
