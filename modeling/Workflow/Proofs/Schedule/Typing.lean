import Workflow.Proofs.Manifest.Typed
import Workflow.Proofs.Schedule.Admission
import Workflow.Proofs.Schedule.Reads
import Workflow.Proofs.Value.Fits

/-!
# What was sealed does not go wrong

In a run of a typed manifest every value in the store has its declared type. A bound input is
therefore always found and coerced when a node is prepared, and a condition is always decided when it
is looked at.
-/
namespace Workflow
variable {p : Plan} {bodies : Bodies} {params supplied : Dict Scalar} {id : String}
  {n : ManifestNode}

/-- The value that a binding stands for. -/
def Binding.value? (store : ArtifactStore) : Binding → Option Value
  | .param name => store.get? (.param name)
  | .output task result => store.get? (.output task result)
  | .literal value => some (.scalar value)

theorem inputSource?_eq {store : ArtifactStore} {i : NodeInput} {binding : Binding}
    (h : i.source? = some binding) : inputSource? store i = binding.value? store := by
  unfold NodeInput.source? at h
  unfold inputSource?
  cases hbinding : i.binding with
  | none =>
    rw [hbinding] at h
    obtain ⟨value, hvalue, rfl⟩ := Option.map_eq_some_iff.mp h
    rw [hvalue]
    rfl
  | some other =>
    rw [hbinding] at h
    cases h
    cases binding <;> rfl

/-- Only a binding leads to the output of another node. -/
theorem binding_of_source? {i : NodeInput} {task result : String}
    (h : i.source? = some (.output task result)) : i.binding = some (.output task result) := by
  unfold NodeInput.source? at h
  cases hbinding : i.binding with
  | none => simp [hbinding] at h
  | some binding => simpa [hbinding] using h

theorem value?_ofGate {store : ArtifactStore} (g : GateRef) :
    (Binding.ofGate g).value? store = store.get? g.artifact := by
  cases g <;> rfl

/-- The results of a body have the declared types. -/
theorem fits_of_results {ending : Ending} {values : Dict Value}
    (h : n.results ending = .ok values) :
    ∀ o ∈ n.outputs, ∃ w, values.get? o.name = some w ∧ w.Fits o.dataType := by
  obtain ⟨outputs, -, hchecked⟩ := returned_of_results h
  obtain ⟨-, hall, -⟩ := checkOutputs_spec hchecked
  intro o ho
  obtain ⟨v, w, -, hcoerce, hw⟩ := hall o ho
  exact ⟨w, hw, DataType.fits_of_coerce hcoerce⟩

/-- A parameter that is bound to a scalar that passes for its type starts with a value of it. -/
theorem exists_seed?_of_bound {spec : ParameterSpec} {s s' : Scalar}
    (hcoerce : spec.dataType.coerceScalar s = .ok s') (hbound : params.get? spec.name = some s') :
    ∃ w, seed? params spec = some w ∧ w.Fits spec.dataType := by
  obtain ⟨w, hw⟩ := DataType.coerce_of_coerceScalar hcoerce
  refine ⟨w, ?_, DataType.fits_of_coerce hw⟩
  rw [seed?, hbound, Option.bind_some, hw]
  rfl

/-- Every declared parameter starts with a value of its type. -/
theorem fits_of_seed {m : Manifest} (hnodup : (m.parameters.map (·.name)).Nodup)
    (hbind : bindParameters m.parameters supplied = .ok params) {spec : ParameterSpec}
    (hspec : spec ∈ m.parameters) :
    ∃ w, (seedArtifacts m params).get? (.param spec.name) = some w ∧ w.Fits spec.dataType := by
  obtain ⟨s, s', hcoerce, hbound⟩ := get?_bindParameters hnodup hbind spec hspec
  obtain ⟨w, hseed, hfits⟩ := exists_seed?_of_bound hcoerce hbound
  refine ⟨w, ?_, hfits⟩
  rw [get?_seedArtifacts]
  cases hfound : m.parameters.findSome? fun spec' =>
      if ArtifactId.param spec.name = .param spec'.name then seed? params spec' else none with
  | none =>
    have hnone := List.findSome?_eq_none_iff.mp hfound spec hspec
    rw [if_pos rfl, hseed] at hnone
    cases hnone
  | some v =>
    obtain ⟨t, ht, htv⟩ := List.exists_of_findSome?_eq_some hfound
    split_ifs at htv with he
    have hname : t.name = spec.name := (ArtifactId.param_inj.mp he).symm
    rw [← htv, List.inj_on_of_nodup_map hnodup ht hspec hname, hseed]

namespace Drive
variable {d d' : Drive}

theorem Leaves.fits {i : Invocation} {v : Verdict} {mark : Bool} {store : ArtifactStore}
    (h : Leaves bodies d n i v mark store) (hv : v.status = .succeeded) :
    ∀ o ∈ n.outputs, ∃ w, v.outputs.get? o.name = some w ∧ w.Fits o.dataType := by
  cases h with
  | succeed ends results => exact fits_of_results results
  | _ => cases hv

/-- Nodes that have succeeded have outputs of the declared types. -/
def OutputsFit (p : Plan) (d : Drive) : Prop :=
  ∀ id n s, p.manifest.node? id = some n → d.table.get? id = some s → s.status = .succeeded →
    ∀ o ∈ n.outputs, ∃ w, s.outputs.get? o.name = some w ∧ w.Fits o.dataType

theorem OutputsFit.change (h : OutputsFit p d) (hc : Change p bodies d d') : OutputsFit p d' := by
  intro id n s hn hs hst
  rcases hc.get?_of_succeeded hn hs hst with hs | ⟨i, -, -, store, why⟩
  · exact h id n s hn hs hst
  · exact why.fits hst

theorem Reachable.outputsFit (h : Reachable p bodies params d) : OutputsFit p d := by
  refine h.induct ?_ fun _ ho hc => ho.change hc
  intro id n s _ hs hst
  rw [eq_pending_of_begin hs] at hst
  cases hst

/-- What a node is declared to read is there, with its declared type, once the predecessors of the
node have succeeded. -/
theorem Reachable.exists_value (h : Reachable p bodies params d) (hm : p.manifest.Coherent)
    (hnodup : (p.manifest.parameters.map (·.name)).Nodup)
    (hbind : bindParameters p.manifest.parameters supplied = .ok params)
    (hcleared : Cleared p d id) {binding : Binding}
    (hedge : ∀ {task result}, binding = .output task result → p.graph.Edge task id) {t : DataType}
    (hdeclares : p.manifest.Declares binding t) :
    ∃ v, binding.value? d.artifacts = some v ∧ v.Fits t := by
  have hstored := h.stored hm
  cases binding with
  | param name =>
    obtain ⟨spec, hspec, rfl, rfl⟩ := hdeclares
    obtain ⟨w, hw, hfits⟩ := fits_of_seed hnodup hbind hspec
    exact ⟨w, (hstored.param spec.name).trans hw, hfits⟩
  | output task result =>
    obtain ⟨k, hk, rfl, o, ho, rfl, rfl⟩ := hdeclares
    obtain ⟨k', hk'⟩ := Manifest.exists_node? (List.mem_map.mpr ⟨k, hk, rfl⟩)
    obtain ⟨hmem, hid⟩ := Manifest.mem_of_node? hk'
    obtain rfl := List.inj_on_of_nodup_map hm.ids_nodup hmem hk hid
    obtain ⟨s, hs, hst⟩ := NodeTable.status?_eq_some_iff.mp (hcleared _ (hedge rfl))
    obtain ⟨w, hw, hfits⟩ := h.outputsFit _ _ s hk' hs hst o ho
    refine ⟨w, (hstored.output hk' o.name).trans ?_, hfits⟩
    rw [verdict?, hs, Option.map_some, Option.bind_some]
    exact hw
  | literal value => exact ⟨.scalar value, rfl, hdeclares⟩

/-- What an input reads is there, with its declared type, once the predecessors of its node have
succeeded. -/
theorem Reachable.exists_source_value (h : Reachable p bodies params d) (hm : p.manifest.Coherent)
    (hnodup : (p.manifest.parameters.map (·.name)).Nodup) (hp : p.Proper)
    (hbind : bindParameters p.manifest.parameters supplied = .ok params)
    (hn : p.manifest.node? id = some n) (hcleared : Cleared p d id) {i : NodeInput}
    (hi : i ∈ n.inputs) {binding : Binding} (hsource : i.source? = some binding) {t : DataType}
    (hdeclares : p.manifest.Declares binding t) :
    ∃ v, inputSource? d.artifacts i = some v ∧ v.Fits t := by
  obtain ⟨hmem, rfl⟩ := Manifest.mem_of_node? hn
  have hedge {task result : String} (he : binding = .output task result) :
      p.graph.Edge task n.id :=
    hp.graph_eq ▸ hm.input_edge n hmem i hi (binding_of_source? (he ▸ hsource))
  rw [inputSource?_eq hsource]
  exact h.exists_value hm hnodup hbind hcleared hedge hdeclares

theorem Reachable.resolveInput_isOk (h : Reachable p bodies params d) (hm : p.manifest.Coherent)
    (ht : p.manifest.Typed) (hp : p.Proper)
    (hbind : bindParameters p.manifest.parameters supplied = .ok params)
    (hn : p.manifest.node? id = some n) (hcleared : Cleared p d id) {i : NodeInput}
    (hi : i ∈ n.inputs) (hbound : i.binding.isSome = true) :
    ∃ v, resolveInput d.artifacts i = .ok v := by
  obtain ⟨binding, hbinding⟩ := Option.isSome_iff_exists.mp hbound
  obtain ⟨t, hdeclares, haccepts⟩ := ht.input n (Manifest.mem_of_node? hn).1 i hi hbinding
  have hsource : i.source? = some binding := by simp [NodeInput.source?, hbinding]
  obtain ⟨v, hv, hfits⟩ :=
    h.exists_source_value hm ht.params_nodup hp hbind hn hcleared hi hsource hdeclares
  obtain ⟨w, hw⟩ := DataType.coerce_of_accepts haccepts hfits
  exact ⟨w, resolveInput_eq_ok_iff.mpr ⟨v, hv, hw⟩⟩

/-- A condition whose gates are declared as scalars is decided. -/
theorem Reachable.exists_holds (h : Reachable p bodies params d) (hm : p.manifest.Coherent)
    (hnodup : (p.manifest.parameters.map (·.name)).Nodup) (hp : p.Proper)
    (hbind : bindParameters p.manifest.parameters supplied = .ok params)
    (hn : p.manifest.node? id = some n) (hcleared : Cleared p d id)
    (hgates : ∀ c ∈ n.condition.clauses,
      ∃ t, p.manifest.Declares (.ofGate c.gate) t ∧ t.isArtifact = false) :
    ∃ holds, clausesHold d.artifacts n.condition.clauses = .ok holds := by
  obtain ⟨hmem, rfl⟩ := Manifest.mem_of_node? hn
  refine clausesHold_ok_of_scalars fun c hc => ?_
  obtain ⟨t, hdeclares, hscalar⟩ := hgates c hc
  have hedge {task result : String} (he : Binding.ofGate c.gate = .output task result) :
      p.graph.Edge task n.id := by
    have hgate : c.gate = .output task result := by
      revert he
      cases c.gate <;> simp [Binding.ofGate]
    exact hp.graph_eq ▸ hm.gate_edge n hmem c hc hgate
  obtain ⟨v, hv, hfits⟩ := h.exists_value hm hnodup hbind hcleared hedge hdeclares
  rw [value?_ofGate] at hv
  cases v with
  | scalar s => exact ⟨s, by rw [hv]; rfl⟩
  | artifact payload =>
    have hart : t.isArtifact = true := hfits
    rw [hscalar] at hart
    cases hart

theorem Reachable.clausesHold_isOk (h : Reachable p bodies params d) (hm : p.manifest.Coherent)
    (ht : p.manifest.Typed) (hp : p.Proper)
    (hbind : bindParameters p.manifest.parameters supplied = .ok params)
    (hn : p.manifest.node? id = some n) (hcleared : Cleared p d id) :
    ∃ holds, clausesHold d.artifacts n.condition.clauses = .ok holds :=
  h.exists_holds hm ht.params_nodup hp hbind hn hcleared (ht.gate n (Manifest.mem_of_node? hn).1)

/-- A node that cannot be prepared has no body, or fails at an input. -/
theorem prepare_error {store : ArtifactStore} {f : NodeFault} (h : prepare p n store = .error f) :
    (∃ reason, f = .unavailable reason) ∨ ∃ i ∈ n.inputs, resolveInput store i = .error f := by
  unfold prepare at h
  split at h
  · exact .inl ⟨_, (Except.error.inj h).symm⟩
  · exact .inr (resolveInputs_error h)

/-- In every run of a pipeline that was built from definitions with distinct inputs, sealed and
compiled, with parameters that were bound: when a ready node is prepared, no input with a binding is
without a value or of a wrong type, and when the condition of a node is looked at, it is decided. -/
theorem Reachable.bound_inputs_resolve {b : Builder} {pipeline : Pipeline}
    (hb : b.Reached TaskDefinition.DistinctInputs) (hseal : b.seal = .ok pipeline)
    (hcompile : pipeline.compile = .ok p.manifest) (hp : p.Proper)
    (hbind : bindParameters p.manifest.parameters supplied = .ok params)
    (h : Reachable p bodies params d) (hn : p.manifest.node? id = some n) :
    (d.table.status? id = some .ready →
      (∀ i ∈ n.inputs, i.binding.isSome = true → ∃ v, resolveInput d.artifacts i = .ok v) ∧
      ∀ f, prepare p n d.artifacts = .error f → ∀ i ∈ n.inputs, i.binding.isSome = true →
        f ≠ .unresolvedInput i.name ∧ ∀ expected actual, f ≠ .inputType i.name expected actual) ∧
    (readiness d.table (p.graph.dependencies id) false = .clear →
      ∃ holds, clausesHold d.artifacts n.condition.clauses = .ok holds) := by
  have hm := Manifest.coherent_of_compile hb hseal hcompile
  have ht := Manifest.typed_of_compile hb hseal hcompile
  constructor
  · intro hready
    have hcleared := h.admitted.cleared hn hready (by decide) (by decide)
    have hok {i : NodeInput} (hi : i ∈ n.inputs) (hbound : i.binding.isSome = true) :=
      h.resolveInput_isOk hm ht hp hbind hn hcleared hi hbound
    refine ⟨fun i hi hbound => hok hi hbound, fun f hf i hi hbound => ?_⟩
    have hnames := ht.inputs_nodup n (Manifest.mem_of_node? hn).1
    -- a fault names its input, and no other input has this name
    have hfault {j : NodeInput} (hj : j ∈ n.inputs) (hj' : resolveInput d.artifacts j = .error f)
        (hname : i.name = j.name) : False := by
      obtain rfl := List.inj_on_of_nodup_map hnames hi hj hname
      obtain ⟨v, hv⟩ := hok hi hbound
      rw [hv] at hj'
      cases hj'
    rcases prepare_error hf with ⟨reason, rfl⟩ | ⟨j, hj, hj'⟩
    · exact ⟨by simp, by simp⟩
    · rcases resolveInput_error hj' with rfl | ⟨actual, rfl⟩
      · exact ⟨fun he => hfault hj hj' (NodeFault.unresolvedInput.inj he).symm, by simp⟩
      · refine ⟨by simp, fun _ _ he => hfault hj hj' ?_⟩
        exact (NodeFault.inputType.inj he).1.symm
  · intro hclear
    refine h.clausesHold_isOk hm ht hp hbind hn fun dep he => ?_
    exact (readiness_eq_clear.mp hclear).2 dep (TaskGraph.mem_dependencies.mpr he)

/-- A pipeline in which an int parameter serves as a float and a task waits for a truth value. -/
def gated : Builder :=
  ((((Builder.ofName "gated" none).declare ⟨"n", .int, some (.int 3)⟩).define "a"
      { TaskDefinition.ofBody "test" (.registered "test") with
        inputs := [⟨"x", .float, none⟩], outputs := [⟨"out", .bool⟩] }
      [("x", .param "n")] .empty).1.openScope ⟨.output "a" "out", .bool true⟩).define "b"
    (TaskDefinition.ofBody "act" (.registered "act")) [] .empty |>.1

def gatedPipeline : Pipeline :=
  ⟨gated.name, gated.description, gated.params, gated.nodes, edgesOf gated.nodes, gated.registry⟩

def gatedPlan : Plan where
  manifest := gatedPipeline.plainManifest
  graph := ⟨["a", "b"], [("a", "b")]⟩
  order := ["a", "b"]
  run := "r"
  workers := 1
  resolveBody := fun _ _ => .ok ()
  location := fun _ _ => ""

/-- The first node has been let through. -/
def gatedReady : Drive :=
  resolveNode gatedPlan ⟨0, 0⟩ (begin gatedPlan.manifest (Dict.empty.insert "n" (.int 3))) "a"

/-- The first node has ended. -/
def gatedHalf : Drive :=
  (startNode gatedPlan ⟨0, 0⟩ gatedReady "a").finish gatedPlan ⟨1, 0⟩ 0
    (.ended (.returned (Dict.empty.insert "out" (.scalar (.bool false)))))

theorem gated_resolves :
    gatedReady.table.status? "a" = some .ready ∧
    (∃ n i, gatedPlan.manifest.node? "a" = some n ∧ i ∈ n.inputs ∧ i.dataType = .float ∧
      i.binding = some (.param "n") ∧ ∃ v, resolveInput gatedReady.artifacts i = .ok v) ∧
    ∃ n holds, gatedPlan.manifest.node? "b" = some n ∧ n.condition.clauses ≠ [] ∧
      clausesHold gatedHalf.artifacts n.condition.clauses = .ok holds := by
  have hb : gated.Reached TaskDefinition.DistinctInputs :=
    .define (.openScope (.define (.declare (.ofName _ _) _) _ (by decide) _ _) _) _ (by decide) _ _
  have hseal : gated.seal = .ok gatedPipeline := rfl
  have hcompile : gatedPipeline.compile = .ok gatedPlan.manifest :=
    Pipeline.compile_of_sorted rfl (by decide) (by decide) (by decide)
  have hp : gatedPlan.Proper := ⟨rfl, rfl⟩
  have hbind : bindParameters gatedPlan.manifest.parameters .empty =
      .ok (Dict.empty.insert "n" (.int 3)) := rfl
  have hready : Reachable gatedPlan (fun _ _ => True) (Dict.empty.insert "n" (.int 3)) gatedReady :=
    .single (.resolve _ (by decide) rfl)
  have hstarted : Reachable gatedPlan (fun _ _ => True) (Dict.empty.insert "n" (.int 3))
      (startNode gatedPlan ⟨0, 0⟩ gatedReady "a") := hready.tail (.start _ (by decide) rfl)
  have hentry : (0, "a") ∈ (startNode gatedPlan ⟨0, 0⟩ gatedReady "a").running := by decide
  obtain ⟨i, hi, hit, -⟩ := hstarted.ledger.invoked hentry
  have hhalf : Reachable gatedPlan (fun _ _ => True) (Dict.empty.insert "n" (.int 3)) gatedHalf :=
    hstarted.tail (.finish _ (by decide) hi hit trivial)
  have hna : gatedPlan.manifest.node? "a" = some _ := rfl
  have hnb : gatedPlan.manifest.node? "b" = some _ := rfl
  obtain ⟨hinputs, -⟩ := Reachable.bound_inputs_resolve hb hseal hcompile hp hbind hready hna
  obtain ⟨-, hgate⟩ := Reachable.bound_inputs_resolve hb hseal hcompile hp hbind hhalf hnb
  obtain ⟨holds, hholds⟩ := hgate rfl
  have hx : (⟨"x", .float, some (.param "n"), none⟩ : NodeInput) ∈ _ := List.mem_singleton.mpr rfl
  exact ⟨rfl, ⟨_, _, hna, hx, rfl, rfl, (hinputs rfl).1 _ hx rfl⟩, _, holds, hnb, by decide, hholds⟩

end Drive
end Workflow
