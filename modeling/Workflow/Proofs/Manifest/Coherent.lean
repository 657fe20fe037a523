import Workflow.Proofs.Graph.Order
import Workflow.Proofs.Pipeline.Built
import Workflow.Proofs.Pipeline.Sealed

/-!
# Coherent manifests

In the manifest of a sealed pipeline every node is named once, every output is stored under an id of
its own, and every output that is read is made by a predecessor.
-/
namespace Workflow

/-- Names are unambiguous and everything that a node reads comes from a predecessor. -/
structure Manifest.Coherent (m : Manifest) : Prop where
  ids_nodup : (m.nodes.map (·.id)).Nodup
  flawless : ∀ n ∈ m.nodes, ArtifactId.nodeFlaw? n.id = none
  artifact_eq : ∀ n ∈ m.nodes, ∀ o ∈ n.outputs, o.artifact = .output n.id o.name
  input_edge : ∀ n ∈ m.nodes, ∀ i ∈ n.inputs, ∀ {task result},
    i.binding = some (.output task result) → m.graph.Edge task n.id
  gate_edge : ∀ n ∈ m.nodes, ∀ c ∈ n.condition.clauses, ∀ {task result},
    c.gate = .output task result → m.graph.Edge task n.id
  acyclic : m.graph.Acyclic

theorem mem_zip_map_iff {α β : Type} {f : α → β} {l : List α} {x : α × β} :
    x ∈ l.zip (l.map f) ↔ x.1 ∈ l ∧ x.2 = f x.1 := by
  induction l with
  | nil => simp
  | cons a rest ih =>
    obtain ⟨y, z⟩ := x
    simp only [List.map_cons, List.zip_cons_cons, List.mem_cons, ih, Prod.mk.injEq]
    constructor
    · rintro (⟨rfl, rfl⟩ | ⟨hy, rfl⟩)
      · exact ⟨.inl rfl, rfl⟩
      · exact ⟨.inr hy, rfl⟩
    · rintro ⟨rfl | hy, rfl⟩
      · exact .inl ⟨rfl, rfl⟩
      · exact .inr ⟨hy, rfl⟩

namespace Pipeline
variable {p : Pipeline}

theorem mem_toManifest_nodes {n : ManifestNode} :
    n ∈ p.toManifest.nodes ↔ ∃ t ∈ p.nodes, t.compile = n := by
  simp [toManifest]

theorem toManifest_ids_perm : (p.toManifest.nodes.map (·.id)).Perm (p.nodes.map (·.id)) := by
  have hperm := (List.mergeSort_perm (p.nodes.map (·.compile)) fun a b => a.id ≤ b.id).map (·.id)
  rwa [List.map_map] at hperm

theorem mem_compileInputs {t : TaskNode} {i : NodeInput} :
    i ∈ t.compileInputs ↔ ∃ s ∈ t.definition.inputs,
      ⟨s.name, s.dataType, t.bindings.get? s.name, s.defaultValue⟩ = i := by
  simp [TaskNode.compileInputs]

theorem toManifest_edge (hedges : edgesOf p.nodes = p.edges) {t : TaskNode} (ht : t ∈ p.nodes)
    (hcompilable : p.Compilable t) {task : String} (htask : task ∈ t.dependencies) :
    p.toManifest.graph.Edge task t.id := by
  have hknown := hcompilable.known task htask
  refine TaskGraph.edge_ofEdges.mpr ⟨?_, ?_, ?_⟩
  · change (task, t.id) ∈ p.edges
    rw [← hedges, mem_edgesOf]
    exact ⟨hknown, t, ht, rfl, htask⟩
  · exact toManifest_ids_perm.mem_iff.mpr hknown
  · exact toManifest_ids_perm.mem_iff.mpr (List.mem_map.mpr ⟨t, ht, rfl⟩)

theorem toManifest_acyclic
    (h : (TaskGraph.ofEdges (p.nodes.map (·.id)) p.edges).validateAcyclic = .ok ()) :
    p.toManifest.graph.Acyclic := by
  have hacyclic := (TaskGraph.validateAcyclic_eq_ok_iff (TaskGraph.ofEdges_wellFormed _ _)).mp h
  intro id hcycle
  refine hacyclic id (Relation.TransGen.mono (fun a c he => ?_) _ _ hcycle)
  obtain ⟨hmem, ha, hc⟩ := TaskGraph.edge_ofEdges.mp he
  exact TaskGraph.edge_ofEdges.mpr
    ⟨hmem, toManifest_ids_perm.mem_iff.mp ha, toManifest_ids_perm.mem_iff.mp hc⟩

end Pipeline

/-- A coherent manifest has an order in which it can be run. -/
theorem Manifest.Coherent.exists_order {m : Manifest} (h : m.Coherent) :
    ∃ order, m.graph.topologicalOrder = .ok order :=
  have hg : m.graph.WellFormed := TaskGraph.ofEdges_wellFormed _ _
  ⟨_, (TaskGraph.topologicalOrder_eq_ok_iff hg).mpr ⟨h.acyclic, rfl⟩⟩

/-- The manifest of a pipeline whose parts stand in order already. -/
def Pipeline.plainManifest (p : Pipeline) : Manifest where
  apiVersion := manifestVersion
  pipeline := ⟨p.name, p.description⟩
  parameters := p.params
  nodes := p.nodes.map fun t => { t.compile with
    inputs := t.definition.inputs.map fun i =>
      ⟨i.name, i.dataType, t.bindings.get? i.name, i.defaultValue⟩ }
  edges := p.edges

theorem Pipeline.compile_of_sorted {p : Pipeline} (hobstacle : p.obstacle? = none)
    (hparams : p.params.Pairwise fun a b => a.name ≤ b.name)
    (hnodes : p.nodes.Pairwise fun a b => a.id ≤ b.id)
    (hinputs : ∀ t ∈ p.nodes, t.definition.inputs.Pairwise fun a b => a.name ≤ b.name) :
    p.compile = .ok p.plainManifest := by
  have hcompile : ∀ t ∈ p.nodes, t.compile = { t.compile with
      inputs := t.definition.inputs.map fun i =>
        ⟨i.name, i.dataType, t.bindings.get? i.name, i.defaultValue⟩ } := by
    intro t ht
    have hsorted : t.compileInputs = t.definition.inputs.map fun i =>
        ⟨i.name, i.dataType, t.bindings.get? i.name, i.defaultValue⟩ :=
      List.mergeSort_of_pairwise (List.pairwise_map.mpr ((hinputs t ht).imp decide_eq_true))
    simp only [TaskNode.compile, hsorted]
  have hsorted : p.toManifest.nodes = p.nodes.map (·.compile) :=
    List.mergeSort_of_pairwise (List.pairwise_map.mpr (hnodes.imp decide_eq_true))
  have hparams' : p.toManifest.parameters = p.params :=
    List.mergeSort_of_pairwise (hparams.imp decide_eq_true)
  have hmanifest : p.toManifest = p.plainManifest := by
    change Manifest.mk _ _ p.toManifest.parameters p.toManifest.nodes _ = _
    rw [hparams', hsorted, List.map_congr_left hcompile]
    rfl
  rw [compile, hobstacle, hmanifest]

/-- What is built, sealed and compiled is coherent. -/
theorem Manifest.coherent_of_compile {ok : TaskDefinition → Prop} {b : Builder} {p : Pipeline}
    {m : Manifest} (hb : b.Reached ok) (hseal : b.seal = .ok p) (hcompile : p.compile = .ok m) :
    m.Coherent := by
  obtain ⟨hfaultless, rfl⟩ := Builder.faultless_of_seal hseal
  obtain ⟨rfl, hnodup, hcompilable, hedges, hacyclic⟩ := Pipeline.compilable_of_compile hcompile
  have hsound := hb.sound hfaultless.deferred
  constructor
  case ids_nodup => exact Pipeline.toManifest_ids_perm.nodup_iff.mpr hnodup
  case flawless =>
    intro n hn
    obtain ⟨t, ht, rfl⟩ := Pipeline.mem_toManifest_nodes.mp hn
    exact (hsound.node t ht).flawless
  case artifact_eq =>
    intro n hn o ho
    obtain ⟨t, ht, rfl⟩ := Pipeline.mem_toManifest_nodes.mp hn
    simp only [TaskNode.compile, (hcompilable t ht).outputs_eq, List.mem_map] at ho
    obtain ⟨⟨s, a⟩, hsa, rfl⟩ := ho
    exact (mem_zip_map_iff.mp hsa).2
  case input_edge =>
    intro n hn i hi task result hbinding
    obtain ⟨t, ht, rfl⟩ := Pipeline.mem_toManifest_nodes.mp hn
    obtain ⟨s, hs, rfl⟩ := Pipeline.mem_compileInputs.mp hi
    exact Pipeline.toManifest_edge hedges ht (hcompilable t ht)
      (TaskNode.mem_dependencies_of_binding hbinding)
  case gate_edge =>
    intro n hn c hc task result hgate
    obtain ⟨t, ht, rfl⟩ := Pipeline.mem_toManifest_nodes.mp hn
    exact Pipeline.toManifest_edge hedges ht (hcompilable t ht)
      (TaskNode.mem_dependencies_of_clause hc hgate)
  case acyclic => exact Pipeline.toManifest_acyclic hacyclic

end Workflow
