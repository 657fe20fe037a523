import Workflow.Proofs.Manifest.Checked
import Workflow.Proofs.Manifest.Typed
import Workflow.Proofs.Pipeline.Names

/-!
# What was sealed is compiled and passes

Sealing, compiling and checking a manifest look at the same things in different forms. A pipeline
that is sealed meets no obstacle when it is compiled, its manifest passes the check, and the edges of
the manifest are what its nodes read.
-/
namespace Workflow

/-- A node reads an output of another one, through an input or its condition. -/
def ManifestNode.Reads (n : ManifestNode) (task : String) : Prop :=
  (∃ i ∈ n.inputs, ∃ result, i.binding = some (.output task result)) ∨
    ∃ c ∈ n.condition.clauses, ∃ result, c.gate = .output task result

namespace Builder
variable {ok : TaskDefinition → Prop} {b : Builder} {p : Pipeline} {n : TaskNode}

/-! ## Nodes without faults -/

theorem Faultless.dependency_known (h : b.Faultless) (hn : n ∈ b.nodes) {task : String}
    (htask : task ∈ n.dependencies) : task ∈ b.nodes.map (·.id) := by
  rcases TaskNode.mem_dependencies_iff.mp htask with ⟨input, output, hb⟩ | ⟨c, hc, output, hgate⟩
  · have hreference := (List.append_eq_nil_iff.mp (h.binding hn hb).1).2
    exact mem_ids_of_reference (by simpa using hreference)
  · exact mem_ids_of_reference (hgate ▸ (h.clause hn hc).1)

/-! ## Compiling -/

/-- The edges of a pipeline make the graph in which its nodes read each other. -/
theorem edge_edgesOf_iff {source target : String} :
    (TaskGraph.ofEdges (b.nodes.map (·.id)) (edgesOf b.nodes)).Edge source target ↔
      (Diagnosis.graph b).Edge source target := by
  simp only [Diagnosis.graph, TaskGraph.edge_ofEdges, mem_edgesOf, List.mem_flatMap, List.mem_map,
    Prod.mk.injEq]
  constructor
  · rintro ⟨⟨hsource, n, hn, rfl, hd⟩, hends⟩
    exact ⟨⟨n, hn, source, hd, rfl, rfl⟩, hends⟩
  · rintro ⟨⟨n, hn, d, hd, rfl, rfl⟩, hsource, htarget⟩
    exact ⟨⟨hsource, n, hn, rfl, hd⟩, hsource, htarget⟩

/-- Nothing keeps a sealed pipeline from being compiled. -/
theorem Reached.compile_of_seal (hb : b.Reached ok) (hseal : b.seal = .ok p) :
    p.compile = .ok p.toManifest := by
  obtain ⟨⟨hnonempty, hcycle, hfaultless⟩, rfl⟩ := seal_eq_ok_iff.mp hseal
  have hformed := hb.formed
  refine Pipeline.compile_eq_ok_iff.mpr ⟨rfl, hnonempty, hformed.ids_nodup, fun n hn => ⟨?_, ?_⟩,
    rfl, ?_⟩
  · exact ⟨hformed.outputs_eq n hn, fun d hd => hfaultless.dependency_known hn hd⟩
  · refine ⟨fun a ha => ?_, hfaultless.bound hn⟩
    rw [hformed.outputs_eq n hn] at ha
    obtain ⟨o, ho, rfl⟩ := List.mem_map.mp ha
    exact hformed.registered n hn o ho
  · refine (TaskGraph.validateAcyclic_eq_ok_iff (TaskGraph.ofEdges_wellFormed _ _)).mpr ?_
    intro id hway
    refine Diagnosis.cycleFaults_eq_nil_iff.mp hcycle id ?_
    exact Relation.TransGen.mono (fun a c he => edge_edgesOf_iff.mp he) _ _ hway

/-! ## The manifest -/

theorem Faultless.reads_compile_iff (h : b.Faultless) (hn : n ∈ b.nodes) {task : String} :
    n.compile.Reads task ↔ task ∈ n.dependencies := by
  rw [TaskNode.mem_dependencies_iff]
  refine or_congr_left ⟨?_, ?_⟩
  · rintro ⟨i, hi, result, hbinding⟩
    obtain ⟨s, hs, rfl⟩ := Pipeline.mem_compileInputs.mp hi
    exact ⟨s.name, result, hbinding⟩
  · rintro ⟨input, result, hbinding⟩
    obtain ⟨s, hs, rfl⟩ := h.input_declared hn hbinding
    exact ⟨_, Pipeline.mem_compileInputs.mpr ⟨s, hs, rfl⟩, result, hbinding⟩

/-- A reference that is not at fault is provided, if the node may read there. -/
theorem Reached.provides_of_reference (hb : b.Reached ok) (hseal : b.seal = .ok p)
    (hn : n ∈ b.nodes) {place : String} {g : GateRef}
    (hg : Diagnosis.referenceFault? b n place g = none)
    (hread : ∀ {task output}, g = .output task output → task ∈ n.dependencies) :
    p.toManifest.Provides n.compile g := by
  have hcompile := hb.compile_of_seal hseal
  obtain ⟨hfaultless, rfl⟩ := faultless_of_seal hseal
  obtain ⟨-, hnodup, hcompilable, hedges, -⟩ := Pipeline.compilable_of_compile hcompile
  obtain ⟨t, -, hdeclared⟩ := (hb.sound hfaultless.deferred).declares_of_reference hg
  have hdeclares := hdeclared.compiled rfl rfl hcompilable
  cases g with
  | param name =>
    obtain ⟨spec, hspec, rfl, -⟩ := hdeclares
    exact List.mem_map.mpr ⟨spec, hspec, rfl⟩
  | output task output =>
    obtain ⟨k, hk, rfl, o, ho, rfl, -⟩ := hdeclares
    have hedge := Pipeline.toManifest_edge hedges hn (hcompilable n hn) (hread rfl)
    have hids := Pipeline.toManifest_ids_perm.nodup_iff.mpr hnodup
    exact ⟨k, Manifest.node?_of_mem hids hk, List.mem_map.mpr ⟨o, ho, rfl⟩,
      (TaskGraph.edge_ofEdges.mp hedge).1⟩

/-- The manifest of a sealed pipeline passes the check. -/
theorem Reached.checked_of_seal (hb : b.Reached ok) (hseal : b.seal = .ok p) :
    p.toManifest.Checked := by
  have hcompile := hb.compile_of_seal hseal
  have hcoherent := Manifest.coherent_of_compile hb hseal hcompile
  obtain ⟨⟨hnonempty, -, hfaultless⟩, hp⟩ := seal_eq_ok_iff.mp hseal
  have hnamed := hb.named hfaultless.deferred
  have hreference {n : TaskNode} (hn : n ∈ b.nodes) {place : String} {g : GateRef}
      (hg : Diagnosis.referenceFault? b n place g = none) :=
    hb.provides_of_reference hseal hn hg
  subst hp
  -- names and order come from coherence, references from the absence of faults
  constructor
  case version => rfl
  case nonempty =>
    intro hempty
    have hperm := Pipeline.toManifest_ids_perm (p := ⟨b.name, b.description, b.params, b.nodes,
      edgesOf b.nodes, b.registry⟩)
    rw [hempty] at hperm
    exact hnonempty (by simpa using hperm)
  case ids_nodup => exact hcoherent.ids_nodup
  case flawless => exact hcoherent.flawless
  case outputs_flawless =>
    intro n hn o ho
    obtain ⟨t, ht, rfl⟩ := Pipeline.mem_toManifest_nodes.mp hn
    obtain ⟨⟨s, a⟩, hsa, rfl⟩ := List.mem_map.mp ho
    exact hnamed.output t ht s (List.of_mem_zip hsa).1
  case parameters_flawless =>
    intro s hs
    exact hnamed.param s (by simpa [Pipeline.toManifest] using hs)
  case edge_known =>
    intro e he
    obtain ⟨hsource, n, hn, htarget, -⟩ := mem_edgesOf.mp he
    have hids := Pipeline.toManifest_ids_perm (p := ⟨b.name, b.description, b.params, b.nodes,
      edgesOf b.nodes, b.registry⟩)
    exact ⟨hids.mem_iff.mpr hsource, hids.mem_iff.mpr (List.mem_map.mpr ⟨n, hn, htarget⟩)⟩
  case input =>
    intro n hn i hi
    obtain ⟨t, ht, rfl⟩ := Pipeline.mem_toManifest_nodes.mp hn
    obtain ⟨s, hs, rfl⟩ := Pipeline.mem_compileInputs.mp hi
    unfold Manifest.Supplied
    cases hbinding : t.bindings.get? s.name with
    | none =>
      -- an input with neither a binding nor a default would be a fault
      by_contra hdefault
      have hbound := hfaultless.bound ht s hs (by simpa using hdefault)
      simp [Dict.contains, hbinding] at hbound
    | some binding =>
      have hfault := (List.append_eq_nil_iff.mp (hfaultless.binding ht hbinding).1).2
      cases binding with
      | param name => exact hreference ht (by simpa using hfault) fun he => GateRef.noConfusion he
      | output task output =>
        refine hreference ht (by simpa using hfault) fun he => ?_
        cases he
        exact TaskNode.mem_dependencies_of_binding hbinding
      | literal value => trivial
  case gate =>
    intro n hn c hc
    obtain ⟨t, ht, rfl⟩ := Pipeline.mem_toManifest_nodes.mp hn
    exact hreference ht (hfaultless.clause ht hc).1 fun hgate =>
      TaskNode.mem_dependencies_of_clause hc hgate
  case acyclic => exact hcoherent.acyclic

/-- A sealed pipeline is compiled, its manifest passes the check, and the edges of the manifest are
what its nodes read, in order and once each. -/
theorem Reached.exists_checked_manifest (hb : b.Reached ok) (hseal : b.seal = .ok p) :
    ∃ m, p.compile = .ok m ∧ m.validate = .ok () ∧
      (m.edges.Pairwise fun e f => e.1 < f.1 ∨ e.1 = f.1 ∧ e.2 < f.2) ∧
      ∀ source target, (source, target) ∈ m.edges ↔
        ∃ n ∈ m.nodes, n.id = target ∧ n.Reads source := by
  have hcompile := hb.compile_of_seal hseal
  have hchecked := hb.checked_of_seal hseal
  obtain ⟨hfaultless, rfl⟩ := faultless_of_seal hseal
  refine ⟨_, hcompile, Manifest.validate_eq_ok_iff.mpr hchecked, pairwise_edgesOf _,
    fun source target => ?_⟩
  constructor
  · intro he
    obtain ⟨-, t, ht, rfl, hd⟩ := mem_edgesOf.mp he
    exact ⟨_, Pipeline.mem_toManifest_nodes.mpr ⟨t, ht, rfl⟩, rfl,
      (hfaultless.reads_compile_iff ht).mpr hd⟩
  · rintro ⟨n, hn, rfl, hreads⟩
    obtain ⟨t, ht, rfl⟩ := Pipeline.mem_toManifest_nodes.mp hn
    have hd := (hfaultless.reads_compile_iff ht).mp hreads
    exact mem_edgesOf.mpr ⟨hfaultless.dependency_known ht hd, t, ht, rfl, hd⟩

/-- Two tasks of which the first serves the second, and a third one waits for both. -/
def braided : Builder :=
  ((((Builder.ofName "braided" none).define "a"
      { TaskDefinition.ofBody "make" (.registered "make") with outputs := [⟨"out", .int⟩] }
      [] .empty).1.define "b"
      { TaskDefinition.ofBody "test" (.registered "test") with
        inputs := [⟨"x", .float, none⟩], outputs := [⟨"holds", .bool⟩] }
      [("x", .output "a" "out")] .empty).1.openScope ⟨.output "b" "holds", .bool true⟩).define "c"
    { TaskDefinition.ofBody "use" (.registered "use") with inputs := [⟨"y", .int, none⟩] }
    [("y", .output "a" "out")] .empty |>.1

theorem braided_compiles : ∃ p m, braided.seal = .ok p ∧ p.compile = .ok m ∧
    m.validate = .ok () ∧ (∃ n ∈ m.nodes, n.id = "c" ∧ n.Reads "a") ∧
    ∃ n ∈ m.nodes, n.id = "c" ∧ n.Reads "b" := by
  have hb : braided.Reached fun _ => True :=
    .define (.openScope (.define (.define (.ofName _ _) _ trivial _ _) _ trivial _ _) _) _ trivial _ _
  have hseal : braided.seal = .ok ⟨braided.name, braided.description, braided.params,
    braided.nodes, edgesOf braided.nodes, braided.registry⟩ := rfl
  obtain ⟨m, hcompile, hvalid, -, hedges⟩ := hb.exists_checked_manifest hseal
  obtain ⟨rfl, -⟩ := Pipeline.compile_eq_ok_iff.mp hcompile
  have hac : ("a", "c") ∈ edgesOf braided.nodes := by decide
  have hbc : ("b", "c") ∈ edgesOf braided.nodes := by decide
  exact ⟨_, _, hseal, hcompile, hvalid, (hedges "a" "c").mp hac, (hedges "b" "c").mp hbc⟩

end Builder
end Workflow
