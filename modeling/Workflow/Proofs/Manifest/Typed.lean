import Workflow.Proofs.Manifest.Coherent
import Workflow.Proofs.Pipeline.Declared
import Workflow.Proofs.Value.Fits

/-!
# Typed manifests

Sealing compares declared types. In the manifest that comes out, every bound input accepts the
declared type of what it is bound to, and every gate is declared as a scalar. The types of defaults
are not looked at, and of two inputs with one name only the first is.

So sealing leaves two things open that decide at run time whether a node can succeed: whether its
outputs have names of their own, and whether each of its inputs takes what it gets. A node with
distinct names gets what it takes unless one of its defaults has a wrong type.
-/
namespace Workflow

/-- Where an input gets its value from. A default serves like a constant. -/
def NodeInput.source? (i : NodeInput) : Option Binding :=
  i.binding <|> i.defaultValue.map .literal

namespace Manifest

/-- A binding is declared to have a type. -/
def Declares (m : Manifest) : Binding → DataType → Prop
  | .param name, t => ∃ spec ∈ m.parameters, spec.name = name ∧ spec.dataType = t
  | .output task result, t =>
    ∃ n ∈ m.nodes, n.id = task ∧ ∃ o ∈ n.outputs, o.name = result ∧ o.dataType = t
  | .literal value, t => value.dataType = t

/-- Parameters are declared once, every input has a source of a declared type, and gates are
scalars. -/
structure Grounded (m : Manifest) : Prop where
  params_nodup : (m.parameters.map (·.name)).Nodup
  source : ∀ n ∈ m.nodes, ∀ i ∈ n.inputs, ∃ binding t,
    i.source? = some binding ∧ m.Declares binding t
  gate : ∀ n ∈ m.nodes, ∀ c ∈ n.condition.clauses,
    ∃ t, m.Declares (.ofGate c.gate) t ∧ t.isArtifact = false

/-- Parameters and inputs are declared once, bound inputs accept what they are bound to, and gates
are scalars. -/
structure Typed (m : Manifest) : Prop where
  params_nodup : (m.parameters.map (·.name)).Nodup
  inputs_nodup : ∀ n ∈ m.nodes, (n.inputs.map (·.name)).Nodup
  input : ∀ n ∈ m.nodes, ∀ i ∈ n.inputs, ∀ {binding}, i.binding = some binding →
    ∃ t, m.Declares binding t ∧ i.dataType.accepts t = true
  gate : ∀ n ∈ m.nodes, ∀ c ∈ n.condition.clauses,
    ∃ t, m.Declares (.ofGate c.gate) t ∧ t.isArtifact = false

end Manifest

theorem Builder.Declares.compiled {b : Builder} {p : Pipeline} {binding : Binding} {t : DataType}
    (h : b.Declares binding t) (hparams : p.params = b.params) (hnodes : p.nodes = b.nodes)
    (hcompilable : ∀ n ∈ p.nodes, p.Compilable n) : p.toManifest.Declares binding t := by
  cases binding with
  | param name =>
    obtain ⟨spec, hspec, hrest⟩ := h
    exact ⟨spec, by simpa [Pipeline.toManifest, hparams] using hspec, hrest⟩
  | output task result =>
    obtain ⟨k, hk, hid, o, ho, hname, htype⟩ := h
    have hk' : k ∈ p.nodes := hnodes ▸ hk
    refine ⟨k.compile, Pipeline.mem_toManifest_nodes.mpr ⟨k, hk', rfl⟩, hid,
      ⟨o.name, o.dataType, .output k.id o.name⟩, ?_, hname, htype⟩
    refine List.mem_map.mpr ⟨(o, .output k.id o.name), ?_, rfl⟩
    rw [(hcompilable k hk').outputs_eq]
    exact mem_zip_map_iff.mpr ⟨ho, rfl⟩
  | literal value => exact h

namespace Manifest
variable {ok : TaskDefinition → Prop} {b : Builder} {p : Pipeline} {m : Manifest}

theorem grounded_of_compile (hb : b.Reached ok) (hseal : b.seal = .ok p)
    (hcompile : p.compile = .ok m) : m.Grounded := by
  obtain ⟨hfaultless, rfl⟩ := Builder.faultless_of_seal hseal
  obtain ⟨rfl, -, hcompilable, -, -⟩ := Pipeline.compilable_of_compile hcompile
  have hsound := hb.sound hfaultless.deferred
  constructor
  case params_nodup =>
    have hperm := (List.mergeSort_perm b.params fun a c => a.name ≤ c.name).map (·.name)
    exact hperm.nodup_iff.mpr hsound.params_nodup
  case source =>
    intro n hn i hi
    obtain ⟨t, ht, rfl⟩ := Pipeline.mem_toManifest_nodes.mp hn
    obtain ⟨s, hs, rfl⟩ := Pipeline.mem_compileInputs.mp hi
    cases hbinding : t.bindings.get? s.name with
    | none =>
      -- an unbound input has a default, of whatever type
      have hdefault : s.defaultValue ≠ none := fun hnone => by
        have hbound := hfaultless.bound ht s hs hnone
        simp [Dict.contains, hbinding] at hbound
      obtain ⟨value, hvalue⟩ := Option.ne_none_iff_exists'.mp hdefault
      exact ⟨.literal value, value.dataType, by simp [NodeInput.source?, hvalue], rfl⟩
    | some binding =>
      obtain ⟨u, -, hdeclares⟩ := hsound.declares_of_binding hfaultless ht hbinding
      exact ⟨binding, u, by simp [NodeInput.source?], hdeclares.compiled rfl rfl hcompilable⟩
  case gate =>
    intro n hn c hc
    obtain ⟨t, ht, rfl⟩ := Pipeline.mem_toManifest_nodes.mp hn
    obtain ⟨u, hdeclares, hscalar⟩ := hsound.scalar_of_clause hfaultless ht hc
    exact ⟨u, hdeclares.compiled rfl rfl hcompilable, hscalar⟩

theorem typed_of_compile (hb : b.Reached TaskDefinition.DistinctInputs) (hseal : b.seal = .ok p)
    (hcompile : p.compile = .ok m) : m.Typed := by
  have hgrounded := grounded_of_compile hb hseal hcompile
  obtain ⟨hfaultless, rfl⟩ := Builder.faultless_of_seal hseal
  obtain ⟨rfl, -, hcompilable, -, -⟩ := Pipeline.compilable_of_compile hcompile
  have hsound := hb.sound hfaultless.deferred
  refine ⟨hgrounded.params_nodup, ?inputs_nodup, ?input, hgrounded.gate⟩
  case inputs_nodup =>
    intro n hn
    obtain ⟨t, ht, rfl⟩ := Pipeline.mem_toManifest_nodes.mp hn
    have hperm := (List.mergeSort_perm (t.definition.inputs.map fun i =>
      (⟨i.name, i.dataType, t.bindings.get? i.name, i.defaultValue⟩ : NodeInput))
      fun a c => a.name ≤ c.name).map (·.name)
    refine hperm.nodup_iff.mpr ?_
    rw [List.map_map]
    exact (hsound.node t ht).good
  case input =>
    intro n hn i hi binding hbinding
    obtain ⟨t, ht, rfl⟩ := Pipeline.mem_toManifest_nodes.mp hn
    obtain ⟨s, hs, rfl⟩ := Pipeline.mem_compileInputs.mp hi
    have hspec := TaskDefinition.input?_eq (hsound.node t ht).good hs
    obtain ⟨u, hdeclares, haccepts⟩ := hsound.accepts_of_binding hfaultless ht hspec hbinding
    exact ⟨u, hdeclares.compiled rfl rfl hcompilable, haccepts⟩

end Manifest

/-! ## Nodes that can succeed -/

/-- No two outputs share a name, and the type of what an input gets is taken by the input. -/
structure Manifest.Feasible (m : Manifest) (n : ManifestNode) : Prop where
  outputs_nodup : (n.outputs.map (·.name)).Nodup
  input : ∀ i ∈ n.inputs, ∃ binding t, i.source? = some binding ∧ m.Declares binding t ∧
    i.dataType.takes t = true

/-- The definition has distinct names, and the defaults of its unbound inputs are of use. -/
structure TaskNode.Usable (n : TaskNode) : Prop where
  names : n.definition.DistinctNames
  default : ∀ i ∈ n.definition.inputs, n.bindings.get? i.name = none →
    ∀ value, i.defaultValue = some value → i.dataType.takes value.dataType = true

theorem TaskNode.compile_outputs_names {n : TaskNode}
    (h : n.outputs = n.definition.outputs.map fun o => .output n.id o.name) :
    n.compile.outputs.map (·.name) = n.definition.outputs.map (·.name) := by
  have hlength : n.definition.outputs.length ≤ n.outputs.length := by simp [h]
  calc n.compile.outputs.map (·.name)
      = ((n.definition.outputs.zip n.outputs).map Prod.fst).map (·.name) := by
        simp only [compile, List.map_map]
        rfl
    _ = n.definition.outputs.map (·.name) := by rw [List.map_fst_zip hlength]

/-- A usable node of a sealed pipeline can succeed. -/
theorem Manifest.feasible_of_usable {ok : TaskDefinition → Prop} {b : Builder} {p : Pipeline}
    {m : Manifest} (hb : b.Reached ok) (hseal : b.seal = .ok p) (hcompile : p.compile = .ok m)
    (husable : ∀ t ∈ b.nodes, t.Usable) : ∀ n ∈ m.nodes, m.Feasible n := by
  obtain ⟨hfaultless, rfl⟩ := Builder.faultless_of_seal hseal
  have hgrounded := Manifest.grounded_of_compile hb hseal hcompile
  obtain ⟨rfl, -, hcompilable, -, -⟩ := Pipeline.compilable_of_compile hcompile
  have hsound := hb.sound hfaultless.deferred
  intro n hn
  have hsource := hgrounded.source n hn
  obtain ⟨t, ht, rfl⟩ := Pipeline.mem_toManifest_nodes.mp hn
  obtain ⟨hnames, hdefault⟩ := husable t ht
  refine ⟨?_, fun i hi => ?_⟩
  · rw [TaskNode.compile_outputs_names (hcompilable t ht).outputs_eq]
    exact hnames.outputs
  · obtain ⟨s, hs, rfl⟩ := Pipeline.mem_compileInputs.mp hi
    cases hbinding : t.bindings.get? s.name with
    | none =>
      obtain ⟨binding, u, hsome, hdeclares⟩ := hsource _ hi
      rw [hbinding] at hsome
      obtain ⟨value, hvalue, rfl⟩ := Option.map_eq_some_iff.mp hsome
      obtain rfl : value.dataType = u := hdeclares
      exact ⟨.literal value, value.dataType, hsome, rfl, hdefault s hs hbinding value hvalue⟩
    | some binding =>
      obtain ⟨u, hdeclares, haccepts⟩ := hsound.accepts_of_binding hfaultless ht
        (TaskDefinition.input?_eq hnames.inputs hs) hbinding
      exact ⟨binding, u, rfl, hdeclares.compiled rfl rfl hcompilable,
        by simp [DataType.takes, haccepts]⟩

end Workflow
