import Mathlib.Data.List.Forall2
import Workflow.Proofs.Manifest.Compiled
import Workflow.Proofs.Tracker.Order

/-!
# One manifest for every order of building

The parameters, nodes, inputs and edges of a manifest are sorted by keys that occur once, so that it
does not show in which order a pipeline was put together. Nothing is lost or listed twice, and the
outputs of a node stay in the order of their declaration.
-/
namespace Workflow

/-! ## Edges -/

/-- An edge comes before another one in listings. -/
def EdgeBefore (e f : String × String) : Prop := e.1 < f.1 ∨ e.1 = f.1 ∧ e.2 < f.2

theorem EdgeBefore.asymm {e f : String × String} (hef : EdgeBefore e f) (hfe : EdgeBefore f e) :
    False := by
  rcases hef with hef | ⟨heq, hef⟩ <;> rcases hfe with hfe | ⟨heq', hfe⟩
  · exact lt_asymm hef hfe
  · exact lt_irrefl _ (heq' ▸ hef)
  · exact lt_irrefl _ (heq ▸ hfe)
  · exact lt_asymm hef hfe

/-- The edges of some nodes do not depend on the order of the nodes. -/
theorem edgesOf_eq_of_perm {nodes nodes' : List TaskNode}
    (h : (nodes.map fun n => (n.id, n.dependencies)).Perm
      (nodes'.map fun n => (n.id, n.dependencies))) : edgesOf nodes = edgesOf nodes' := by
  have hmem (nodes : List TaskNode) (e : String × String) : e ∈ edgesOf nodes ↔
      e.1 ∈ (nodes.map fun n => (n.id, n.dependencies)).map (·.1) ∧
      ∃ q ∈ nodes.map fun n => (n.id, n.dependencies), q.1 = e.2 ∧ e.1 ∈ q.2 := by
    rw [← Prod.mk.eta (p := e), mem_edgesOf]
    simp
  -- both listings increase and have the same members, and so they are equal
  have hnodup (nodes : List TaskNode) : (edgesOf nodes).Nodup := by
    refine (pairwise_edgesOf nodes).imp ?_
    rintro e _ hee rfl
    exact EdgeBefore.asymm hee hee
  have hperm : (edgesOf nodes).Perm (edgesOf nodes') := by
    refine (List.perm_ext_iff_of_nodup (hnodup nodes) (hnodup nodes')).mpr fun e => ?_
    rw [hmem, hmem, (h.map (·.1)).mem_iff]
    simp only [h.mem_iff]
  exact List.Perm.eq_of_pairwise (fun e f _ _ hef hfe => (EdgeBefore.asymm hef hfe).elim)
    (pairwise_edgesOf nodes) (pairwise_edgesOf nodes') hperm

/-! ## Pipelines that differ in order -/

namespace TaskNode

/-- The same node, or one whose inputs have names of their own and stand in another order. -/
inductive Rearranged : TaskNode → TaskNode → Prop
  | same (n : TaskNode) : Rearranged n n
  | inputs {n : TaskNode} (distinct : n.definition.DistinctInputs) {inputs : List InputSpec}
      (h : n.definition.inputs.Perm inputs) :
      Rearranged n { n with definition := { n.definition with inputs } }

/-- An input of a node with what it is bound to. -/
def nodeInput (n : TaskNode) (i : InputSpec) : NodeInput :=
  ⟨i.name, i.dataType, n.bindings.get? i.name, i.defaultValue⟩

/-- The node of a manifest that a node becomes. -/
structure CompilesTo (n : TaskNode) (k : ManifestNode) : Prop where
  id_eq : k.id = n.id
  name_eq : k.name = n.name
  component_eq : k.component = n.definition.name
  inputs_sorted : k.inputs.Pairwise fun i j => i.name ≤ j.name
  inputs_perm : k.inputs.Perm (n.definition.inputs.map n.nodeInput)
  outputs_eq : k.outputs =
    n.definition.outputs.map fun o => ⟨o.name, o.dataType, .output n.id o.name⟩
  resources_eq : k.resources = n.resources
  condition_eq : k.condition = n.condition
  body_eq : k.body = n.definition.body

variable {n n' : TaskNode}

theorem Rearranged.dependencies_eq (h : n.Rearranged n') :
    (n'.id, n'.dependencies) = (n.id, n.dependencies) := by
  cases h <;> rfl

theorem Rearranged.compile_eq (h : n.Rearranged n') : n'.compile = n.compile := by
  cases h with
  | same => rfl
  | @inputs hdistinct inputs hperm =>
    have hnodup : ((n.definition.inputs.map n.nodeInput).map (·.name)).Nodup := by
      rw [List.map_map]
      exact hdistinct
    have hinputs : n.compileInputs =
        ({ n with definition := { n.definition with inputs } } : TaskNode).compileInputs :=
      mergeSort_eq_of_nodup NodeInput.name _ (by simp) (hperm.map n.nodeInput) hnodup
    rw [TaskNode.compile, ← hinputs]
    rfl

theorem compilesTo_compile
    (houtputs : n.outputs = n.definition.outputs.map fun o => .output n.id o.name) :
    n.CompilesTo n.compile where
  id_eq := rfl
  name_eq := rfl
  component_eq := rfl
  inputs_sorted := pairwise_key_mergeSort NodeInput.name (by simp) _
  inputs_perm := List.mergeSort_perm _ _
  outputs_eq := by
    simp only [TaskNode.compile, houtputs, List.zip, List.zipWith_map_right, List.zipWith_self,
      List.map_map]
    rfl
  resources_eq := rfl
  condition_eq := rfl
  body_eq := rfl

end TaskNode

namespace Pipeline
variable {p p' : Pipeline}

/-- A pipeline that comes about by building and sealing. -/
def Sealed (p : Pipeline) : Prop := ∃ b : Builder, b.Reached (fun _ => True) ∧ b.seal = .ok p

/-- The same pipeline put together in another order. -/
structure Rearranged (p p' : Pipeline) : Prop where
  name_eq : p'.name = p.name
  description_eq : p'.description = p.description
  params_perm : p.params.Perm p'.params
  nodes_perm : ∃ nodes, p.nodes.Perm nodes ∧ List.Forall₂ TaskNode.Rearranged nodes p'.nodes

/-- A manifest with everything that a pipeline has, in order. -/
structure CompilesTo (p : Pipeline) (m : Manifest) : Prop where
  nodes_increase : m.nodes.Pairwise fun k l => k.id < l.id
  parameters_increase : m.parameters.Pairwise fun s t => s.name < t.name
  edges_increase : m.edges.Pairwise EdgeBefore
  nodes_perm : ∃ nodes, m.nodes.Perm nodes ∧ List.Forall₂ TaskNode.CompilesTo p.nodes nodes
  parameters_perm : m.parameters.Perm p.params
  edges_eq : m.edges = p.edges

variable {b : Builder}

theorem params_nodup_of_seal (hb : b.Reached fun _ => True) (hseal : b.seal = .ok p) :
    (p.params.map (·.name)).Nodup := by
  obtain ⟨hfaultless, rfl⟩ := Builder.faultless_of_seal hseal
  exact (hb.sound hfaultless.deferred).params_nodup

/-- A sealed pipeline is compiled, and everything that it has is listed in order. -/
theorem compilesTo_of_seal (hb : b.Reached fun _ => True) (hseal : b.seal = .ok p) :
    p.compile = .ok p.toManifest ∧ p.CompilesTo p.toManifest := by
  have hcompile := hb.compile_of_seal hseal
  obtain ⟨-, hnodup, hcompilable, hedges, -⟩ := compilable_of_compile hcompile
  refine ⟨hcompile, ?_⟩
  constructor
  case nodes_increase =>
    refine mergeSort_increases ManifestNode.id (by simp) ?_
    rw [List.map_map]
    exact hnodup
  case parameters_increase =>
    exact mergeSort_increases ParameterSpec.name (by simp) (params_nodup_of_seal hb hseal)
  case edges_increase =>
    change p.edges.Pairwise EdgeBefore
    exact hedges ▸ pairwise_edgesOf p.nodes
  case nodes_perm =>
    refine ⟨p.nodes.map TaskNode.compile, List.mergeSort_perm _ _, ?_⟩
    refine List.forall₂_map_right_iff.mpr (List.forall₂_same.mpr fun n hn => ?_)
    exact TaskNode.compilesTo_compile (hcompilable n hn).outputs_eq
  case parameters_perm => exact List.mergeSort_perm _ _
  case edges_eq => rfl

/-- What does not see the order of inputs finds the same in both pipelines. -/
theorem Rearranged.map_perm (h : p.Rearranged p') {α : Type} (g : TaskNode → α)
    (hg : ∀ n n', TaskNode.Rearranged n n' → g n' = g n) :
    (p.nodes.map g).Perm (p'.nodes.map g) := by
  obtain ⟨nodes, hperm, hall⟩ := h.nodes_perm
  have hsame {l l' : List TaskNode} (hl : List.Forall₂ TaskNode.Rearranged l l') :
      l'.map g = l.map g := by
    induction hl with
    | nil => rfl
    | cons hn _ ih => rw [List.map_cons, List.map_cons, hg _ _ hn, ih]
  exact hsame hall ▸ hperm.map g

theorem Rearranged.toManifest_eq (h : p.Rearranged p') (hids : (p.nodes.map (·.id)).Nodup)
    (hparams : (p.params.map (·.name)).Nodup) (hedges : edgesOf p.nodes = p.edges)
    (hedges' : edgesOf p'.nodes = p'.edges) : p'.toManifest = p.toManifest := by
  have hnodes := mergeSort_eq_of_nodup ManifestNode.id (fun a b => a.id ≤ b.id) (by simp)
    (h.map_perm TaskNode.compile fun _ _ => TaskNode.Rearranged.compile_eq)
    (by rw [List.map_map]; exact hids)
  have hparameters := mergeSort_eq_of_nodup ParameterSpec.name (fun a b => a.name ≤ b.name)
    (by simp) h.params_perm hparams
  have hedge : p'.edges = p.edges := by
    rw [← hedges, ← hedges']
    exact (edgesOf_eq_of_perm (h.map_perm _ fun _ _ => TaskNode.Rearranged.dependencies_eq)).symm
  rw [toManifest, toManifest, h.name_eq, h.description_eq, hedge, hnodes, hparameters]

/-- A sealed pipeline is compiled to a manifest that lists everything in order, and every sealed
pipeline that was put together in another order is compiled to the same manifest. -/
theorem Sealed.compile_canonical (h : p.Sealed) : ∃ m, p.compile = .ok m ∧ p.CompilesTo m ∧
    ∀ p', p'.Sealed → p.Rearranged p' →
      ∃ m', p'.compile = .ok m' ∧ m' = m ∧ m'.digest = m.digest := by
  obtain ⟨b, hb, hseal⟩ := h
  obtain ⟨hcompile, hcompiles⟩ := compilesTo_of_seal hb hseal
  refine ⟨_, hcompile, hcompiles, fun p' hp' hr => ?_⟩
  obtain ⟨b', hb', hseal'⟩ := hp'
  have hcompile' := hb'.compile_of_seal hseal'
  obtain ⟨-, hids, -, hedges, -⟩ := compilable_of_compile hcompile
  obtain ⟨-, -, -, hedges', -⟩ := compilable_of_compile hcompile'
  have hsame : p'.toManifest = p.toManifest :=
    hr.toManifest_eq hids (params_nodup_of_seal hb hseal) hedges hedges'
  exact ⟨_, hcompile', hsame, congrArg Manifest.digest hsame⟩

/-- A task that adds two numbers, which can be declared in either order. -/
def adding (inputs : List InputSpec) : TaskDefinition :=
  { TaskDefinition.ofBody "add" (.registered "add") with
    inputs, outputs := [⟨"sum", .int⟩, ⟨"carry", .bool⟩] }

/-- Two sums, of which the second one adds a parameter to the first. -/
def sums : Builder :=
  ((((Builder.ofName "sums" none).declare ⟨"step", .int, none⟩).declare ⟨"from", .int, none⟩).define
    "first" (adding [⟨"x", .int, none⟩, ⟨"y", .int, none⟩])
    [("x", .param "from"), ("y", .param "step")] .empty).1.define
    "again" (adding [⟨"x", .int, none⟩, ⟨"y", .int, none⟩])
    [("x", .output "first" "sum"), ("y", .param "step")] .empty |>.1

/-- The same pipeline from back to front. -/
def sumsReversed : Builder :=
  ((((Builder.ofName "sums" none).declare ⟨"from", .int, none⟩).declare ⟨"step", .int, none⟩).define
    "again" (adding [⟨"y", .int, none⟩, ⟨"x", .int, none⟩])
    [("y", .param "step"), ("x", .output "first" "sum")] .empty).1.define
    "first" (adding [⟨"x", .int, none⟩, ⟨"y", .int, none⟩])
    [("y", .param "step"), ("x", .param "from")] .empty |>.1

theorem sums_compile_alike : ∃ p p' m, sums.seal = .ok p ∧ sumsReversed.seal = .ok p' ∧
    p.nodes.map (·.id) = ["first", "again"] ∧ p'.nodes.map (·.id) = ["again", "first"] ∧
    p.compile = .ok m ∧ p'.compile = .ok m ∧ p.CompilesTo m := by
  obtain ⟨p, p', hseal, hseal', hids, hids', hr⟩ : ∃ p p', sums.seal = .ok p ∧
      sumsReversed.seal = .ok p' ∧ p.nodes.map (·.id) = ["first", "again"] ∧
      p'.nodes.map (·.id) = ["again", "first"] ∧ p.Rearranged p' := by
    refine ⟨_, _, rfl, rfl, rfl, rfl, rfl, rfl, .swap _ _ _,
      [sums.nodes[1], sums.nodes[0]], .swap _ _ _, ?_⟩
    exact .cons (.inputs (by decide) (.swap _ _ _)) (.cons (.same _) .nil)
  have hp : p.Sealed := ⟨sums, .define (.define (.declare (.declare (.ofName _ _) _) _)
    _ trivial _ _) _ trivial _ _, hseal⟩
  have hp' : p'.Sealed := ⟨sumsReversed, .define (.define (.declare (.declare (.ofName _ _) _) _)
    _ trivial _ _) _ trivial _ _, hseal'⟩
  obtain ⟨m, hcompile, hcompiles, hsame⟩ := Sealed.compile_canonical hp
  obtain ⟨_, hcompile', rfl, -⟩ := hsame p' hp' hr
  exact ⟨p, p', _, hseal, hseal', hids, hids', hcompile, hcompile', hcompiles⟩

end Pipeline
end Workflow
