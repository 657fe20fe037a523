import Workflow.Manifest.Check
import Workflow.Proofs.Manifest.Coherent

/-!
# Checked manifests

What the check of a manifest establishes, as one structure of facts, and that it establishes nothing
else: a manifest passes exactly if it has these facts.
-/
namespace Workflow

namespace Manifest
variable {m : Manifest} {n : ManifestNode}

/-- What a reference points at stands in the manifest; a node that reads an output of another has an
edge from there. -/
def Provides (m : Manifest) (n : ManifestNode) : GateRef → Prop
  | .param name => name ∈ m.parameters.map (·.name)
  | .output task result => ∃ k, m.node? task = some k ∧ result ∈ k.outputs.map (·.name) ∧
      (task, n.id) ∈ m.edges

/-- What an input needs to have a value: a reference that is provided, a constant or a default. -/
def Supplied (m : Manifest) (n : ManifestNode) (i : NodeInput) : Prop :=
  match i.binding with
  | some (.param name) => m.Provides n (.param name)
  | some (.output task result) => m.Provides n (.output task result)
  | some (.literal _) => True
  | none => i.defaultValue.isSome = true

/-- The facts that the check of a manifest establishes. -/
structure Checked (m : Manifest) : Prop where
  version : m.apiVersion = manifestVersion
  nonempty : m.nodes ≠ []
  ids_nodup : (m.nodes.map (·.id)).Nodup
  flawless : ∀ n ∈ m.nodes, ArtifactId.nodeFlaw? n.id = none
  outputs_flawless : ∀ n ∈ m.nodes, ∀ o ∈ n.outputs, ArtifactId.segmentFlaw? o.name = none
  parameters_flawless : ∀ s ∈ m.parameters, ArtifactId.segmentFlaw? s.name = none
  edge_known : ∀ e ∈ m.edges, e.1 ∈ m.nodes.map (·.id) ∧ e.2 ∈ m.nodes.map (·.id)
  input : ∀ n ∈ m.nodes, ∀ i ∈ n.inputs, m.Supplied n i
  gate : ∀ n ∈ m.nodes, ∀ c ∈ n.condition.clauses, m.Provides n c.gate
  acyclic : m.graph.Acyclic

/-! ## The single checks -/

theorem firstProblem?_eq_none_iff {α : Type} {check : α → Option String} {items : List α} :
    firstProblem? check items = none ↔ ∀ x ∈ items, check x = none :=
  List.findSome?_eq_none_iff

theorem nodeNameProblem?_eq_none_iff : nodeNameProblem? n = none ↔
    ArtifactId.nodeFlaw? n.id = none ∧
      ∀ o ∈ n.outputs, ArtifactId.segmentFlaw? o.name = none := by
  unfold nodeNameProblem?
  cases ArtifactId.nodeFlaw? n.id <;> simp [firstProblem?_eq_none_iff]

theorem namesProblem?_eq_none_iff {earlier : List String} {nodes : List ManifestNode} :
    namesProblem? earlier nodes = none ↔ (nodes.map (·.id)).Nodup ∧
      (∀ n ∈ nodes, n.id ∉ earlier) ∧ ∀ n ∈ nodes, nodeNameProblem? n = none := by
  induction nodes generalizing earlier with
  | nil => simp [namesProblem?]
  | cons n rest ih =>
    have hstep : namesProblem? earlier (n :: rest) = none ↔
        n.id ∉ earlier ∧ nodeNameProblem? n = none ∧ namesProblem? (n.id :: earlier) rest = none := by
      rw [namesProblem?]
      split_ifs with hdup
      · simp [List.contains_iff_mem.mp hdup]
      · cases nodeNameProblem? n <;> simp [mt List.contains_iff_mem.mpr hdup]
    rw [hstep, ih, List.map_cons, List.nodup_cons, List.forall_mem_cons, List.forall_mem_cons]
    simp only [List.mem_cons, not_or, List.mem_map, not_exists, not_and]
    constructor
    · rintro ⟨hnew, hname, hnodup, hearlier, hnames⟩
      exact ⟨⟨fun k hk => (hearlier k hk).1, hnodup⟩, ⟨hnew, fun k hk => (hearlier k hk).2⟩,
        hname, hnames⟩
    · rintro ⟨⟨hfirst, hnodup⟩, ⟨hnew, hearlier⟩, hname, hnames⟩
      exact ⟨hnew, hname, hnodup, fun k hk => ⟨hfirst k hk, hearlier k hk⟩, hnames⟩

theorem parameterProblem?_eq_none_iff {s : ParameterSpec} :
    parameterProblem? s = none ↔ ArtifactId.segmentFlaw? s.name = none :=
  Option.map_eq_none_iff

theorem edgeProblem?_eq_none_iff {e : String × String} : m.edgeProblem? e = none ↔
    e.1 ∈ m.nodes.map (·.id) ∧ e.2 ∈ m.nodes.map (·.id) := by
  simp only [edgeProblem?, Bool.and_eq_true, List.contains_iff_mem]
  split_ifs with h
  · exact iff_of_true rfl h
  · exact iff_of_false (by simp) h

theorem outputProblem?_eq_none_iff {task result : String} :
    m.outputProblem? n task result = none ↔ m.Provides n (.output task result) := by
  simp only [outputProblem?, Provides]
  cases m.node? task with
  | none => simp
  | some k =>
    have hout : (k.output? result).isNone = true ↔ result ∉ k.outputs.map (·.name) := by
      simp [ManifestNode.output?]
    simp only [hout, List.contains_iff_mem, Option.some.injEq, exists_eq_left']
    split_ifs with hknown hedge <;> simp_all

theorem ite_parameter?_eq_none_iff {name problem : String} :
    (if (m.parameter? name).isNone then some problem else none) = none ↔
      m.Provides n (.param name) := by
  have hnone : (m.parameter? name).isNone = true ↔ ¬ m.Provides n (.param name) := by
    simp [parameter?, Provides]
  simp [hnone]

theorem clauseProblem?_eq_none_iff {c : ConditionClause} :
    m.clauseProblem? n c = none ↔ m.Provides n c.gate := by
  unfold clauseProblem?
  cases c.gate with
  | param name => exact ite_parameter?_eq_none_iff
  | output task result => exact outputProblem?_eq_none_iff

theorem inputProblem?_eq_none_iff {i : NodeInput} :
    m.inputProblem? n i = none ↔ m.Supplied n i := by
  unfold inputProblem? Supplied
  cases i.binding with
  | none => cases i.defaultValue <;> simp
  | some binding =>
    cases binding with
    | param name => exact ite_parameter?_eq_none_iff
    | output task result => exact outputProblem?_eq_none_iff
    | literal value => exact iff_of_true rfl trivial

theorem referencesProblem?_eq_none_iff : m.referencesProblem? n = none ↔
    (∀ i ∈ n.inputs, m.Supplied n i) ∧ ∀ c ∈ n.condition.clauses, m.Provides n c.gate := by
  simp only [referencesProblem?, Option.orElse_eq_orElse, Option.orElse_eq_or,
    Option.or_eq_none_iff, firstProblem?_eq_none_iff, inputProblem?_eq_none_iff,
    clauseProblem?_eq_none_iff]

theorem cycleProblem?_eq_none_iff : m.cycleProblem? = none ↔ m.graph.Acyclic := by
  have hg : m.graph.WellFormed := TaskGraph.ofEdges_wellFormed _ _
  rw [← TaskGraph.validateAcyclic_eq_ok_iff hg, cycleProblem?]
  cases m.graph.validateAcyclic <;> simp

/-! ## The whole check -/

/-- A manifest passes the check exactly if it has the facts that the check is for. -/
theorem validate_eq_ok_iff : m.validate = .ok () ↔ m.Checked := by
  have hproblem : m.validate = .ok () ↔ m.problem? = none := by
    unfold validate
    cases m.problem? <;> simp
  have hparts : m.problem? = none ↔ m.apiVersion = manifestVersion ∧ m.nodes ≠ [] ∧
      namesProblem? [] m.nodes = none ∧ (∀ s ∈ m.parameters, parameterProblem? s = none) ∧
      (∀ e ∈ m.edges, m.edgeProblem? e = none) ∧ (∀ n ∈ m.nodes, m.referencesProblem? n = none) ∧
      m.cycleProblem? = none := by
    unfold problem?
    split_ifs with hversion hempty
    · exact iff_of_false (by simp) fun h => hversion h.1
    · exact iff_of_false (by simp) fun h => h.2.1 (List.isEmpty_iff.mp hempty)
    · simp only [Option.orElse_eq_orElse, Option.orElse_eq_or, Option.or_eq_none_iff,
        firstProblem?_eq_none_iff]
      have hnonempty : m.nodes ≠ [] := fun h => hempty (List.isEmpty_iff.mpr h)
      rw [and_iff_right (not_not.mp hversion), and_iff_right hnonempty]
  rw [hproblem, hparts]
  simp only [namesProblem?_eq_none_iff, nodeNameProblem?_eq_none_iff, parameterProblem?_eq_none_iff,
    edgeProblem?_eq_none_iff, referencesProblem?_eq_none_iff, cycleProblem?_eq_none_iff,
    List.not_mem_nil, not_false_eq_true, implies_true, true_and]
  constructor
  · rintro ⟨hversion, hnonempty, ⟨hnodup, hnames⟩, hparams, hedges, hreferences, hacyclic⟩
    exact ⟨hversion, hnonempty, hnodup, fun n hn => (hnames n hn).1, fun n hn => (hnames n hn).2,
      hparams, hedges, fun n hn => (hreferences n hn).1, fun n hn => (hreferences n hn).2, hacyclic⟩
  · intro h
    exact ⟨h.version, h.nonempty, ⟨h.ids_nodup, fun n hn => ⟨h.flawless n hn, h.outputs_flawless n hn⟩⟩,
      h.parameters_flawless, h.edge_known, fun n hn => ⟨h.input n hn, h.gate n hn⟩, h.acyclic⟩

/-! ## Artifact ids

The check does not look at the ids under which outputs are stored. -/

/-- Every output is stored under the id that its readers look for. -/
def Canonical (m : Manifest) : Prop :=
  ∀ n ∈ m.nodes, ∀ o ∈ n.outputs, o.artifact = .output n.id o.name

instance (m : Manifest) : Decidable m.Canonical :=
  inferInstanceAs (Decidable (∀ n ∈ m.nodes, ∀ o ∈ n.outputs, _))

theorem Checked.edge_of_provides (h : m.Checked) {task result : String}
    (hprovides : m.Provides n (.output task result)) : m.graph.Edge task n.id := by
  obtain ⟨-, -, -, hedge⟩ := hprovides
  exact TaskGraph.edge_ofEdges.mpr ⟨hedge, h.edge_known _ hedge⟩

/-- A checked manifest is coherent if its outputs are stored where they are looked for. -/
theorem Checked.coherent (h : m.Checked) (hcanonical : m.Canonical) : m.Coherent where
  ids_nodup := h.ids_nodup
  flawless := h.flawless
  artifact_eq := hcanonical
  input_edge := by
    intro n hn i hi task result hbinding
    have hsupplied := h.input n hn i hi
    rw [Supplied, hbinding] at hsupplied
    exact h.edge_of_provides hsupplied
  gate_edge := by
    intro n hn c hc task result hgate
    exact h.edge_of_provides (hgate ▸ h.gate n hn c hc)
  acyclic := h.acyclic

end Manifest
end Workflow
