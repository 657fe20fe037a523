import Mathlib.Data.List.Basic
import Mathlib.Data.String.Basic
import Workflow.Manifest.Compile
import Workflow.Proofs.Data.Dict
import Workflow.Proofs.Graph.Cycle

/-!
# What sealing and compiling check

A pipeline that is sealed has no faults, and one that is compiled meets no obstacle. The lemmas here
read the checks back as statements about nodes.
-/
namespace Workflow
variable {b : Builder} {p : Pipeline}

/-! ## Sealing -/

/-- Nothing is wrong with a builder: no fault is kept, and no node has one. -/
structure Builder.Faultless (b : Builder) : Prop where
  deferred : b.deferred = []
  dangling : ∀ n ∈ b.nodes, Diagnosis.danglingFaults b n = []
  types : ∀ n ∈ b.nodes, Diagnosis.typeFaults b n = []
  unbound : ∀ n ∈ b.nodes, Diagnosis.unboundFaults n = []

/-- A builder is sealed exactly if it has nodes, nothing is wrong with them and they do not read in a
circle. -/
theorem Builder.seal_eq_ok_iff :
    b.seal = .ok p ↔ (b.nodes ≠ [] ∧ Diagnosis.cycleFaults b = [] ∧ b.Faultless) ∧
      p = ⟨b.name, b.description, b.params, b.nodes, edgesOf b.nodes, b.registry⟩ := by
  have hfaults : b.diagnose.faults = [] ↔
      b.nodes ≠ [] ∧ Diagnosis.cycleFaults b = [] ∧ b.Faultless := by
    unfold diagnose
    split_ifs with hempty
    · exact iff_of_false (by simp) fun h => h.1 (List.isEmpty_iff.mp hempty)
    · simp only [List.append_eq_nil_iff, List.flatMap_eq_nil_iff]
      constructor
      · rintro ⟨⟨⟨⟨hdeferred, hdangling⟩, hcycle⟩, htypes⟩, hunbound⟩
        exact ⟨fun h => hempty (List.isEmpty_iff.mpr h), hcycle,
          ⟨hdeferred, hdangling, htypes, hunbound⟩⟩
      · rintro ⟨-, hcycle, h⟩
        exact ⟨⟨⟨⟨h.deferred, h.dangling⟩, hcycle⟩, h.types⟩, h.unbound⟩
  rw [← hfaults, Builder.seal]
  cases b.diagnose.faults <;> simp [eq_comm]

theorem Builder.faultless_of_seal (h : b.seal = .ok p) :
    b.Faultless ∧ p = ⟨b.name, b.description, b.params, b.nodes, edgesOf b.nodes, b.registry⟩ := by
  obtain ⟨⟨-, -, hfaultless⟩, hp⟩ := seal_eq_ok_iff.mp h
  exact ⟨hfaultless, hp⟩

theorem Diagnosis.cycleFaults_eq_nil_iff : cycleFaults b = [] ↔ (graph b).Acyclic := by
  have hg : (graph b).WellFormed := TaskGraph.ofEdges_wellFormed _ _
  rw [← TaskGraph.validateAcyclic_eq_ok_iff hg, cycleFaults]
  cases (graph b).validateAcyclic <;> simp

/-! ## Edges -/

theorem mem_insertPair {p q : String × String} {sorted : List (String × String)} :
    q ∈ insertPair p sorted ↔ q = p ∨ q ∈ sorted := by
  induction sorted with
  | nil => simp [insertPair]
  | cons r rest ih =>
    unfold insertPair
    split_ifs with he
    · subst he
      simp
    · simp
    · simp [ih, or_left_comm]

theorem pairBefore_iff {p q : String × String} :
    pairBefore p q = true ↔ p.1 < q.1 ∨ p.1 = q.1 ∧ p.2 < q.2 := by
  simp [pairBefore]

theorem pairBefore_trans {p q r : String × String} (hpq : pairBefore p q = true)
    (hqr : pairBefore q r = true) : pairBefore p r = true := by
  rw [pairBefore_iff] at hpq hqr ⊢
  rcases hpq with hpq | ⟨hpq, hpq'⟩ <;> rcases hqr with hqr | ⟨hqr, hqr'⟩
  · exact .inl (lt_trans hpq hqr)
  · exact .inl (hqr ▸ hpq)
  · exact .inl (hpq ▸ hqr)
  · exact .inr ⟨hpq.trans hqr, lt_trans hpq' hqr'⟩

/-- Two pairs that differ stand in one order or the other. -/
theorem pairBefore_of_not {p q : String × String} (hne : p ≠ q) (h : ¬ pairBefore p q = true) :
    pairBefore q p = true := by
  rw [pairBefore_iff] at h ⊢
  rcases lt_trichotomy p.1 q.1 with hlt | heq | hgt
  · exact absurd (.inl hlt) h
  · rcases lt_trichotomy p.2 q.2 with hlt | heq' | hgt
    · exact absurd (.inr ⟨heq, hlt⟩) h
    · exact absurd (Prod.ext heq heq') hne
    · exact .inr ⟨heq.symm, hgt⟩
  · exact .inl hgt

theorem pairwise_insertPair {p : String × String} {sorted : List (String × String)}
    (h : sorted.Pairwise fun q r => pairBefore q r) :
    (insertPair p sorted).Pairwise fun q r => pairBefore q r := by
  induction sorted with
  | nil => exact List.pairwise_singleton _ _
  | cons q rest ih =>
    obtain ⟨hq, hrest⟩ := List.pairwise_cons.mp h
    unfold insertPair
    split_ifs with heq hbefore
    · exact h
    · refine List.pairwise_cons.mpr ⟨fun r hr => ?_, h⟩
      rcases List.mem_cons.mp hr with rfl | hr
      · exact hbefore
      · exact pairBefore_trans hbefore (hq r hr)
    · refine List.pairwise_cons.mpr ⟨fun r hr => ?_, ih hrest⟩
      rcases mem_insertPair.mp hr with rfl | hr
      · exact pairBefore_of_not heq hbefore
      · exact hq r hr

theorem mem_foldl_insertPair {pairs sorted : List (String × String)} {q : String × String} :
    q ∈ pairs.foldl (fun sorted p => insertPair p sorted) sorted ↔ q ∈ pairs ∨ q ∈ sorted := by
  induction pairs generalizing sorted with
  | nil => simp
  | cons p rest ih =>
    rw [List.foldl_cons, ih, mem_insertPair, List.mem_cons]
    tauto

/-- The dependencies are listed in order and once each. -/
theorem pairwise_edgesOf (nodes : List TaskNode) :
    (edgesOf nodes).Pairwise fun q r => q.1 < r.1 ∨ q.1 = r.1 ∧ q.2 < r.2 := by
  have hfold (pairs sorted : List (String × String))
      (h : sorted.Pairwise fun q r => pairBefore q r) :
      (pairs.foldl (fun sorted p => insertPair p sorted) sorted).Pairwise fun q r =>
        pairBefore q r := by
    induction pairs generalizing sorted with
    | nil => exact h
    | cons p rest ih => exact ih _ (pairwise_insertPair h)
  exact (hfold _ [] .nil).imp pairBefore_iff.mp

theorem mem_edgesOf {nodes : List TaskNode} {source target : String} :
    (source, target) ∈ edgesOf nodes ↔
      source ∈ nodes.map (·.id) ∧ ∃ n ∈ nodes, n.id = target ∧ source ∈ n.dependencies := by
  simp only [edgesOf, mem_foldl_insertPair, List.not_mem_nil, or_false, List.mem_flatMap,
    List.mem_map, List.mem_filter, Prod.mk.injEq, List.contains_iff_mem]
  constructor
  · rintro ⟨n, hn, d, ⟨hd, hknown⟩, rfl, rfl⟩
    exact ⟨hknown, n, hn, rfl, hd⟩
  · rintro ⟨hknown, n, hn, rfl, hd⟩
    exact ⟨n, hn, source, ⟨hd, hknown⟩, rfl, rfl⟩

/-- A node depends on what its bindings and its condition read. -/
theorem TaskNode.mem_dependencies_iff {n : TaskNode} {task : String} : task ∈ n.dependencies ↔
    (∃ input output, n.bindings.get? input = some (.output task output)) ∨
      ∃ c ∈ n.condition.clauses, ∃ output, c.gate = .output task output := by
  have hbinding {binding : Binding} : binding.producer? = some task ↔
      ∃ output, binding = .output task output := by
    cases binding <;> simp [Binding.producer?]
  have hgate {g : GateRef} : g.producer? = some task ↔ ∃ output, g = .output task output := by
    cases g <;> simp [GateRef.producer?]
  simp only [dependencies, mem_sortedTexts, List.mem_append, Condition.producers,
    List.mem_filterMap, hbinding, hgate, Dict.mem_values_iff]
  refine or_congr_left ⟨?_, ?_⟩
  · rintro ⟨binding, ⟨input, hb⟩, output, rfl⟩
    exact ⟨input, output, hb⟩
  · rintro ⟨input, output, hb⟩
    exact ⟨_, ⟨input, hb⟩, output, rfl⟩

theorem TaskNode.mem_dependencies_of_binding {n : TaskNode} {input task output : String}
    (h : n.bindings.get? input = some (.output task output)) : task ∈ n.dependencies :=
  mem_dependencies_iff.mpr (.inl ⟨input, output, h⟩)

theorem TaskNode.mem_dependencies_of_clause {n : TaskNode} {c : ConditionClause}
    {task output : String} (hc : c ∈ n.condition.clauses) (h : c.gate = .output task output) :
    task ∈ n.dependencies :=
  mem_dependencies_iff.mpr (.inr ⟨c, hc, output, h⟩)

/-! ## Compiling -/

/-- Nothing keeps a node from being compiled. -/
structure Pipeline.Compilable (p : Pipeline) (n : TaskNode) : Prop where
  outputs_eq : n.outputs = n.definition.outputs.map fun o => .output n.id o.name
  known : ∀ d ∈ n.dependencies, d ∈ p.nodes.map (·.id)

/-- What a node makes is registered, and none of its inputs is left open. -/
structure Pipeline.Complete (p : Pipeline) (n : TaskNode) : Prop where
  registered : ∀ a ∈ n.outputs, (p.registry.get? a).isSome = true
  bound : ∀ i ∈ n.definition.inputs, i.defaultValue = none → n.bindings.contains i.name = true

theorem Pipeline.isSome_node?_iff {id : String} :
    (p.node? id).isSome = true ↔ id ∈ p.nodes.map (·.id) := by
  simp [node?, List.find?_isSome]

theorem Pipeline.nodeObstacle?_eq_none_iff {earlier : List String} {n : TaskNode} :
    p.nodeObstacle? earlier n = none ↔ n.id ∉ earlier ∧ p.Compilable n ∧ p.Complete n := by
  have hregistered : (n.outputs.find? fun a => (p.registry.get? a).isNone) = none ↔
      ∀ a ∈ n.outputs, (p.registry.get? a).isSome = true := by
    simp [Option.isSome_iff_ne_none]
  have hbound : (n.definition.inputs.find? fun i =>
      i.defaultValue.isNone && ¬ n.bindings.contains i.name) = none ↔
      ∀ i ∈ n.definition.inputs, i.defaultValue = none → n.bindings.contains i.name = true := by
    simp
  have hknown : (n.dependencies.find? fun d => (p.node? d).isNone) = none ↔
      ∀ d ∈ n.dependencies, d ∈ p.nodes.map (·.id) := by
    simp only [← isSome_node?_iff]
    simp [Option.isSome_iff_ne_none]
  -- the obstacles, in the order in which they are looked for
  unfold nodeObstacle?
  split_ifs with hdup hout
  · exact iff_of_false (by simp) fun h => h.1 (List.contains_iff_mem.mp hdup)
  · exact iff_of_false (by simp) fun h => hout h.2.1.outputs_eq
  · have hnew : n.id ∉ earlier := fun h => hdup (List.contains_iff_mem.mpr h)
    split
    · rename_i a ha
      refine iff_of_false (by simp) fun h => ?_
      cases ha.symm.trans (hregistered.mpr h.2.2.registered)
    · rename_i hr
      split
      · rename_i i hi
        refine iff_of_false (by simp) fun h => ?_
        cases hi.symm.trans (hbound.mpr h.2.2.bound)
      · rename_i hb
        rw [Option.map_eq_none_iff, hknown]
        constructor
        · exact fun h => ⟨hnew, ⟨not_not.mp hout, h⟩, hregistered.mp hr, hbound.mp hb⟩
        · exact fun h => h.2.1.known

theorem Pipeline.nodesObstacle?_eq_none_iff {earlier : List String} {nodes : List TaskNode} :
    p.nodesObstacle? earlier nodes = none ↔
      (nodes.map (·.id)).Nodup ∧ (∀ n ∈ nodes, n.id ∉ earlier) ∧
        ∀ n ∈ nodes, p.Compilable n ∧ p.Complete n := by
  induction nodes generalizing earlier with
  | nil => simp [nodesObstacle?]
  | cons n rest ih =>
    have hstep : p.nodesObstacle? earlier (n :: rest) = none ↔
        p.nodeObstacle? earlier n = none ∧ p.nodesObstacle? (n.id :: earlier) rest = none := by
      rw [nodesObstacle?]
      cases p.nodeObstacle? earlier n <;> simp
    rw [hstep, nodeObstacle?_eq_none_iff, ih, List.map_cons, List.nodup_cons, List.forall_mem_cons,
      List.forall_mem_cons]
    simp only [List.mem_cons, not_or, List.mem_map, not_exists, not_and]
    constructor
    · rintro ⟨⟨hnew, hnode⟩, hnodup, hearlier, hrest⟩
      exact ⟨⟨fun n' hn' => (hearlier n' hn').1, hnodup⟩,
        ⟨hnew, fun n' hn' => (hearlier n' hn').2⟩, hnode, hrest⟩
    · rintro ⟨⟨hfirst, hnodup⟩, ⟨hnew, hearlier⟩, hnode, hrest⟩
      exact ⟨⟨hnew, hnode⟩, hnodup, fun n' hn' => ⟨hfirst n' hn', hearlier n' hn'⟩, hrest⟩

/-- A pipeline is compiled exactly if its nodes and edges are in order. -/
theorem Pipeline.compile_eq_ok_iff {m : Manifest} :
    p.compile = .ok m ↔ m = p.toManifest ∧ p.nodes ≠ [] ∧ (p.nodes.map (·.id)).Nodup ∧
      (∀ n ∈ p.nodes, p.Compilable n ∧ p.Complete n) ∧ edgesOf p.nodes = p.edges ∧
      (TaskGraph.ofEdges (p.nodes.map (·.id)) p.edges).validateAcyclic = .ok () := by
  have hobstacle : p.obstacle? = none ↔ p.nodes ≠ [] ∧ p.nodesObstacle? [] p.nodes = none ∧
      edgesOf p.nodes = p.edges ∧
      (TaskGraph.ofEdges (p.nodes.map (·.id)) p.edges).validateAcyclic = .ok () := by
    unfold obstacle?
    cases hempty : p.nodes.isEmpty with
    | true => simp [List.isEmpty_iff.mp hempty]
    | false =>
      have hnodes : p.nodes ≠ [] := fun h => by simp [h] at hempty
      cases p.nodesObstacle? [] p.nodes with
      | some reason => simp
      | none =>
        by_cases hedges : edgesOf p.nodes = p.edges
        · cases (TaskGraph.ofEdges (p.nodes.map (·.id)) p.edges).validateAcyclic <;>
            simp [hnodes, hedges]
        · simp [hedges]
  have hcompile : p.compile = .ok m ↔ m = p.toManifest ∧ p.obstacle? = none := by
    unfold compile
    cases p.obstacle? <;> simp [eq_comm]
  rw [hcompile, hobstacle, nodesObstacle?_eq_none_iff]
  simp only [List.not_mem_nil, not_false_eq_true, implies_true, true_and, and_assoc]

/-- What is known of a pipeline that has been compiled. -/
theorem Pipeline.compilable_of_compile {m : Manifest} (h : p.compile = .ok m) :
    m = p.toManifest ∧ (p.nodes.map (·.id)).Nodup ∧ (∀ n ∈ p.nodes, p.Compilable n) ∧
      edgesOf p.nodes = p.edges ∧
      (TaskGraph.ofEdges (p.nodes.map (·.id)) p.edges).validateAcyclic = .ok () := by
  obtain ⟨hm, -, hnodup, hnodes, hedges, hacyclic⟩ := compile_eq_ok_iff.mp h
  exact ⟨hm, hnodup, fun n hn => (hnodes n hn).1, hedges, hacyclic⟩

end Workflow
