import Mathlib.Data.List.Nodup
import Mathlib.Logic.Relation
import Workflow.Graph.Basic
import Workflow.Proofs.Data.Dict

/-!
# The edges of a dependency graph

A graph that is built by adding nodes and edges has every node and every edge once, and its edges
join nodes of its own. Reachability is the reflexive transitive closure of the edge relation.
-/
namespace Workflow.TaskGraph
variable {g : TaskGraph} {a b : String}

/-- There is an edge from a producer to a consumer. -/
def Edge (g : TaskGraph) (a b : String) : Prop := (a, b) ∈ g.edges

/-- A way of any length from one node to another. -/
abbrev Way (g : TaskGraph) : String → String → Prop := Relation.ReflTransGen g.Edge

/-- No node is reached from itself by one edge or more. -/
def Acyclic (g : TaskGraph) : Prop := ∀ id, ¬ Relation.TransGen g.Edge id id

/-- Nodes and edges occur once, and edges join nodes of the graph. -/
structure WellFormed (g : TaskGraph) : Prop where
  nodes_nodup : g.nodes.Nodup
  edges_nodup : g.edges.Nodup
  source_mem : ∀ {a b}, g.Edge a b → a ∈ g.nodes
  target_mem : ∀ {a b}, g.Edge a b → b ∈ g.nodes

theorem contains_iff : g.contains a = true ↔ a ∈ g.nodes := by
  simp [contains]

theorem hasEdge_iff : g.hasEdge a b = true ↔ g.Edge a b := by
  simp [hasEdge, Edge]

theorem mem_successors : b ∈ g.successors a ↔ g.Edge a b := by
  simp [successors, Edge]

@[simp] theorem mem_dependencies : a ∈ g.dependencies b ↔ g.Edge a b := by
  simp [dependencies, Edge]

theorem mem_inNodeOrder {ids : List String} :
    a ∈ g.inNodeOrder ids ↔ a ∈ g.nodes ∧ a ∈ ids := by
  simp [inNodeOrder]

theorem mem_inner_successors (hg : g.WellFormed) {members : List String} :
    b ∈ g.inNodeOrder ((g.successors a).filter members.contains) ↔ g.Edge a b ∧ b ∈ members := by
  rw [mem_inNodeOrder, List.mem_filter, mem_successors, List.contains_iff_mem]
  exact ⟨fun h => h.2, fun h => ⟨hg.target_mem h.1, h⟩⟩

/-! ## Adding nodes and edges -/

theorem empty_wellFormed : empty.WellFormed :=
  ⟨List.nodup_nil, List.nodup_nil, fun h => by simp [Edge, empty] at h,
    fun h => by simp [Edge, empty] at h⟩

theorem mem_nodes_addNode : a ∈ (g.addNode b).nodes ↔ a = b ∨ a ∈ g.nodes := by
  unfold addNode
  split_ifs with h
  · constructor
    · exact .inr
    · rintro (rfl | h')
      · exact contains_iff.mp h
      · exact h'
  · simp [or_comm]

theorem edges_addNode : (g.addNode a).edges = g.edges := by
  unfold addNode
  split_ifs <;> rfl

theorem WellFormed.addNode (h : g.WellFormed) (a : String) : (g.addNode a).WellFormed where
  nodes_nodup := by
    unfold TaskGraph.addNode
    split_ifs with hc
    · exact h.nodes_nodup
    · exact List.concat_eq_append ▸ h.nodes_nodup.concat (fun hm => hc (contains_iff.mpr hm))
  edges_nodup := by
    rw [edges_addNode]
    exact h.edges_nodup
  source_mem he := mem_nodes_addNode.mpr (.inr (h.source_mem (by rwa [Edge, edges_addNode] at he)))
  target_mem he := mem_nodes_addNode.mpr (.inr (h.target_mem (by rwa [Edge, edges_addNode] at he)))

theorem nodes_addEdge : (g.addEdge a b).nodes = g.nodes := by
  unfold addEdge
  split_ifs <;> rfl

theorem edge_addEdge {c d : String} : (g.addEdge a b).Edge c d ↔
    g.Edge c d ∨ (c = a ∧ d = b ∧ a ∈ g.nodes ∧ b ∈ g.nodes) := by
  unfold addEdge knows Edge
  simp only [Bool.and_eq_true, contains_iff, decide_eq_true_eq]
  split_ifs with h
  · obtain ⟨⟨ha, hb⟩, -⟩ := h
    simp [ha, hb]
  · constructor
    · exact .inl
    · rintro (h' | ⟨rfl, rfl, ha, hb⟩)
      · exact h'
      · by_contra hne
        exact h ⟨⟨ha, hb⟩, fun he => hne (hasEdge_iff.mp he)⟩

theorem WellFormed.addEdge (h : g.WellFormed) (a b : String) : (g.addEdge a b).WellFormed where
  nodes_nodup := by
    rw [nodes_addEdge]
    exact h.nodes_nodup
  edges_nodup := by
    unfold TaskGraph.addEdge
    split_ifs with hc
    · simp only [Bool.and_eq_true, decide_eq_true_eq] at hc
      exact List.concat_eq_append ▸ h.edges_nodup.concat (fun hm => hc.2 (hasEdge_iff.mpr hm))
    · exact h.edges_nodup
  source_mem he := by
    rw [nodes_addEdge]
    rcases edge_addEdge.mp he with he | ⟨rfl, -, ha, -⟩
    · exact h.source_mem he
    · exact ha
  target_mem he := by
    rw [nodes_addEdge]
    rcases edge_addEdge.mp he with he | ⟨-, rfl, -, hb⟩
    · exact h.target_mem he
    · exact hb

/-! ## Graphs of given nodes and edges -/

theorem WellFormed.addNodes (h : g.WellFormed) (ids : List String) :
    (ids.foldl TaskGraph.addNode g).WellFormed := by
  induction ids generalizing g with
  | nil => exact h
  | cons id ids ih => exact ih (h.addNode id)

theorem WellFormed.addEdges (h : g.WellFormed) (es : List (String × String)) :
    (es.foldl (fun g e => g.addEdge e.1 e.2) g).WellFormed := by
  induction es generalizing g with
  | nil => exact h
  | cons e es ih => exact ih (h.addEdge e.1 e.2)

theorem ofEdges_wellFormed (ids : List String) (es : List (String × String)) :
    (ofEdges ids es).WellFormed :=
  (empty_wellFormed.addNodes ids).addEdges es

theorem mem_nodes_addNodes (ids : List String) :
    a ∈ (ids.foldl addNode g).nodes ↔ a ∈ ids ∨ a ∈ g.nodes := by
  induction ids generalizing g with
  | nil => simp
  | cons id ids ih =>
    rw [List.foldl_cons, ih, mem_nodes_addNode, List.mem_cons]
    tauto

theorem edges_addNodes (ids : List String) : (ids.foldl addNode g).edges = g.edges := by
  induction ids generalizing g with
  | nil => rfl
  | cons id ids ih => rw [List.foldl_cons, ih, edges_addNode]

theorem nodes_addEdges (es : List (String × String)) :
    (es.foldl (fun g e => g.addEdge e.1 e.2) g).nodes = g.nodes := by
  induction es generalizing g with
  | nil => rfl
  | cons e es ih => rw [List.foldl_cons, ih, nodes_addEdge]

theorem edge_addEdges (es : List (String × String)) :
    (es.foldl (fun g e => g.addEdge e.1 e.2) g).Edge a b ↔
      g.Edge a b ∨ ((a, b) ∈ es ∧ a ∈ g.nodes ∧ b ∈ g.nodes) := by
  induction es generalizing g with
  | nil => simp
  | cons e es ih =>
    obtain ⟨c, d⟩ := e
    rw [List.foldl_cons, ih, edge_addEdge, nodes_addEdge, List.mem_cons, Prod.mk.injEq]
    constructor
    · rintro ((h | ⟨rfl, rfl, h⟩) | ⟨h, h'⟩)
      · exact .inl h
      · exact .inr ⟨.inl ⟨rfl, rfl⟩, h⟩
      · exact .inr ⟨.inr h, h'⟩
    · rintro (h | ⟨⟨rfl, rfl⟩ | h, h'⟩)
      · exact .inl (.inl h)
      · exact .inl (.inr ⟨rfl, rfl, h'⟩)
      · exact .inr ⟨h, h'⟩

theorem mem_nodes_ofEdges {ids : List String} {es : List (String × String)} :
    a ∈ (ofEdges ids es).nodes ↔ a ∈ ids := by
  rw [ofEdges, nodes_addEdges, mem_nodes_addNodes]
  simp [empty]

theorem edge_ofEdges {ids : List String} {es : List (String × String)} :
    (ofEdges ids es).Edge a b ↔ (a, b) ∈ es ∧ a ∈ ids ∧ b ∈ ids := by
  rw [ofEdges, edge_addEdges, mem_nodes_addNodes, mem_nodes_addNodes, Edge, edges_addNodes]
  simp [empty]

/-! ## Graphs that are built by any calls -/

/-- A call that makes a graph grow. -/
inductive Addition
  | node (id : String)
  | edge (source target : String)
  deriving DecidableEq, Repr

def add (g : TaskGraph) : Addition → TaskGraph
  | .node id => g.addNode id
  | .edge source target => g.addEdge source target

/-- The graph after a sequence of calls. -/
def built (additions : List Addition) : TaskGraph := additions.foldl add empty

theorem built_wellFormed (additions : List Addition) : (built additions).WellFormed := by
  refine List.foldlRecOn additions add empty_wellFormed fun g hg addition _ => ?_
  cases addition with
  | node id => exact hg.addNode id
  | edge source target => exact hg.addEdge source target

theorem nodes_prefix_add (addition : Addition) : g.nodes <+: (g.add addition).nodes := by
  cases addition with
  | node id =>
    simp only [add, addNode]
    split_ifs
    · exact List.prefix_rfl
    · exact List.prefix_append _ _
  | edge source target => exact ⟨[], by rw [List.append_nil, add, nodes_addEdge]⟩

/-- Nodes stay in the order in which they were added. -/
theorem nodes_prefix_built (before after : List Addition) :
    (built before).nodes <+: (built (before ++ after)).nodes := by
  rw [built, built, List.foldl_append]
  generalize before.foldl add empty = g
  induction after generalizing g with
  | nil => exact List.prefix_rfl
  | cons addition after ih => exact (nodes_prefix_add addition).trans (ih _)

end Workflow.TaskGraph
