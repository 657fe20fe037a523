import Workflow.Proofs.Pipeline.Elaboration
import Workflow.Proofs.Pipeline.Phases

/-!
# References of a file point upwards

A block is opened only below the task that its gate reads, and a task is defined only below the
tasks that its bindings read. The conditions of a task stand above it, so that each of its
dependencies is a node that was defined earlier. A pipeline that comes out of a file has no cycle
and misses no task, whatever else is wrong with it.
-/
namespace Workflow

/-! ## Conditions above tasks -/

namespace FileItem
variable {outer : List ConditionClause} {items items' : List FileItem}

/-- The conditions around a task stand above it, unless they stand around all items. -/
def Enclosed (outer : List ConditionClause) (items : List FileItem) : Prop :=
  ∀ before item after, items = before ++ item :: after →
    ∀ t ∈ item.task?, ∀ c ∈ t.enclosing, c ∈ outer ∨ .condition c ∈ before

theorem Enclosed.append (h : Enclosed outer items) (h' : Enclosed outer items') :
    Enclosed outer (items ++ items') := by
  intro before item after he t ht c hc
  rcases List.append_eq_append_iff.mp he with ⟨front, rfl, hlater⟩ | ⟨front, rfl, hfront⟩
  · exact (h' front item after hlater t ht c hc).imp_right (List.mem_append_right items)
  · rcases List.cons_eq_append_iff.mp hfront with ⟨rfl, hlater⟩ | ⟨back, rfl, -⟩
    · exact (h' [] item after hlater t ht c hc).imp_right nofun
    · exact h before item back rfl t ht c hc

theorem Enclosed.block {condition : ConditionClause} (h : Enclosed (outer ++ [condition]) items) :
    Enclosed outer (.condition condition :: items) := by
  refine forall_place_cons.mpr ⟨nofun, fun before item after he t ht c hc => ?_⟩
  rcases h before item after he t ht c hc with hc | hc
  · rcases List.mem_append.mp hc with hc | hc
    · exact .inl hc
    · exact .inr (List.mem_singleton.mp hc ▸ List.mem_cons_self)
  · exact .inr (List.mem_cons_of_mem _ hc)

end FileItem

namespace TaskEntry

mutual

theorem enclosed_outline (e : TaskEntry) (outer : List ConditionClause) :
    FileItem.Enclosed outer (e.outline outer) := by
  cases e with
  | task spec =>
    refine FileItem.forall_place_cons.mpr ⟨fun t ht c hc => ?_, by simp⟩
    cases ht
    exact .inl hc
  | block condition entries => exact (enclosed_outlineList entries _).block

theorem enclosed_outlineList (entries : List TaskEntry) (outer : List ConditionClause) :
    FileItem.Enclosed outer (outlineList outer entries) := by
  cases entries with
  | nil => simp [FileItem.Enclosed, outlineList]
  | cons e es => exact (enclosed_outline e outer).append (enclosed_outlineList es outer)

end

end TaskEntry

/-! ## Dependencies -/

/-- A task among some items stands at a place of its own. -/
theorem FileItem.exists_place {items : List FileItem} {front back : List PlacedTask}
    {t : PlacedTask} (h : tasks items = front ++ t :: back) :
    ∃ before after, items = before ++ .task t :: after ∧ tasks before = front := by
  obtain ⟨l₁, l₂, rfl, hfront, hback⟩ := List.filterMap_eq_append_iff.mp h
  obtain ⟨l₃, item, l₄, rfl, hnone, hitem, -⟩ := List.filterMap_eq_cons_iff.mp hback
  cases item with
  | condition clause => cases hitem
  | task placed =>
    cases hitem
    refine ⟨l₁ ++ l₃, l₄, by simp, ?_⟩
    rw [tasks, List.filterMap_append, hfront, List.filterMap_eq_nil_iff.mpr hnone, List.append_nil]

namespace PipelineFile
variable {f : PipelineFile} {b : Builder}

/-- What a task of an orderly file reads, itself or in the conditions around it, stands above it. -/
theorem Orderly.names_above (h : f.Orderly) {before after : List FileItem} {t : PlacedTask}
    (hplace : f.outline = before ++ .task t :: after) {name : String}
    (hname : name ∈ (FileItem.task t).references ∨
      ∃ c ∈ t.enclosing, name ∈ (FileItem.condition c).references) :
    name ∈ FileItem.names before := by
  rcases hname with hname | ⟨c, hc, hname⟩
  · exact h.earlier before _ after hplace name hname
  · have hmem : .condition c ∈ before :=
      ((TaskEntry.enclosed_outlineList f.tasks [] before _ after hplace t rfl c hc).resolve_left
        List.not_mem_nil)
    obtain ⟨above, below, rfl⟩ := List.append_of_mem hmem
    rw [FileItem.names_append]
    exact List.mem_append_left _ (h.earlier above _ (below ++ .task t :: after)
      (by rw [hplace]; simp) name hname)

/-- The dependencies of a node are nodes that were defined before it. -/
theorem dependencies_above (h : f.toBuilder = .ok b) {before after : List TaskNode} {n : TaskNode}
    (hplace : b.nodes = before ++ n :: after) {name : String} (hname : name ∈ n.dependencies) :
    name ∈ before.map (·.id) := by
  have hbecomes := becomes_of_toBuilder h
  rw [hplace] at hbecomes
  have hbefore := List.forall₂_take_append _ _ _ hbecomes
  have hdrop := List.forall₂_drop_append _ _ _ hbecomes
  obtain ⟨t, back, hn, -, htasks⟩ := List.forall₂_cons_right_iff.mp hdrop
  have hsplit : FileItem.tasks f.outline = f.placedTasks.take before.length ++ t :: back := by
    rw [← htasks, List.take_append_drop]
    rfl
  obtain ⟨above, below, houtline, habove⟩ := FileItem.exists_place hsplit
  rw [PlacedTask.Becomes.map_id hbefore, ← habove, FileItem.map_tasks]
  refine (extends_of_toBuilder h).1.names_above houtline ?_
  rw [TaskNode.dependencies, mem_sortedTexts, List.mem_append, hn.bindings_eq] at hname
  refine hname.imp_right fun hname => ?_
  obtain ⟨c, hc, hproducer⟩ := List.mem_filterMap.mp hname
  exact ⟨c, hn.condition_eq ▸ hc, Option.mem_toList.mpr hproducer⟩

end PipelineFile

/-! ## No cycle and no missing task -/

namespace Builder
variable {ok : TaskDefinition → Prop} {b : Builder}

/-- A graph whose edges lead to later nodes has no cycle. -/
theorem acyclic_of_dependencies_above (hids : (b.nodes.map (·.id)).Nodup)
    (h : ∀ before n after, b.nodes = before ++ n :: after →
      ∀ name ∈ n.dependencies, name ∈ before.map (·.id)) : (Diagnosis.graph b).Acyclic := by
  -- along an edge the place among the nodes increases, and so it does along a path
  have hlt {source target : String} (hedge : (Diagnosis.graph b).Edge source target) :
      (b.nodes.map (·.id)).idxOf source < (b.nodes.map (·.id)).idxOf target := by
    obtain ⟨hedge, -, -⟩ := TaskGraph.edge_ofEdges.mp hedge
    obtain ⟨n, hn, hedge⟩ := List.mem_flatMap.mp hedge
    obtain ⟨_, hsource, he⟩ := List.mem_map.mp hedge
    cases he
    obtain ⟨before, after, hplace⟩ := List.append_of_mem hn
    rw [hplace, List.map_append, List.map_cons] at hids ⊢
    have hmem := h before n after hplace source hsource
    have htarget : n.id ∉ before.map (·.id) := fun hmem' =>
      (List.disjoint_of_nodup_append hids) hmem' List.mem_cons_self
    rw [List.idxOf_append_of_mem hmem, List.idxOf_append_of_notMem htarget]
    exact (List.idxOf_lt_length_of_mem hmem).trans_le (Nat.le_add_right _ _)
  intro id hcycle
  have hpath := Relation.TransGen.lift (p := (· < ·)) ((b.nodes.map (·.id)).idxOf ·)
    (fun _ _ => hlt) id id hcycle
  rw [Relation.transGen_eq_self] at hpath
  exact lt_irrefl _ hpath

/-- The fault that sealing reports is the first one of the diagnosis. -/
theorem mem_faults_of_seal {fault : Fault} (h : b.seal = .error fault) :
    fault ∈ b.diagnose.faults := by
  unfold Builder.seal at h
  cases hfaults : b.diagnose.faults with
  | nil => simp [hfaults] at h
  | cons first rest =>
    simp only [hfaults, Except.error.injEq] at h
    exact h ▸ List.mem_cons_self

/-- A node is only said to read from an unknown task if it depends on a task that is not there. -/
theorem exists_dependency_of_unknownTask {n : TaskNode} {node task : String}
    (h : .unknownTask node task ∈ Diagnosis.danglingFaults b n) :
    task ∈ n.dependencies ∧ task ∉ b.nodes.map (·.id) := by
  have hreference {place : String} {g : GateRef}
      (hg : Diagnosis.referenceFault? b n place g = some (.unknownTask node task)) :
      (∃ output, g = .output task output) ∧ task ∉ b.nodes.map (·.id) := by
    cases g with
    | param name =>
      simp only [Diagnosis.referenceFault?] at hg
      split_ifs at hg
      cases hg
    | output source output =>
      simp only [Diagnosis.referenceFault?, Diagnosis.outputFault?] at hg
      split_ifs at hg with htakes <;> cases hg
      exact ⟨⟨output, rfl⟩, fun hmem => htakes (takes_iff.mpr hmem)⟩
  rw [TaskNode.mem_dependencies_iff]
  -- the reference stands in a binding or in a gate, and the node depends on both
  rcases List.mem_append.mp h with h | h
  · obtain ⟨⟨input, binding⟩, hbinding, h⟩ := List.mem_flatMap.mp h
    have hget := Dict.mem_entries_iff.mp hbinding
    rcases List.mem_append.mp h with h | h
    · split_ifs at h
      · cases List.mem_singleton.mp h
      · cases h
    · cases binding with
      | param name =>
        obtain ⟨⟨_, he⟩, -⟩ := hreference (Option.mem_toList.mp h)
        cases he
      | output source result =>
        obtain ⟨⟨_, he⟩, hmissing⟩ := hreference (Option.mem_toList.mp h)
        cases he
        exact ⟨.inl ⟨input, result, hget⟩, hmissing⟩
      | literal value => cases h
  · obtain ⟨c, hc, h⟩ := List.mem_filterMap.mp h
    obtain ⟨⟨output, hgate⟩, hmissing⟩ := hreference h
    exact ⟨.inr ⟨c, hc, output, hgate⟩, hmissing⟩

end Builder

namespace PipelineFile
variable {f : PipelineFile} {b : Builder}

theorem reached_of_toBuilder (h : f.toBuilder = .ok b) : b.Reached (· ∈ f.components) := by
  obtain ⟨-, defined, hextends⟩ := extends_of_toBuilder h
  exact hextends.reached f.start_blank.2.2

theorem graph_acyclic (h : f.toBuilder = .ok b) : (Diagnosis.graph b).Acyclic :=
  Builder.acyclic_of_dependencies_above (reached_of_toBuilder h).formed.ids_nodup
    fun _ _ _ hplace _ hname => dependencies_above h hplace hname

theorem cyclicGraph_notMem_faults (h : f.toBuilder = .ok b) (cycle : List String) :
    .cyclicGraph cycle ∉ b.diagnose.faults := by
  intro hfault
  rw [Builder.diagnose_faults] at hfault
  obtain ⟨φ, -, hfault⟩ := List.mem_flatMap.mp hfault
  cases Builder.phase?_of_mem_faults (reached_of_toBuilder h) hfault
  rw [Phase.faults, Diagnosis.cycleFaults_eq_nil_iff.mpr (graph_acyclic h)] at hfault
  cases hfault

theorem unknownTask_notMem_faults (h : f.toBuilder = .ok b) (node task : String) :
    .unknownTask node task ∉ b.diagnose.faults := by
  intro hfault
  rw [Builder.diagnose_faults] at hfault
  obtain ⟨φ, -, hfault⟩ := List.mem_flatMap.mp hfault
  cases Builder.phase?_of_mem_faults (reached_of_toBuilder h) hfault
  obtain ⟨n, hn, hfault⟩ := List.mem_flatMap.mp hfault
  obtain ⟨hdependency, hmissing⟩ := Builder.exists_dependency_of_unknownTask hfault
  obtain ⟨before, after, hplace⟩ := List.append_of_mem hn
  have habove := dependencies_above h hplace hdependency
  rw [hplace, List.map_append] at hmissing
  exact hmissing (List.mem_append_left _ habove)

/-- In a pipeline from a file all dependencies lead to earlier nodes. Its graph has no cycle, and
sealing it never reports a cycle or an unknown task. -/
theorem dependencies_earlier (h : f.toBuilder = .ok b) :
    (∀ (i : Nat) (n : TaskNode), b.nodes[i]? = some n → ∀ name ∈ n.dependencies,
      ∃ j < i, ∃ m : TaskNode, b.nodes[j]? = some m ∧ m.id = name) ∧
    (Diagnosis.graph b).Acyclic ∧
    ∀ fault, b.seal = .error fault →
      (∀ cycle, fault ≠ .cyclicGraph cycle) ∧ ∀ node task, fault ≠ .unknownTask node task := by
  refine ⟨fun i n hi name hname => ?_, graph_acyclic h, fun fault hfault => ?_⟩
  · obtain ⟨hlt, rfl⟩ := List.getElem?_eq_some_iff.mp hi
    have hplace : b.nodes = b.nodes.take i ++ b.nodes[i] :: b.nodes.drop (i + 1) := by
      rw [← List.drop_eq_getElem_cons hlt, List.take_append_drop]
    obtain ⟨m, hm, rfl⟩ := List.mem_map.mp (dependencies_above h hplace hname)
    obtain ⟨j, hj, rfl⟩ := List.mem_take_iff_getElem.mp hm
    exact ⟨j, by omega, _, List.getElem?_eq_getElem _, rfl⟩
  · have hmem := Builder.mem_faults_of_seal hfault
    refine ⟨fun cycle he => ?_, fun node task he => ?_⟩
    · exact cyclicGraph_notMem_faults h cycle (he ▸ hmem)
    · exact unknownTask_notMem_faults h node task (he ▸ hmem)

/-- A file that reads an output which its component does not have. -/
def misreadFile : PipelineFile where
  version := defaultVersion
  name := "misread"
  description := none
  parameters := []
  components :=
    [{ TaskDefinition.ofBody "score" (.registered "score") with outputs := [⟨"passed", .bool⟩] },
     { TaskDefinition.ofBody "publish" (.registered "publish") with
       inputs := [⟨"accuracy", .float, none⟩] }]
  tasks :=
    [.task ⟨"score", "score", .empty, .empty⟩,
     .block ⟨.output "score" "passed", .bool true⟩
       [.task ⟨"publish", "publish", .ofList [("accuracy", .output "score" "accuracy")], .empty⟩]]

theorem misreadFile_refused : ∃ b, misreadFile.toBuilder = .ok b ∧
    b.seal = .error (.unknownOutput "publish" "accuracy" "score" "accuracy") ∧
    (b.nodes.map fun n => (n.id, n.dependencies)) = [("score", []), ("publish", ["score"])] ∧
    (Diagnosis.graph b).Acyclic := by
  obtain ⟨b, hb, hseal, hnodes⟩ : ∃ b, misreadFile.toBuilder = .ok b ∧
      b.seal = .error (.unknownOutput "publish" "accuracy" "score" "accuracy") ∧
      (b.nodes.map fun n => (n.id, n.dependencies)) = [("score", []), ("publish", ["score"])] :=
    ⟨_, rfl, rfl, rfl⟩
  exact ⟨b, hb, hseal, hnodes, (dependencies_earlier hb).2.1⟩

end PipelineFile
end Workflow
