import Workflow.Proofs.Pipeline.Fresh

/-!
# Names that are in order

An operation on a builder keeps a fault exactly if it uses a name that cannot stand in an artifact
id, declares a parameter for a second time or connects to a task that is not there. As long as no
fault is kept, all names are in order.
-/
namespace Workflow.Builder
variable {ok : TaskDefinition → Prop} {b : Builder}

theorem refusals_eq_nil_iff {what name : String} {flaw : Option NameFlaw} :
    refusals what name flaw = [] ↔ flaw = none := by
  simp [refusals]

theorem deferred_declare_eq_nil_iff {spec : ParameterSpec} :
    (b.declare spec).deferred = [] ↔ b.deferred = [] ∧
      ArtifactId.segmentFlaw? spec.name = none ∧ b.registry.param? spec.name = none := by
  unfold declare
  cases hr : b.registry.registerExternal? spec.name spec.dataType with
  | none => simp [ArtifactRegistry.registerExternal?_eq_none_iff.mp hr]
  | some registry =>
    have hnew := (ArtifactRegistry.registerExternal?_eq_some hr).1
    simp [refusals_eq_nil_iff, hnew]

theorem deferred_define_eq_nil_iff {name : String} {definition : TaskDefinition}
    {bindings : List (String × Binding)} {resources : ResourceProfile} :
    (b.define name definition bindings resources).1.deferred = [] ↔ b.deferred = [] ∧
      ArtifactId.nodeFlaw? (b.nextId name) = none ∧
      ∀ o ∈ definition.outputs, ArtifactId.segmentFlaw? o.name = none := by
  simp only [define, List.append_eq_nil_iff, refusals_eq_nil_iff, List.flatMap_eq_nil_iff]

theorem deferred_connect_eq_nil_iff {task output consumer input : String} :
    (b.connect task output consumer input).deferred = [] ↔
      b.deferred = [] ∧ consumer ∈ b.nodes.map (·.id) := by
  rw [← takes_iff, connect]
  cases b.takes consumer <;> simp

/-- The names of parameters and outputs can stand in artifact ids. -/
structure Named (b : Builder) : Prop where
  param : ∀ spec ∈ b.params, ArtifactId.segmentFlaw? spec.name = none
  output : ∀ n ∈ b.nodes, ∀ o ∈ n.definition.outputs, ArtifactId.segmentFlaw? o.name = none

theorem Named.declare (h : b.Named) {spec : ParameterSpec}
    (hname : ArtifactId.segmentFlaw? spec.name = none) : (b.declare spec).Named := by
  unfold Builder.declare
  cases b.registry.registerExternal? spec.name spec.dataType with
  | none => exact { h with }
  | some registry =>
    refine { h with param := fun s hs => ?_ }
    rcases List.mem_append.mp hs with hs | hs
    · exact h.param s hs
    · exact List.mem_singleton.mp hs ▸ hname

theorem Named.connect (h : b.Named) (task output consumer input : String) :
    (b.connect task output consumer input).Named := by
  obtain ⟨bindings, he⟩ := b.exists_connect_eq task output consumer input
  rw [he]
  refine { h with output := fun n hn => ?_ }
  obtain ⟨k, hk, rfl⟩ := List.mem_map.mp hn
  exact h.output k hk

/-- While no fault is kept, all names are in order. -/
theorem Reached.named (h : b.Reached ok) (hclean : b.deferred = []) : b.Named := by
  induction h with
  | ofName name description => exact ⟨by simp [Builder.ofName], by simp [Builder.ofName]⟩
  | declare h spec ih =>
    obtain ⟨hclean, hname, -⟩ := deferred_declare_eq_nil_iff.mp hclean
    exact (ih hclean).declare hname
  | define h name good bindings resources ih =>
    obtain ⟨hclean, -, houtputs⟩ := deferred_define_eq_nil_iff.mp hclean
    refine { ih hclean with output := fun n hn => ?_ }
    rcases List.mem_append.mp hn with hn | hn
    · exact (ih hclean).output n hn
    · rw [List.mem_singleton.mp hn]
      exact houtputs
  | connect h task output consumer input ih =>
    exact (ih (deferred_connect_eq_nil_iff.mp hclean).1).connect task output consumer input
  | openScope h clause ih => exact { ih hclean with }
  | closeScopes h depth ih => exact { ih hclean with }

end Workflow.Builder
