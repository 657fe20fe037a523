import Mathlib.Data.List.Basic
import Workflow.Pipeline.Builder
import Workflow.Proofs.Artifact.Registry
import Workflow.Proofs.Data.Dict

/-!
# Pipelines as they are built

A builder changes by six operations. As long as no fault is kept and no id is used twice, its registry
tells the declared types of exactly what its parameters and tasks declare.
-/
namespace Workflow

namespace ArtifactRegistry
variable {r : ArtifactRegistry} {a : ArtifactId} {node : String}

/-- An artifact is declared by one of the outputs that are registered, or has been there. -/
theorem get?_registerOutputs {outputs : List OutputSpec} {x : Artifact}
    (h : (outputs.foldl (fun r o => r.registerOutput node o.name o.dataType) r).get? a = some x) :
    (∃ o ∈ outputs, a = .output node o.name ∧ x.dataType = o.dataType) ∨ r.get? a = some x := by
  induction outputs generalizing r with
  | nil => exact .inr h
  | cons o rest ih =>
    rcases ih h with ⟨o', ho', hx⟩ | h
    · exact .inl ⟨o', List.mem_cons_of_mem _ ho', hx⟩
    · rw [get?_registerOutput] at h
      split_ifs at h with ha
      · cases h
        exact .inl ⟨o, List.mem_cons_self, ha, rfl⟩
      · exact .inr h

theorem get?_registerOutputs_of_ne {outputs : List OutputSpec}
    (h : ∀ o ∈ outputs, a ≠ .output node o.name) :
    (outputs.foldl (fun r o => r.registerOutput node o.name o.dataType) r).get? a = r.get? a := by
  induction outputs generalizing r with
  | nil => rfl
  | cons o rest ih =>
    obtain ⟨ho, hrest⟩ := List.forall_mem_cons.mp h
    rw [List.foldl_cons, ih hrest, get?_registerOutput, if_neg ho]

end ArtifactRegistry

namespace Builder
variable {ok : TaskDefinition → Prop} {b : Builder}

/-- The builders that come about by building, from definitions of some kind. -/
inductive Reached (ok : TaskDefinition → Prop) : Builder → Prop
  | ofName (name : String) (description : Option String) : Reached ok (ofName name description)
  | declare {b : Builder} (h : Reached ok b) (spec : ParameterSpec) : Reached ok (b.declare spec)
  | define {b : Builder} (h : Reached ok b) (name : String) {definition : TaskDefinition}
      (good : ok definition) (bindings : List (String × Binding)) (resources : ResourceProfile) :
      Reached ok (b.define name definition bindings resources).1
  | connect {b : Builder} (h : Reached ok b) (task output consumer input : String) :
      Reached ok (b.connect task output consumer input)
  | openScope {b : Builder} (h : Reached ok b) (clause : ConditionClause) :
      Reached ok (b.openScope clause)
  | closeScopes {b : Builder} (h : Reached ok b) (depth : Nat) : Reached ok (b.closeScopes depth)

/-- What a builder has of a node, apart from bindings and conditions. -/
structure NodeSound (ok : TaskDefinition → Prop) (n : TaskNode) : Prop where
  flawless : ArtifactId.nodeFlaw? n.id = none
  good : ok n.definition

/-- What a builder guarantees while no fault is kept. -/
structure Sound (ok : TaskDefinition → Prop) (b : Builder) : Prop where
  node : ∀ n ∈ b.nodes, NodeSound ok n
  params_nodup : (b.params.map (·.name)).Nodup
  param_declared : ∀ {name x}, b.registry.param? name = some x →
    ∃ spec ∈ b.params, spec.name = name ∧ spec.dataType = x.dataType
  param_registered : ∀ spec ∈ b.params, (b.registry.param? spec.name).isSome
  output_declared : ∀ {id output x}, ArtifactId.nodeFlaw? id = none →
    b.registry.output? id output = some x →
    ∃ n ∈ b.nodes, n.id = id ∧ ∃ o ∈ n.definition.outputs, o.name = output ∧
      o.dataType = x.dataType

theorem ofName_sound (name : String) (description : Option String) :
    (ofName name description).Sound ok where
  node _ h := nomatch h
  params_nodup := List.nodup_nil
  param_declared h := nomatch h
  param_registered _ h := nomatch h
  output_declared _ h := nomatch h

theorem Sound.declare (h : b.Sound ok) (spec : ParameterSpec)
    (hclean : (b.declare spec).deferred = []) : (b.declare spec).Sound ok := by
  simp only [Builder.declare] at hclean ⊢
  cases hr : b.registry.registerExternal? spec.name spec.dataType with
  | none => simp [hr] at hclean
  | some r =>
    obtain ⟨hnew, hget⟩ := ArtifactRegistry.registerExternal?_eq_some hr
    have hparam {name : String} : r.param? name =
        if name = spec.name then some ⟨.param spec.name, spec.dataType, .external, spec.name⟩
        else b.registry.param? name := by
      simp only [ArtifactRegistry.param?, hget, ArtifactId.param_inj]
    -- the registry has gained one entry, that of the parameter
    constructor
    case node => exact h.node
    case params_nodup =>
      have hfresh : spec.name ∉ b.params.map (·.name) := by
        intro hm
        obtain ⟨s, hs, he⟩ := List.mem_map.mp hm
        have hsome := h.param_registered s hs
        rw [he, hnew] at hsome
        cases hsome
      have hnodup := h.params_nodup.concat hfresh
      rw [List.concat_eq_append] at hnodup
      simpa using hnodup
    case param_declared =>
      intro name x hx
      simp only [hparam] at hx
      split_ifs at hx with he
      · cases hx
        exact ⟨spec, by simp, he.symm, rfl⟩
      · obtain ⟨s, hs, hname⟩ := h.param_declared hx
        exact ⟨s, List.mem_append_left _ hs, hname⟩
    case param_registered =>
      intro s hs
      simp only [hparam]
      split_ifs with he
      · rfl
      · rcases List.mem_append.mp hs with hs | hs
        · exact h.param_registered s hs
        · exact absurd (congrArg _ (List.mem_singleton.mp hs)) he
    case output_declared =>
      intro id output x hid hx
      simp only [ArtifactRegistry.output?, hget, if_neg (ArtifactId.output_ne_param hid)] at hx
      exact h.output_declared hid hx

theorem nodeFlaw?_of_define {name : String} {definition : TaskDefinition}
    {bindings : List (String × Binding)} {resources : ResourceProfile}
    (hclean : (b.define name definition bindings resources).1.deferred = []) :
    ArtifactId.nodeFlaw? (b.nextId name) = none := by
  simp only [Builder.define, refusals, List.append_eq_nil_iff, List.map_eq_nil_iff,
    Option.toList_eq_nil_iff] at hclean
  exact hclean.2.1

theorem Sound.define (h : b.Sound ok) (name : String) {definition : TaskDefinition}
    (good : ok definition) (bindings : List (String × Binding)) (resources : ResourceProfile)
    (hclean : (b.define name definition bindings resources).1.deferred = []) :
    (b.define name definition bindings resources).1.Sound ok := by
  have hflaw := nodeFlaw?_of_define hclean
  -- the new entries are those of outputs, and no output has the id of a parameter
  have hparam {parameter : String} :
      (b.define name definition bindings resources).1.registry.param? parameter =
        b.registry.param? parameter :=
    ArtifactRegistry.get?_registerOutputs_of_ne fun o _ =>
      (ArtifactId.output_ne_param hflaw).symm
  constructor
  case node =>
    intro n hn
    rcases List.mem_append.mp hn with hn | hn
    · exact h.node n hn
    · rw [List.mem_singleton.mp hn]
      exact ⟨hflaw, good⟩
  case params_nodup => exact h.params_nodup
  case param_declared =>
    intro parameter x hx
    exact h.param_declared (hparam ▸ hx)
  case param_registered =>
    intro spec hspec
    rw [hparam]
    exact h.param_registered spec hspec
  case output_declared =>
    intro id output x hid hx
    rcases ArtifactRegistry.get?_registerOutputs hx with ⟨o, ho, ha, ht⟩ | hx
    · obtain ⟨-, -, hpoint⟩ := ArtifactId.nodeFlaw?_eq_none_iff.mp hid
      obtain ⟨-, -, hpoint'⟩ := ArtifactId.nodeFlaw?_eq_none_iff.mp hflaw
      obtain ⟨rfl, rfl⟩ := (ArtifactId.output_inj hpoint hpoint').mp ha
      exact ⟨_, List.mem_append_right _ List.mem_cons_self, rfl, o, ho, rfl, ht.symm⟩
    · obtain ⟨n, hn, hrest⟩ := h.output_declared hid hx
      exact ⟨n, List.mem_append_left _ hn, hrest⟩

/-- A connection changes bindings of nodes alone, or keeps a fault. -/
theorem exists_connect_eq (b : Builder) (task output consumer input : String) :
    ∃ bindings : TaskNode → Dict Binding, b.connect task output consumer input =
      { b with
        nodes := b.nodes.map fun n => { n with bindings := bindings n }
        deferred := (b.connect task output consumer input).deferred } := by
  unfold connect
  split_ifs
  · refine ⟨fun n => if n.id = consumer then n.bindings.insert input (.output task output)
      else n.bindings, ?_⟩
    congr 1
    refine List.map_congr_left fun n _ => ?_
    beta_reduce
    split_ifs <;> rfl
  · refine ⟨fun n => n.bindings, ?_⟩
    congr 1
    exact (List.map_id' b.nodes).symm

theorem Sound.connect (h : b.Sound ok) (task output consumer input : String) :
    (b.connect task output consumer input).Sound ok := by
  obtain ⟨bindings, he⟩ := b.exists_connect_eq task output consumer input
  rw [he]
  constructor
  case node =>
    intro n hn
    obtain ⟨k, hk, rfl⟩ := List.mem_map.mp hn
    obtain ⟨hflaw, hgood⟩ := h.node k hk
    exact ⟨hflaw, hgood⟩
  case params_nodup => exact h.params_nodup
  case param_declared => exact h.param_declared
  case param_registered => exact h.param_registered
  case output_declared =>
    intro id result x hid hx
    obtain ⟨n, hn, rfl, hout⟩ := h.output_declared hid hx
    exact ⟨_, List.mem_map_of_mem hn, rfl, hout⟩

/-- While no fault is kept, building guarantees what `Sound` says. -/
theorem Reached.sound (h : b.Reached ok) (hclean : b.deferred = []) : b.Sound ok := by
  induction h with
  | ofName name description => exact ofName_sound name description
  | @declare b h spec ih =>
    refine (ih ?_).declare spec hclean
    simp only [Builder.declare] at hclean
    split at hclean <;> simp_all
  | @define b h name definition good bindings resources ih =>
    exact (ih (List.append_eq_nil_iff.mp hclean).1).define name good bindings resources hclean
  | @connect b h task output consumer input ih =>
    refine (ih ?_).connect task output consumer input
    unfold Builder.connect at hclean
    split_ifs at hclean <;> simp_all
  | openScope h clause ih => exact { ih hclean with }
  | closeScopes h depth ih => exact { ih hclean with }

end Builder
end Workflow
