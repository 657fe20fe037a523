import Mathlib.Data.List.Induction
import Mathlib.Tactic.MkIffOfInductiveProp
import Workflow.Proofs.Pipeline.Names

/-!
# Pipelines by their operations

A pipeline is built by a sequence of operations. Whether a fault is kept on the way can be told from
the operations: from the names that they use, the parameters that they declare and the tasks that
they connect.
-/
namespace Workflow

/-- A name that can be part of an artifact id. -/
def IsSegment (name : String) : Prop := name ≠ "" ∧ '.' ∉ name.toList

/-- What can be done to a builder. -/
inductive Operation where
  | declare (spec : ParameterSpec)
  | define (name : String) (definition : TaskDefinition) (bindings : List (String × Binding))
      (resources : ResourceProfile)
  | connect (task output consumer input : String)
  | openScope (clause : ConditionClause)
  | closeScopes (depth : Nat)

namespace Operation

def apply (b : Builder) : Operation → Builder
  | declare spec => b.declare spec
  | define name definition bindings resources => (b.define name definition bindings resources).1
  | connect task output consumer input => b.connect task output consumer input
  | openScope clause => b.openScope clause
  | closeScopes depth => b.closeScopes depth

def parameter? : Operation → Option String
  | declare spec => some spec.name
  | _ => none

def consumer? : Operation → Option String
  | connect _ _ consumer _ => some consumer
  | _ => none

/-- The definition of a new task is of some kind. -/
def Uses (ok : TaskDefinition → Prop) : Operation → Prop
  | define _ definition _ _ => ok definition
  | _ => True

/-- New parameters, tasks and outputs have names that can stand in artifact ids. -/
def Named : Operation → Prop
  | declare spec => IsSegment spec.name
  | define name definition _ _ => name ≠ paramsNamespace ∧ IsSegment name ∧
      ∀ o ∈ definition.outputs, IsSegment o.name
  | _ => True

/-- The operation has names in order, a parameter that is new and a task that is there. -/
@[mk_iff]
structure Fits (b : Builder) (op : Operation) : Prop where
  named : op.Named
  fresh : ∀ name, op.parameter? = some name → name ∉ b.params.map (·.name)
  known : ∀ consumer, op.consumer? = some consumer → consumer ∈ b.nodes.map (·.id)

end Operation

namespace Builder
variable {ok : TaskDefinition → Prop} {b : Builder} {op : Operation} {ops : List Operation}
  {name : String} {description : Option String}

/-! ## One operation -/

theorem Reached.apply (h : b.Reached ok) (hop : op.Uses ok) : (op.apply b).Reached ok := by
  cases op with
  | declare spec => exact .declare h spec
  | define name definition bindings resources => exact .define h name hop bindings resources
  | connect task output consumer input => exact .connect h task output consumer input
  | openScope clause => exact .openScope h clause
  | closeScopes depth => exact .closeScopes h depth

theorem Sound.param?_eq_none_iff (h : b.Sound ok) :
    b.registry.param? name = none ↔ name ∉ b.params.map (·.name) := by
  constructor
  · intro hnone hmem
    obtain ⟨spec, hspec, rfl⟩ := List.mem_map.mp hmem
    have hsome := h.param_registered spec hspec
    rw [hnone] at hsome
    cases hsome
  · intro hnot
    by_contra hne
    obtain ⟨x, hx⟩ := Option.ne_none_iff_exists'.mp hne
    obtain ⟨spec, hspec, rfl, -⟩ := h.param_declared hx
    exact hnot (List.mem_map.mpr ⟨spec, hspec, rfl⟩)

/-- A number does not spoil a name. -/
theorem nodeFlaw?_freeSuffix (h : ArtifactId.nodeFlaw? name = none) (fuel k : Nat) :
    ArtifactId.nodeFlaw? (b.freeSuffix name fuel k) = none := by
  induction fuel generalizing k with
  | zero => exact h
  | succ fuel ih =>
    simp only [freeSuffix]
    split_ifs
    · exact ih (k + 1)
    · obtain ⟨-, -, hpoint⟩ := ArtifactId.nodeFlaw?_eq_none_iff.mp h
      have hdash : '-' ∈ (name ++ "-" ++ toString k).toList := by simp
      have hdigits : '.' ∉ (toString k).toList := by
        rw [Nat.toString_eq_ofList_toDigits, String.toList_ofList]
        exact fun hmem => absurd (Nat.isDigit_of_mem_toDigits (by decide) (by decide) hmem) (by decide)
      refine ArtifactId.nodeFlaw?_eq_none_iff.mpr ⟨fun he => ?_, fun he => ?_, ?_⟩
      · rw [he] at hdash
        revert hdash
        decide
      · rw [he] at hdash
        cases hdash
      · simp only [String.toList_append, List.mem_append, hpoint, hdigits, or_false, false_or]
        decide

/-- While all ids are in order, a name is as good as the id that it gives. -/
theorem Sound.nodeFlaw?_nextId_iff (h : b.Sound ok) :
    ArtifactId.nodeFlaw? (b.nextId name) = none ↔ ArtifactId.nodeFlaw? name = none := by
  unfold nextId
  split_ifs with htaken
  · obtain ⟨n, hn, rfl⟩ := List.mem_map.mp (takes_iff.mp htaken)
    have hflaw := (h.node n hn).flawless
    exact iff_of_true (nodeFlaw?_freeSuffix hflaw _ _) hflaw
  · rfl

/-- An operation keeps no fault exactly if it fits. -/
theorem Reached.deferred_apply_eq_nil_iff (h : b.Reached ok) :
    (op.apply b).deferred = [] ↔ b.deferred = [] ∧ op.Fits b := by
  rw [Operation.fits_iff]
  cases op with
  | declare spec =>
    refine deferred_declare_eq_nil_iff.trans (and_congr_right fun hclean => ?_)
    rw [(h.sound hclean).param?_eq_none_iff, ArtifactId.segmentFlaw?_eq_none_iff]
    simp [Operation.Named, IsSegment, Operation.parameter?, Operation.consumer?]
  | define name definition bindings resources =>
    refine deferred_define_eq_nil_iff.trans (and_congr_right fun hclean => ?_)
    rw [(h.sound hclean).nodeFlaw?_nextId_iff, ArtifactId.nodeFlaw?_eq_none_iff]
    simp [Operation.Named, IsSegment, Operation.parameter?, Operation.consumer?,
      ArtifactId.segmentFlaw?_eq_none_iff, and_assoc]
  | connect task output consumer input =>
    refine deferred_connect_eq_nil_iff.trans (and_congr_right fun _ => ?_)
    simp [Operation.Named, Operation.parameter?, Operation.consumer?]
  | openScope clause =>
    simp [Operation.apply, Builder.openScope, Operation.Named, Operation.parameter?,
      Operation.consumer?]
  | closeScopes depth =>
    simp [Operation.apply, Builder.closeScopes, Operation.Named, Operation.parameter?,
      Operation.consumer?]

/-- An operation that fits adds the parameter that it declares. -/
theorem params_apply (hclean : (op.apply b).deferred = []) :
    (op.apply b).params.map (·.name) = b.params.map (·.name) ++ op.parameter?.toList := by
  cases op with
  | declare spec =>
    simp only [Operation.apply, declare] at hclean ⊢
    cases hr : b.registry.registerExternal? spec.name spec.dataType with
    | none => simp [hr] at hclean
    | some registry => simp [Operation.parameter?]
  | define name definition bindings resources => simp [Operation.apply, define, Operation.parameter?]
  | connect task output consumer input =>
    simp only [Operation.apply, connect]
    split_ifs <;> simp [Operation.parameter?]
  | openScope clause => simp [Operation.apply, openScope, Operation.parameter?]
  | closeScopes depth => simp [Operation.apply, closeScopes, Operation.parameter?]

/-! ## A sequence of operations -/

def built (name : String) (description : Option String) (ops : List Operation) : Builder :=
  ops.foldl Operation.apply (ofName name description)

theorem built_append_singleton :
    built name description (ops ++ [op]) = op.apply (built name description ops) :=
  List.foldl_concat ..

theorem reached_built (hops : ∀ op ∈ ops, op.Uses ok) :
    (built name description ops).Reached ok := by
  induction ops using List.reverseRecOn with
  | nil => exact .ofName name description
  | append_singleton ops op ih =>
    rw [built_append_singleton]
    exact (ih fun op hop => hops op (List.mem_append_left _ hop)).apply (hops op (by simp))

/-- All names are in order, no parameter is declared twice, and every connection goes to a task that
was there at the time. -/
structure Orderly (name : String) (description : Option String) (ops : List Operation) : Prop where
  named : ∀ op ∈ ops, op.Named
  params_nodup : (ops.filterMap Operation.parameter?).Nodup
  connected : ∀ before op after consumer, ops = before ++ op :: after →
    op.consumer? = some consumer → consumer ∈ (built name description before).nodes.map (·.id)

theorem orderly_append_singleton_iff : Orderly name description (ops ++ [op]) ↔
    Orderly name description ops ∧ op.Named ∧
      (∀ parameter, op.parameter? = some parameter →
        parameter ∉ ops.filterMap Operation.parameter?) ∧
      ∀ consumer, op.consumer? = some consumer →
        consumer ∈ (built name description ops).nodes.map (·.id) := by
  have hparams : (ops ++ [op]).filterMap Operation.parameter? =
      ops.filterMap Operation.parameter? ++ op.parameter?.toList := by
    rw [List.filterMap_append]
    cases hp : op.parameter? <;> simp [hp]
  constructor
  · intro h
    have hnodup := h.params_nodup
    rw [hparams, List.nodup_append] at hnodup
    obtain ⟨hold, -, hdisjoint⟩ := hnodup
    refine ⟨⟨fun o ho => h.named o (List.mem_append_left _ ho), hold, ?_⟩, h.named op (by simp),
      ?_, fun consumer => h.connected ops op [] consumer rfl⟩
    · intro before o after consumer he
      exact h.connected before o (after ++ [op]) consumer (by simp [he])
    · intro parameter hp hmem
      exact hdisjoint parameter hmem parameter (by simp [hp]) rfl
  · rintro ⟨h, hnamed, hfresh, hknown⟩
    constructor
    case named =>
      intro o ho
      rcases List.mem_append.mp ho with ho | ho
      · exact h.named o ho
      · rwa [List.mem_singleton.mp ho]
    case params_nodup =>
      rw [hparams]
      cases hp : op.parameter? with
      | none => simpa using h.params_nodup
      | some parameter =>
        have hnodup := h.params_nodup.concat (hfresh parameter hp)
        rwa [List.concat_eq_append] at hnodup
    case connected =>
      intro before o after consumer he hconsumer
      -- the connection is the last operation, or it was made before
      rcases List.eq_nil_or_concat after with rfl | ⟨rest, last, rfl⟩
      · obtain ⟨rfl, hlast⟩ := List.append_inj' he rfl
        exact hknown consumer (List.head_eq_of_cons_eq hlast ▸ hconsumer)
      · rw [List.concat_eq_append, ← List.cons_append, ← List.append_assoc] at he
        exact h.connected before o rest consumer (List.append_inj' he rfl).1 hconsumer

/-- A sequence of operations keeps no fault exactly if it is orderly. -/
theorem deferred_built_eq_nil_iff (hops : ∀ op ∈ ops, op.Uses ok) :
    (built name description ops).deferred = [] ↔ Orderly name description ops := by
  -- the parameters of a builder that has kept no fault are those that were declared
  suffices h : ((built name description ops).deferred = [] ↔ Orderly name description ops) ∧
      ((built name description ops).deferred = [] →
        (built name description ops).params.map (·.name) = ops.filterMap Operation.parameter?) from
    h.1
  induction ops using List.reverseRecOn with
  | nil => exact ⟨iff_of_true rfl ⟨by simp, by simp, by simp⟩, fun _ => rfl⟩
  | append_singleton ops op ih =>
    have hbefore : ∀ o ∈ ops, o.Uses ok := fun o ho => hops o (List.mem_append_left _ ho)
    obtain ⟨ihclean, ihparams⟩ := ih hbefore
    have hreached : (built name description ops).Reached ok := reached_built hbefore
    rw [built_append_singleton]
    constructor
    · rw [hreached.deferred_apply_eq_nil_iff, orderly_append_singleton_iff, ← ihclean]
      refine and_congr_right fun hclean => ?_
      rw [Operation.fits_iff, ihparams hclean]
    · intro hclean
      rw [params_apply hclean, ihparams (hreached.deferred_apply_eq_nil_iff.mp hclean).1,
        List.filterMap_append]
      cases hp : op.parameter? <;> simp [hp]

end Builder
end Workflow
