import Workflow.Proofs.Pipeline.Declared
import Workflow.Proofs.Pipeline.Operations

/-!
# Phases of sealing

Faults are reported in six phases. Each phase finds a fault exactly if a simple condition on the
operations or on the nodes of the builder is violated, provided that nothing was wrong in the phases
before it. The conditions speak of declared parameters and outputs only, not of the registry in which
they are looked up.
-/
namespace Workflow

/-- A node reads a parameter or an output, through a binding or in its condition. -/
def TaskNode.Refers (n : TaskNode) (g : GateRef) : Prop :=
  (∃ input, n.bindings.get? input = some (.ofGate g)) ∨ ∃ c ∈ n.condition.clauses, c.gate = g

/-- The phases in which faults are reported. -/
inductive Phase where
  | deferred
  | empty
  | dangling
  | cycle
  | types
  | unbound
  deriving DecidableEq, Repr

namespace Builder

/-- Bound inputs are declared, and so is everything that nodes read. -/
structure Resolved (b : Builder) : Prop where
  input : ∀ n ∈ b.nodes, ∀ input binding, n.bindings.get? input = some binding →
    ∃ i ∈ n.definition.inputs, i.name = input
  reference : ∀ n ∈ b.nodes, ∀ g, n.Refers g → ∃ t, b.Declares (.ofGate g) t

/-- A node reads an output of another. -/
def Reads (b : Builder) (source target : String) : Prop :=
  ∃ n ∈ b.nodes, n.id = target ∧ ∃ output, n.Refers (.output source output)

/-- Inputs accept what is bound to them; gates are scalars that accept the expected value. -/
structure WellTyped (b : Builder) : Prop where
  binding : ∀ n ∈ b.nodes, ∀ i ∈ n.definition.inputs, ∀ binding t,
    n.bindings.get? i.name = some binding → b.Declares binding t → i.dataType.accepts t = true
  gate : ∀ n ∈ b.nodes, ∀ c ∈ n.condition.clauses, ∀ t, b.Declares (.ofGate c.gate) t →
    t.isArtifact = false ∧ t.accepts c.equals.dataType = true

/-- Every input without a default is bound. -/
def Bound (b : Builder) : Prop :=
  ∀ n ∈ b.nodes, ∀ i ∈ n.definition.inputs, i.defaultValue = none →
    ∃ binding, n.bindings.get? i.name = some binding

end Builder

namespace Phase

def all : List Phase := [deferred, empty, dangling, cycle, types, unbound]

/-- The place of a phase in this order. -/
def rank (φ : Phase) : Nat := all.idxOf φ

/-- Nothing is wrong that a phase would report. -/
def Passed (name : String) (description : Option String) (ops : List Operation) : Phase → Prop
  | deferred => Builder.Orderly name description ops
  | empty => (Builder.built name description ops).nodes ≠ []
  | dangling => (Builder.built name description ops).Resolved
  | cycle => ∀ id, ¬ Relation.TransGen (Builder.built name description ops).Reads id id
  | types => (Builder.built name description ops).WellTyped
  | unbound => (Builder.built name description ops).Bound

/-- The faults that a phase reports. -/
def faults (b : Builder) : Phase → List Fault
  | deferred => b.deferred
  | empty => if b.nodes.isEmpty then [.emptyPipeline b.name] else []
  | dangling => b.nodes.flatMap (Diagnosis.danglingFaults b)
  | cycle => Diagnosis.cycleFaults b
  | types => b.nodes.flatMap (Diagnosis.typeFaults b)
  | unbound => b.nodes.flatMap Diagnosis.unboundFaults

theorem mem_all (φ : Phase) : φ ∈ all := by cases φ <;> decide

/-- A phase stands between those that report before it and others. -/
theorem exists_all_eq (φ : Phase) :
    ∃ earlier later, all = earlier ++ φ :: later ∧ ∀ ψ ∈ earlier, ψ.rank < φ.rank := by
  refine ⟨all.takeWhile (· ≠ φ), all.drop (φ.rank + 1), ?_, ?_⟩ <;> cases φ <;> decide

/-- What holds of a phase if it holds of all earlier ones holds of all phases. -/
theorem induct {P : Phase → Prop} (h : ∀ φ, (∀ ψ, ψ.rank < φ.rank → P ψ) → P φ) (φ : Phase) :
    P φ := by
  induction hr : φ.rank using Nat.strong_induction_on generalizing φ with
  | h rank ih => exact h φ fun ψ hψ => ih ψ.rank (hr ▸ hψ) ψ rfl

end Phase

/-- The phase that reports a fault of a pipeline. -/
def Fault.phase? : Fault → Option Phase
  | .invalidPipeline _ _ | .duplicateParameter _ => some .deferred
  | .emptyPipeline _ => some .empty
  | .unknownInput _ _ _ | .unknownParameter _ _ | .unknownTask _ _ | .unknownOutput _ _ _ _ =>
    some .dangling
  | .cyclicGraph _ => some .cycle
  | .typeMismatch _ _ _ _ => some .types
  | .unboundInput _ _ => some .unbound
  | _ => none

namespace Builder
variable {b : Builder} {n : TaskNode} {g : GateRef} {t : DataType}

/-! ## The order of the phases -/

theorem diagnose_faults (b : Builder) : b.diagnose.faults = Phase.all.flatMap (Phase.faults b) := by
  unfold diagnose
  split_ifs with hempty
  · have hnodes := List.isEmpty_iff.mp hempty
    have hcycle : Diagnosis.cycleFaults b = [] := by
      refine Diagnosis.cycleFaults_eq_nil_iff.mpr fun id hcycle => ?_
      obtain ⟨c, hedge, -⟩ := Relation.TransGen.head'_iff.mp hcycle
      obtain ⟨-, hid, -⟩ := TaskGraph.edge_ofEdges.mp hedge
      simp [hnodes] at hid
    simp [Phase.all, Phase.faults, hnodes, hcycle]
  · simp [Phase.all, Phase.faults, hempty]

theorem phase?_of_mem_refusals {what name : String} {flaw : Option NameFlaw} :
    ∀ f ∈ refusals what name flaw, f.phase? = some .deferred := by
  cases flaw <;> simp [refusals, refusedName, Fault.phase?]

theorem phase?_of_mem_deferred {ok : TaskDefinition → Prop} (h : b.Reached ok) :
    ∀ f ∈ b.deferred, f.phase? = some .deferred := by
  induction h with
  | ofName name description => exact fun f hf => nomatch hf
  | @declare b h spec ih =>
    unfold Builder.declare
    cases b.registry.registerExternal? spec.name spec.dataType with
    | none =>
      refine List.forall_mem_append.mpr ⟨List.forall_mem_append.mpr ⟨ih, ?_⟩, by simp [Fault.phase?]⟩
      exact phase?_of_mem_refusals
    | some registry => exact List.forall_mem_append.mpr ⟨ih, phase?_of_mem_refusals⟩
  | define h name good bindings resources ih =>
    refine List.forall_mem_append.mpr ⟨ih, List.forall_mem_append.mpr
      ⟨phase?_of_mem_refusals, fun f hf => ?_⟩⟩
    obtain ⟨o, -, hf⟩ := List.mem_flatMap.mp hf
    exact phase?_of_mem_refusals f hf
  | connect h task output consumer input ih =>
    unfold Builder.connect
    split_ifs
    · exact ih
    · exact List.forall_mem_append.mpr ⟨ih, by simp [Fault.phase?]⟩
  | openScope h clause ih => exact ih
  | closeScopes h depth ih => exact ih

theorem phase?_of_referenceFault? {place : String} {f : Fault}
    (h : Diagnosis.referenceFault? b n place g = some f) : f.phase? = some .dangling := by
  cases g with
  | param name =>
    simp only [Diagnosis.referenceFault?] at h
    split_ifs at h
    cases h
    rfl
  | output task output =>
    simp only [Diagnosis.referenceFault?, Diagnosis.outputFault?] at h
    split_ifs at h <;> cases h <;> rfl

theorem phase?_of_mem_danglingFaults {f : Fault} (h : f ∈ Diagnosis.danglingFaults b n) :
    f.phase? = some .dangling := by
  rcases List.mem_append.mp h with h | h
  · obtain ⟨⟨input, binding⟩, -, h⟩ := List.mem_flatMap.mp h
    rcases List.mem_append.mp h with h | h
    · split_ifs at h
      · rw [List.mem_singleton.mp h]
        rfl
      · cases h
    · cases binding with
      | param name => exact phase?_of_referenceFault? (Option.mem_toList.mp h)
      | output task output => exact phase?_of_referenceFault? (Option.mem_toList.mp h)
      | literal value => cases h
  · obtain ⟨c, -, h⟩ := List.mem_filterMap.mp h
    exact phase?_of_referenceFault? h

theorem phase?_of_mem_typeFaults {f : Fault} (h : f ∈ Diagnosis.typeFaults b n) :
    f.phase? = some .types := by
  rcases List.mem_append.mp h with h | h
  · obtain ⟨e, -, h⟩ := List.mem_filterMap.mp h
    obtain ⟨i, -, h⟩ := Option.bind_eq_some_iff.mp h
    obtain ⟨t, -, h⟩ := Option.bind_eq_some_iff.mp h
    split_ifs at h
    cases h
    rfl
  · obtain ⟨c, -, h⟩ := List.mem_filterMap.mp h
    obtain ⟨t, -, h⟩ := Option.bind_eq_some_iff.mp h
    simp only at h
    split_ifs at h
    cases h
    rfl

/-- A fault tells the phase that has reported it. -/
theorem phase?_of_mem_faults {ok : TaskDefinition → Prop} (h : b.Reached ok) {φ : Phase} {f : Fault}
    (hf : f ∈ φ.faults b) : f.phase? = some φ := by
  cases φ with
  | deferred => exact phase?_of_mem_deferred h f hf
  | empty =>
    unfold Phase.faults at hf
    split_ifs at hf
    · rw [List.mem_singleton.mp hf]
      rfl
    · cases hf
  | dangling =>
    obtain ⟨n, -, hf⟩ := List.mem_flatMap.mp hf
    exact phase?_of_mem_danglingFaults hf
  | cycle =>
    simp only [Phase.faults, Diagnosis.cycleFaults, TaskGraph.validateAcyclic] at hf
    cases hc : (Diagnosis.graph b).findCycle with
    | none => simp [hc] at hf
    | some cycle =>
      simp only [hc, List.mem_singleton] at hf
      rw [hf]
      rfl
  | types =>
    obtain ⟨n, -, hf⟩ := List.mem_flatMap.mp hf
    exact phase?_of_mem_typeFaults hf
  | unbound =>
    obtain ⟨n, -, hf⟩ := List.mem_flatMap.mp hf
    obtain ⟨i, -, hf⟩ := List.mem_filterMap.mp hf
    split_ifs at hf
    cases hf
    rfl

end Builder
end Workflow
