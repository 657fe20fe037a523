import Workflow.Proofs.Manifest.Basic
import Workflow.Proofs.Pipeline.Fresh
import Workflow.Proofs.Pipeline.Sealed

/-!
# What is declared

Sealing looks references up in a registry under texts that are put together from names. What it finds
there has been declared as a parameter or as an output of a task, so that everything that the nodes of
a sealed pipeline read has a declared type.
-/
namespace Workflow

/-- The inputs of a definition have names of their own. -/
def TaskDefinition.DistinctInputs (d : TaskDefinition) : Prop := (d.inputs.map (·.name)).Nodup

instance (d : TaskDefinition) : Decidable d.DistinctInputs :=
  inferInstanceAs (Decidable (List.Nodup _))

/-- The inputs of a definition have names of their own, and so have its outputs. -/
structure TaskDefinition.DistinctNames (d : TaskDefinition) : Prop where
  inputs : d.DistinctInputs
  outputs : (d.outputs.map (·.name)).Nodup

theorem TaskDefinition.input?_eq {d : TaskDefinition} (hd : d.DistinctInputs) {i : InputSpec}
    (hi : i ∈ d.inputs) : d.input? i.name = some i :=
  find?_key_eq hd hi

namespace Builder
variable {ok : TaskDefinition → Prop} {b : Builder} {n : TaskNode}

/-- What a binding stands for is declared to have a type. -/
def Declares (b : Builder) : Binding → DataType → Prop
  | .param name, t => ∃ spec ∈ b.params, spec.name = name ∧ spec.dataType = t
  | .output task output, t =>
    ∃ n ∈ b.nodes, n.id = task ∧ ∃ o ∈ n.definition.outputs, o.name = output ∧ o.dataType = t
  | .literal value, t => value.dataType = t

/-! ## References -/

theorem mem_ids_of_reference {place task output : String}
    (h : Diagnosis.referenceFault? b n place (.output task output) = none) :
    task ∈ b.nodes.map (·.id) := by
  simp only [Diagnosis.referenceFault?, Diagnosis.outputFault?] at h
  split_ifs at h with htakes
  exact takes_iff.mp htakes

/-- The type under which a reference without a fault is registered has been declared. -/
theorem Sound.declares_of_reference (h : b.Sound ok) {place : String} {g : GateRef}
    (hg : Diagnosis.referenceFault? b n place g = none) :
    ∃ t, Diagnosis.referenceType? b g = some t ∧ b.Declares (.ofGate g) t := by
  cases g with
  | param name =>
    simp only [Diagnosis.referenceFault?] at hg
    split_ifs at hg with hnone
    obtain ⟨x, hx⟩ := Option.ne_none_iff_exists'.mp (mt Option.isNone_iff_eq_none.mpr hnone)
    obtain ⟨spec, hspec, hname, htype⟩ := h.param_declared hx
    exact ⟨x.dataType, by simp [Diagnosis.referenceType?, hx], spec, hspec, hname, htype⟩
  | output task result =>
    obtain ⟨k, hk, rfl⟩ := List.mem_map.mp (mem_ids_of_reference hg)
    simp only [Diagnosis.referenceFault?, Diagnosis.outputFault?] at hg
    split_ifs at hg with htakes hnone
    obtain ⟨x, hx⟩ := Option.ne_none_iff_exists'.mp (mt Option.isNone_iff_eq_none.mpr hnone)
    obtain ⟨k', hk', hid, o, ho, hname, htype⟩ := h.output_declared (h.node k hk).flawless hx
    exact ⟨x.dataType, by simp [Diagnosis.referenceType?, hx], k', hk', hid, o, ho, hname, htype⟩

/-! ## Nodes without faults -/

theorem Faultless.binding (h : b.Faultless) (hn : n ∈ b.nodes) {input : String} {binding : Binding}
    (hb : n.bindings.get? input = some binding) :
    Diagnosis.bindingFaults b n input binding = [] ∧
      Diagnosis.bindingTypeFault? b n input binding = none := by
  have hmem := Dict.mem_entries_iff.mpr hb
  constructor
  · have hall := (List.append_eq_nil_iff.mp (h.dangling n hn)).1
    exact List.flatMap_eq_nil_iff.mp hall _ hmem
  · have hall := (List.append_eq_nil_iff.mp (h.types n hn)).1
    exact List.filterMap_eq_nil_iff.mp hall _ hmem

theorem Faultless.clause (h : b.Faultless) (hn : n ∈ b.nodes) {c : ConditionClause}
    (hc : c ∈ n.condition.clauses) :
    Diagnosis.referenceFault? b n Diagnosis.conditionPlace c.gate = none ∧
      Diagnosis.clauseTypeFault? b n c = none :=
  ⟨List.filterMap_eq_nil_iff.mp (List.append_eq_nil_iff.mp (h.dangling n hn)).2 c hc,
    List.filterMap_eq_nil_iff.mp (List.append_eq_nil_iff.mp (h.types n hn)).2 c hc⟩

theorem Faultless.bound (h : b.Faultless) (hn : n ∈ b.nodes) :
    ∀ i ∈ n.definition.inputs, i.defaultValue = none → n.bindings.contains i.name = true := by
  intro i hi hdefault
  have hfault := List.filterMap_eq_nil_iff.mp (h.unbound n hn) i hi
  by_contra hunbound
  simp [hdefault, hunbound] at hfault

theorem Faultless.input_declared (h : b.Faultless) (hn : n ∈ b.nodes) {input : String}
    {binding : Binding} (hb : n.bindings.get? input = some binding) :
    ∃ i ∈ n.definition.inputs, i.name = input := by
  have hfaults := (List.append_eq_nil_iff.mp (h.binding hn hb).1).1
  split_ifs at hfaults with hnone
  simpa [TaskDefinition.input?] using hnone

theorem Sound.declares_of_binding (h : b.Sound ok) (hfaultless : b.Faultless) (hn : n ∈ b.nodes)
    {input : String} {binding : Binding} (hb : n.bindings.get? input = some binding) :
    ∃ t, Diagnosis.bindingType? b binding = some t ∧ b.Declares binding t := by
  have hreference := (List.append_eq_nil_iff.mp (hfaultless.binding hn hb).1).2
  cases binding with
  | param name => exact h.declares_of_reference (by simpa using hreference)
  | output task result => exact h.declares_of_reference (by simpa using hreference)
  | literal value => exact ⟨value.dataType, rfl, rfl⟩

/-- The type of what an input is bound to is accepted, if the input is the first of its name. -/
theorem Sound.accepts_of_binding (h : b.Sound ok) (hfaultless : b.Faultless) (hn : n ∈ b.nodes)
    {spec : InputSpec} (hspec : n.definition.input? spec.name = some spec) {binding : Binding}
    (hb : n.bindings.get? spec.name = some binding) :
    ∃ t, b.Declares binding t ∧ spec.dataType.accepts t = true := by
  obtain ⟨t, ht, hdeclares⟩ := h.declares_of_binding hfaultless hn hb
  have htype := (hfaultless.binding hn hb).2
  refine ⟨t, hdeclares, ?_⟩
  simp only [Diagnosis.bindingTypeFault?, hspec, ht, Option.bind_eq_bind, Option.bind_some] at htype
  split_ifs at htype with haccepts
  exact haccepts

theorem Sound.scalar_of_clause (h : b.Sound ok) (hfaultless : b.Faultless) (hn : n ∈ b.nodes)
    {c : ConditionClause} (hc : c ∈ n.condition.clauses) :
    ∃ t, b.Declares (.ofGate c.gate) t ∧ t.isArtifact = false := by
  obtain ⟨hreference, htype⟩ := hfaultless.clause hn hc
  obtain ⟨t, ht, hdeclares⟩ := h.declares_of_reference hreference
  refine ⟨t, hdeclares, ?_⟩
  simp only [Diagnosis.clauseTypeFault?, ht, Option.bind_eq_bind, Option.bind_some] at htype
  split_ifs at htype with hbad
  simp only [Bool.or_eq_true, not_or, Bool.not_eq_true] at hbad
  exact hbad.1

end Builder
end Workflow
