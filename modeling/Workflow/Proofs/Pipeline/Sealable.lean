import Workflow.Proofs.Pipeline.Phases

/-!
# When a pipeline can be sealed

A builder is sealed exactly if no phase finds anything wrong; otherwise the first phase that does
reports a fault. For each phase the faults are compared with the condition on operations and nodes.
-/
namespace Workflow.Builder
variable {b : Builder} {n : TaskNode} {g : GateRef} {t : DataType}

/-! ## What the registry knows -/

section
variable (hs : b.Sound TaskDefinition.DistinctNames) (hf : b.Formed)
include hs hf

/-- The registry tells the declared type. -/
theorem bindingType?_of_declares {binding : Binding} (h : b.Declares binding t) :
    Diagnosis.bindingType? b binding = some t := by
  cases binding with
  | param name =>
    obtain ⟨spec, hspec, rfl, rfl⟩ := h
    obtain ⟨x, hx⟩ := Option.isSome_iff_exists.mp (hs.param_registered spec hspec)
    obtain ⟨spec', hspec', hname, htype⟩ := hs.param_declared hx
    rw [← List.inj_on_of_nodup_map hs.params_nodup hspec' hspec hname, htype]
    simp [Diagnosis.bindingType?, Diagnosis.referenceType?, hname, hx]
  | output task output =>
    obtain ⟨k, hk, rfl, o, ho, rfl, rfl⟩ := h
    obtain ⟨x, hx⟩ := Option.isSome_iff_exists.mp (hf.registered k hk o ho)
    obtain ⟨k', hk', hid, o', ho', hname, htype⟩ :=
      hs.output_declared (hs.node k hk).flawless hx
    obtain rfl := List.inj_on_of_nodup_map hf.ids_nodup hk' hk hid
    rw [← List.inj_on_of_nodup_map (hs.node k' hk).good.outputs ho' ho hname, htype]
    simp [Diagnosis.bindingType?, Diagnosis.referenceType?, hname, hx]
  | literal value => exact congrArg some h

/-- A reference is not at fault exactly if it is to something that is declared. -/
theorem referenceFault?_eq_none_iff {place : String} :
    Diagnosis.referenceFault? b n place g = none ↔ ∃ t, b.Declares (.ofGate g) t := by
  constructor
  · intro h
    obtain ⟨t, -, hdeclares⟩ := hs.declares_of_reference h
    exact ⟨t, hdeclares⟩
  · rintro ⟨t, hdeclares⟩
    cases g with
    | param name =>
      obtain ⟨spec, hspec, rfl, rfl⟩ := hdeclares
      have hsome := hs.param_registered spec hspec
      simp [Diagnosis.referenceFault?, Option.isSome_iff_ne_none.mp hsome]
    | output task output =>
      obtain ⟨k, hk, rfl, o, ho, rfl, rfl⟩ := hdeclares
      have htakes : b.takes k.id = true := takes_iff.mpr (List.mem_map.mpr ⟨k, hk, rfl⟩)
      have hsome := hf.registered k hk o ho
      simp [Diagnosis.referenceFault?, Diagnosis.outputFault?, htakes,
        Option.isSome_iff_ne_none.mp hsome]

end

/-! ## Phase by phase -/

theorem bindingFaults_eq_nil_iff {input : String} {binding : Binding} :
    Diagnosis.bindingFaults b n input binding = [] ↔
      (∃ i ∈ n.definition.inputs, i.name = input) ∧
        ∀ g, binding = .ofGate g → Diagnosis.referenceFault? b n input g = none := by
  have hinput : (n.definition.input? input).isNone = true ↔
      ¬ ∃ i ∈ n.definition.inputs, i.name = input := by
    simp [TaskDefinition.input?]
  unfold Diagnosis.bindingFaults
  rw [List.append_eq_nil_iff]
  refine and_congr ?_ ?_
  · split_ifs with h
    · exact iff_of_false (by simp) (hinput.mp h)
    · exact iff_of_true rfl (not_not.mp (mt hinput.mpr h))
  · cases binding with
    | param name =>
      rw [Option.toList_eq_nil_iff]
      exact ⟨fun h g hg => by cases g <;> cases hg; exact h, fun h => h (.param name) rfl⟩
    | output task output =>
      rw [Option.toList_eq_nil_iff]
      exact ⟨fun h g hg => by cases g <;> cases hg; exact h, fun h => h (.output task output) rfl⟩
    | literal value => exact iff_of_true rfl fun g hg => by cases g <;> cases hg

theorem danglingFaults_eq_nil_iff (hs : b.Sound TaskDefinition.DistinctNames) (hf : b.Formed) :
    Phase.dangling.faults b = [] ↔ b.Resolved := by
  simp only [Phase.faults, Diagnosis.danglingFaults, List.flatMap_eq_nil_iff,
    List.append_eq_nil_iff, List.filterMap_eq_nil_iff, bindingFaults_eq_nil_iff,
    referenceFault?_eq_none_iff hs hf]
  constructor
  · intro h
    constructor
    case input =>
      intro n hn input binding hb
      exact ((h n hn).1 _ (Dict.mem_entries_iff.mpr hb)).1
    case reference =>
      rintro n hn g (⟨input, hb⟩ | ⟨c, hc, rfl⟩)
      · exact ((h n hn).1 _ (Dict.mem_entries_iff.mpr hb)).2 g rfl
      · exact (h n hn).2 c hc
  · intro h n hn
    refine ⟨?_, fun c hc => h.reference n hn c.gate (.inr ⟨c, hc, rfl⟩)⟩
    rintro ⟨input, binding⟩ he
    have hb := Dict.mem_entries_iff.mp he
    refine ⟨h.input n hn input binding hb, ?_⟩
    rintro g rfl
    exact h.reference n hn g (.inl ⟨input, hb⟩)

theorem Resolved.exists_declares (h : b.Resolved) (hn : n ∈ b.nodes) {input : String}
    {binding : Binding} (hb : n.bindings.get? input = some binding) :
    ∃ t, b.Declares binding t := by
  cases binding with
  | param name => exact h.reference n hn (.param name) (.inl ⟨input, hb⟩)
  | output task output => exact h.reference n hn (.output task output) (.inl ⟨input, hb⟩)
  | literal value => exact ⟨_, rfl⟩

theorem Resolved.edge_iff (h : b.Resolved) {source target : String} :
    (Diagnosis.graph b).Edge source target ↔ b.Reads source target := by
  have hrefers {n : TaskNode} : source ∈ n.dependencies ↔
      ∃ output, n.Refers (.output source output) := by
    rw [TaskNode.mem_dependencies_iff]
    constructor
    · rintro (⟨input, output, hb⟩ | ⟨c, hc, output, hgate⟩)
      · exact ⟨output, .inl ⟨input, hb⟩⟩
      · exact ⟨output, .inr ⟨c, hc, hgate⟩⟩
    · rintro ⟨output, ⟨input, hb⟩ | ⟨c, hc, hgate⟩⟩
      · exact .inl ⟨input, output, hb⟩
      · exact .inr ⟨c, hc, output, hgate⟩
  simp only [Diagnosis.graph, TaskGraph.edge_ofEdges, List.mem_flatMap, List.mem_map,
    Prod.mk.injEq]
  constructor
  · rintro ⟨⟨n, hn, d, hd, rfl, rfl⟩, -, -⟩
    exact ⟨n, hn, rfl, hrefers.mp hd⟩
  · rintro ⟨n, hn, rfl, output, hreads⟩
    obtain ⟨t, k, hk, hid, -⟩ := h.reference n hn _ hreads
    exact ⟨⟨n, hn, source, hrefers.mpr ⟨output, hreads⟩, rfl, rfl⟩, ⟨k, hk, hid⟩, n, hn, rfl⟩

theorem cycleFaults_eq_nil_iff (h : b.Resolved) :
    Phase.cycle.faults b = [] ↔ ∀ id, ¬ Relation.TransGen b.Reads id id := by
  have hedge : (Diagnosis.graph b).Edge = b.Reads :=
    funext fun _ => funext fun _ => propext h.edge_iff
  rw [← hedge]
  exact Diagnosis.cycleFaults_eq_nil_iff

theorem typeFaults_eq_nil_iff (hs : b.Sound TaskDefinition.DistinctNames) (hf : b.Formed)
    (h : b.Resolved) : Phase.types.faults b = [] ↔ b.WellTyped := by
  simp only [Phase.faults, Diagnosis.typeFaults, List.flatMap_eq_nil_iff, List.append_eq_nil_iff,
    List.filterMap_eq_nil_iff]
  -- where everything that is read has been declared, the registry knows its type
  have hbinding {n : TaskNode} (hn : n ∈ b.nodes) {i : InputSpec} (hi : i ∈ n.definition.inputs)
      {binding : Binding} {t : DataType} (ht : b.Declares binding t) :
      Diagnosis.bindingTypeFault? b n i.name binding = none ↔ i.dataType.accepts t = true := by
    have hspec := TaskDefinition.input?_eq (hs.node n hn).good.inputs hi
    have htype := bindingType?_of_declares hs hf ht
    simp [Diagnosis.bindingTypeFault?, hspec, htype]
  have hgate {n : TaskNode} {c : ConditionClause} {t : DataType}
      (ht : b.Declares (.ofGate c.gate) t) : Diagnosis.clauseTypeFault? b n c = none ↔
        t.isArtifact = false ∧ t.accepts c.equals.dataType = true := by
    have htype : Diagnosis.referenceType? b c.gate = some t := by
      rw [← bindingType?_of_declares hs hf ht]
      cases c.gate <;> rfl
    simp [Diagnosis.clauseTypeFault?, htype]
  constructor
  · intro hnone
    constructor
    case binding =>
      intro n hn i hi binding t hb ht
      exact (hbinding hn hi ht).mp ((hnone n hn).1 _ (Dict.mem_entries_iff.mpr hb))
    case gate =>
      intro n hn c hc t ht
      exact (hgate ht).mp ((hnone n hn).2 c hc)
  · intro htyped n hn
    constructor
    · rintro ⟨input, binding⟩ he
      have hb := Dict.mem_entries_iff.mp he
      obtain ⟨i, hi, rfl⟩ := h.input n hn input binding hb
      obtain ⟨t, ht⟩ := h.exists_declares hn hb
      exact (hbinding hn hi ht).mpr (htyped.binding n hn i hi binding t hb ht)
    · intro c hc
      obtain ⟨t, ht⟩ := h.reference n hn c.gate (.inr ⟨c, hc, rfl⟩)
      exact (hgate ht).mpr (htyped.gate n hn c hc t ht)

theorem unboundFaults_eq_nil_iff : Phase.unbound.faults b = [] ↔ b.Bound := by
  simp only [Phase.faults, Diagnosis.unboundFaults, List.flatMap_eq_nil_iff,
    List.filterMap_eq_nil_iff, Bound, ← Dict.contains_iff]
  refine forall₂_congr fun n _ => forall₂_congr fun i _ => ?_
  cases i.defaultValue <;> simp

/-! ## Sealing -/

section
variable {name : String} {description : Option String} {ops : List Operation}
  (hops : ∀ op ∈ ops, op.Uses TaskDefinition.DistinctNames)
include hops

/-- A phase whose predecessors have nothing to report reports a fault exactly if its condition is
violated. -/
theorem faults_built_eq_nil_iff {φ : Phase}
    (hearlier : ∀ ψ : Phase, ψ.rank < φ.rank → ψ.Passed name description ops) :
    φ.faults (built name description ops) = [] ↔ φ.Passed name description ops := by
  have hreached : (built name description ops).Reached TaskDefinition.DistinctNames :=
    reached_built hops
  have hclean : (built name description ops).deferred = [] ↔ Orderly name description ops :=
    deferred_built_eq_nil_iff hops
  cases φ with
  | deferred => exact hclean
  | empty => simp [Phase.faults, Phase.Passed]
  | dangling =>
    have hs := hreached.sound (hclean.mpr (hearlier .deferred (by decide)))
    exact danglingFaults_eq_nil_iff hs hreached.formed
  | cycle => exact cycleFaults_eq_nil_iff (hearlier .dangling (by decide))
  | types =>
    have hs := hreached.sound (hclean.mpr (hearlier .deferred (by decide)))
    exact typeFaults_eq_nil_iff hs hreached.formed (hearlier .dangling (by decide))
  | unbound => exact unboundFaults_eq_nil_iff

/-- A sequence of operations leads to a builder that can be sealed exactly if it passes all phases;
if it does not, the first phase that it does not pass reports a fault. -/
theorem built_sealed_iff_phases_passed :
    ((∃ p, (built name description ops).seal = .ok p) ↔
      ∀ φ : Phase, φ.Passed name description ops) ∧
    ∀ φ : Phase, (∀ ψ : Phase, ψ.rank < φ.rank → ψ.Passed name description ops) →
      ¬ φ.Passed name description ops →
        ∃ f, (built name description ops).seal = .error f ∧ f.phase? = some φ := by
  have hreached : (built name description ops).Reached TaskDefinition.DistinctNames :=
    reached_built hops
  have hfaults := diagnose_faults (built name description ops)
  constructor
  · have hnone : Phase.all.flatMap (Phase.faults (built name description ops)) = [] ↔
        ∀ φ : Phase, φ.faults (built name description ops) = [] :=
      List.flatMap_eq_nil_iff.trans ⟨fun h φ => h φ φ.mem_all, fun h φ _ => h φ⟩
    have hok : (∃ p, (built name description ops).seal = .ok p) ↔
        ∀ φ : Phase, φ.faults (built name description ops) = [] := by
      rw [← hnone, ← hfaults, Builder.seal]
      cases (built name description ops).diagnose.faults <;> simp
    rw [hok]
    constructor
    · intro hall
      exact Phase.induct fun φ hearlier => (faults_built_eq_nil_iff hops hearlier).mp (hall φ)
    · intro hpassed φ
      exact (faults_built_eq_nil_iff hops fun ψ _ => hpassed ψ).mpr (hpassed φ)
  · intro φ hearlier hviolated
    -- earlier phases have nothing to report, so that the first fault of all comes from `φ`
    obtain ⟨before, after, hall, hbefore⟩ := φ.exists_all_eq
    have hnone : before.flatMap (Phase.faults (built name description ops)) = [] := by
      refine List.flatMap_eq_nil_iff.mpr fun ψ hψ => ?_
      have hlt := hbefore ψ hψ
      exact (faults_built_eq_nil_iff hops fun χ hχ => hearlier χ (hχ.trans hlt)).mpr (hearlier ψ hlt)
    obtain ⟨f, rest, hcons⟩ :=
      List.exists_cons_of_ne_nil (mt (faults_built_eq_nil_iff hops hearlier).mp hviolated)
    rw [hall, List.flatMap_append, hnone, List.nil_append, List.flatMap_cons, hcons,
      List.cons_append] at hfaults
    refine ⟨f, by simp only [Builder.seal, hfaults], phase?_of_mem_faults hreached ?_⟩
    rw [hcons]
    exact List.mem_cons_self

end

/-- Two tasks that read each other. -/
def mutualReads : List Operation :=
  let echo : TaskDefinition := { TaskDefinition.ofBody "echo" (.registered "echo") with
    inputs := [⟨"x", .int, none⟩], outputs := [⟨"out", .int⟩] }
  [.define "a" echo [] .empty, .define "b" echo [("x", .output "a" "out")] .empty,
    .connect "b" "out" "a" "x"]

theorem mutualReads_reports_cycle :
    (∀ ψ : Phase, ψ.rank < Phase.cycle.rank → ψ.Passed "circle" none mutualReads) ∧
    ∃ f, (built "circle" none mutualReads).seal = .error f ∧ f.phase? = some .cycle := by
  have hops : ∀ op ∈ mutualReads, op.Uses TaskDefinition.DistinctNames := by
    intro op hop
    simp only [mutualReads, List.mem_cons, List.not_mem_nil, or_false] at hop
    rcases hop with rfl | rfl | rfl
    · exact ⟨by decide, by decide⟩
    · exact ⟨by decide, by decide⟩
    · trivial
  have hearlier : ∀ ψ : Phase, ψ.rank < Phase.cycle.rank →
      ψ.Passed "circle" none mutualReads := by
    apply Phase.induct
    intro φ ih hφ
    refine (faults_built_eq_nil_iff hops fun χ hχ => ih χ hχ (hχ.trans hφ)).mp ?_
    cases φ with
    | deferred => rfl
    | empty => rfl
    | dangling => rfl
    | cycle => exact absurd hφ (Nat.lt_irrefl _)
    | types => exact absurd hφ (by decide)
    | unbound => exact absurd hφ (by decide)
  have hcycle : ¬ Phase.cycle.Passed "circle" none mutualReads := by
    intro h
    have hba : (built "circle" none mutualReads).Reads "b" "a" :=
      ⟨_, .head _, rfl, "out", .inl ⟨"x", rfl⟩⟩
    have hab : (built "circle" none mutualReads).Reads "a" "b" :=
      ⟨_, .tail _ (.head _), rfl, "out", .inl ⟨"x", rfl⟩⟩
    exact h "a" (.tail (.single hab) hba)
  exact ⟨hearlier, (built_sealed_iff_phases_passed hops).2 .cycle hearlier hcycle⟩

end Workflow.Builder
