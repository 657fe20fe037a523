import Mathlib.Data.List.Induction
import Workflow.Artifact.Registry
import Workflow.Proofs.Artifact.Store

/-!
# What a registry answers

Outputs and parameters are registered in one map. As long as their names are in order no two of them
have the same id. Then the registry answers for an output with the type that was registered for it
last, and for a parameter with the type that was registered first.
-/
namespace Workflow

/-! ## One registration -/

namespace ArtifactRegistry
variable {r : ArtifactRegistry} {a : ArtifactId} {node output name : String} {t : DataType}

theorem text_eq_iff {a b : ArtifactId} : a.text = b.text ↔ a = b :=
  ⟨fun h => congrArg ArtifactId.mk h, fun h => congrArg ArtifactId.text h⟩

theorem get?_registerOutput : (r.registerOutput node output t).get? a =
    if a = .output node output then some ⟨.output node output, t, .task node, output⟩
    else r.get? a := by
  simp only [get?, registerOutput, Dict.get?_insert, text_eq_iff]

theorem registerExternal?_eq_some {r' : ArtifactRegistry}
    (h : r.registerExternal? name t = some r') :
    r.param? name = none ∧ ∀ a, r'.get? a = if a = .param name then
      some ⟨.param name, t, .external, name⟩ else r.get? a := by
  simp only [registerExternal?] at h
  split_ifs at h with hc
  cases h
  constructor
  · simpa [param?, get?, Dict.contains] using hc
  · intro a
    simp only [get?, Dict.get?_insert, text_eq_iff]

end ArtifactRegistry

/-! ## A sequence of registrations -/

/-- What is registered in one go: an output of a node or an external parameter. -/
inductive Registration where
  | output (node result : String) (type : DataType)
  | external (name : String) (type : DataType)
  deriving DecidableEq, Repr

namespace Artifact

def ofOutput (node result : String) (type : DataType) : Artifact :=
  ⟨.output node result, type, .task node, result⟩

def ofParameter (name : String) (type : DataType) : Artifact :=
  ⟨.param name, type, .external, name⟩

end Artifact

namespace Registration

/-- The names can stand in artifact ids. -/
def Checked : Registration → Prop
  | output node result _ =>
    ArtifactId.nodeFlaw? node = none ∧ ArtifactId.segmentFlaw? result = none
  | external name _ => ArtifactId.segmentFlaw? name = none

instance : DecidablePred Checked
  | output _ _ _ => inferInstanceAs (Decidable (_ ∧ _))
  | external _ _ => inferInstanceAs (Decidable (_ = _))

/-- The type that is registered for an output. -/
def outputType? (node result : String) : Registration → Option DataType
  | output n o t => if n = node ∧ o = result then some t else none
  | external _ _ => none

/-- The type that is registered for a parameter. -/
def parameterType? (name : String) : Registration → Option DataType
  | output _ _ _ => none
  | external p t => if p = name then some t else none

/-- The type that was registered last for an output. -/
def latestType? (regs : List Registration) (node result : String) : Option DataType :=
  regs.reverse.findSome? (outputType? node result)

/-- The type that was registered first for a parameter. -/
def firstType? (regs : List Registration) (name : String) : Option DataType :=
  regs.findSome? (parameterType? name)

variable {regs : List Registration} {g : Registration} {node result name : String} {t : DataType}

theorem latestType?_concat : latestType? (regs ++ [g]) node result =
    (g.outputType? node result).or (latestType? regs node result) := by
  rw [latestType?, List.reverse_append, List.reverse_singleton, List.singleton_append,
    List.findSome?_cons]
  cases g.outputType? node result <;> rfl

theorem firstType?_concat : firstType? (regs ++ [g]) name =
    (firstType? regs name).or (g.parameterType? name) := by
  rw [firstType?, List.findSome?_append, List.findSome?_singleton]
  rfl

theorem mem_of_latestType? (h : latestType? regs node result = some t) :
    output node result t ∈ regs := by
  obtain ⟨g, hg, ht⟩ := List.exists_of_findSome?_eq_some h
  cases g with
  | external p t' => cases ht
  | output n o t' =>
    simp only [outputType?] at ht
    split_ifs at ht with he
    obtain ⟨rfl, rfl⟩ := he
    cases ht
    exact List.mem_reverse.mp hg

end Registration

namespace ArtifactRegistry
variable {r : ArtifactRegistry} {g : Registration} {regs : List Registration}

/-- Carry out a registration; one that is refused changes nothing. -/
def record (r : ArtifactRegistry) : Registration → ArtifactRegistry
  | .output node output t => r.registerOutput node output t
  | .external name t => (r.registerExternal? name t).getD r

def recorded (regs : List Registration) : ArtifactRegistry := regs.foldl record empty

theorem recorded_concat : recorded (regs ++ [g]) = (recorded regs).record g :=
  List.foldl_concat ..

theorem registerExternal?_eq_none_iff {name : String} {t : DataType} :
    r.registerExternal? name t = none ↔ r.param? name ≠ none := by
  have hknown : r.byId.contains (ArtifactId.param name).text = true ↔ r.param? name ≠ none :=
    Option.isSome_iff_ne_none
  simp only [registerExternal?]
  split_ifs with h
  · exact iff_of_true rfl (hknown.mp h)
  · exact iff_of_false (by simp) fun hne => h (hknown.mpr hne)

/-- A parameter that is known keeps its entry. -/
theorem get?_record_external {name : String} {t : DataType} {a : ArtifactId} :
    (r.record (.external name t)).get? a = if a = .param name then
      (r.param? name).or (some (.ofParameter name t)) else r.get? a := by
  simp only [record]
  cases hr : r.registerExternal? name t with
  | none =>
    obtain ⟨x, hx⟩ := Option.ne_none_iff_exists'.mp (registerExternal?_eq_none_iff.mp hr)
    split_ifs with ha
    · rw [ha, Option.getD_none, hx, Option.some_or]
      exact hx
    · rfl
  | some r' =>
    obtain ⟨hnew, hget⟩ := registerExternal?_eq_some hr
    rw [Option.getD_some, hget, hnew, Option.none_or]
    rfl

theorem output?_record {node result : String} (hg : g.Checked)
    (hnode : ArtifactId.nodeFlaw? node = none) : (r.record g).output? node result =
      ((g.outputType? node result).map (.ofOutput node result)).or (r.output? node result) := by
  cases g with
  | output n o t =>
    obtain ⟨-, -, hpoint⟩ := ArtifactId.nodeFlaw?_eq_none_iff.mp hnode
    obtain ⟨-, -, hpoint'⟩ := ArtifactId.nodeFlaw?_eq_none_iff.mp hg.1
    simp only [record, output?, get?_registerOutput, Registration.outputType?,
      ArtifactId.output_inj hpoint hpoint', eq_comm (a := n), eq_comm (a := o)]
    split_ifs with he
    · obtain ⟨rfl, rfl⟩ := he
      rfl
    · rfl
  | external p t =>
    rw [output?, get?_record_external, if_neg (ArtifactId.output_ne_param hnode)]
    rfl

theorem param?_record {name : String} (hg : g.Checked) : (r.record g).param? name =
    (r.param? name).or ((g.parameterType? name).map (.ofParameter name)) := by
  cases g with
  | output n o t =>
    rw [record, param?, get?_registerOutput, if_neg (ArtifactId.output_ne_param hg.1).symm]
    exact (Option.or_none ..).symm
  | external p t =>
    simp only [param?, get?_record_external, ArtifactId.param_inj, Registration.parameterType?,
      eq_comm (a := p)]
    split_ifs with he
    · rw [he]
      rfl
    · exact (Option.or_none ..).symm

/-! ## What is filed -/

/-- Every artifact stands under its own id, and its producer tells what it was registered as. -/
def Filed (r : ArtifactRegistry) : Prop :=
  ∀ a x, r.get? a = some x → x.id = a ∧
    ((∃ node result, ArtifactId.nodeFlaw? node = none ∧ x = .ofOutput node result x.dataType) ∨
      ∃ name, x = .ofParameter name x.dataType)

theorem Filed.record (h : r.Filed) (hg : g.Checked) : (r.record g).Filed := by
  intro a x hx
  cases g with
  | output node result t =>
    rw [ArtifactRegistry.record, get?_registerOutput] at hx
    split_ifs at hx with ha
    · cases hx
      exact ⟨ha.symm, .inl ⟨node, result, hg.1, rfl⟩⟩
    · exact h a x hx
  | external name t =>
    rw [get?_record_external] at hx
    split_ifs at hx with ha
    · cases hp : r.param? name with
      | some y =>
        rw [hp] at hx
        cases hx
        exact h a x (ha ▸ hp)
      | none =>
        rw [hp] at hx
        cases hx
        exact ⟨ha.symm, .inr ⟨name, rfl⟩⟩
    · exact h a x hx

theorem mem_producedBy_iff {node : String} {x : Artifact} :
    x ∈ r.producedBy node ↔ (∃ a, r.get? a = some x) ∧ x.producer = .task node := by
  rw [producedBy, List.mem_filter, decide_eq_true_iff, artifacts, Dict.mem_values_iff]
  refine and_congr_left fun _ => ⟨?_, ?_⟩
  · rintro ⟨k, hk⟩
    exact ⟨⟨k⟩, hk⟩
  · rintro ⟨a, ha⟩
    exact ⟨a.text, ha⟩

theorem Filed.output_of_mem_producedBy (h : r.Filed) {node : String} {x : Artifact}
    (hx : x ∈ r.producedBy node) :
    ArtifactId.nodeFlaw? node = none ∧ ∃ result, r.output? node result = some x := by
  obtain ⟨⟨a, ha⟩, hproducer⟩ := mem_producedBy_iff.mp hx
  obtain ⟨rfl, ⟨node', result, hnode, he⟩ | ⟨name, he⟩⟩ := h a x ha
  · rw [he] at hproducer
    cases hproducer
    exact ⟨hnode, result, he ▸ ha⟩
  · rw [he] at hproducer
    cases hproducer

theorem Filed.pairwise_producedBy (h : r.Filed) (node : String) :
    (r.producedBy node).Pairwise fun x y => x.id.text < y.id.text := by
  have hkey {e : String × Artifact} (he : e ∈ r.byId.entries) : e.1 = e.2.id.text :=
    congrArg ArtifactId.text (h ⟨e.1⟩ e.2 (Dict.mem_entries_iff.mp he)).1.symm
  refine List.Pairwise.filter _ (List.pairwise_map.mpr ?_)
  refine r.byId.increasing.imp_of_mem fun he he' hlt => ?_
  rwa [← hkey he, ← hkey he']

/-! ## What is answered -/

/-- The registry answers with what was registered under a name: for an output with the latest type,
for a parameter with the first one. A node has made what was registered as its output, listed in the
order of the ids. A parameter is refused if there is one with its name. -/
structure Answers (r : ArtifactRegistry) (regs : List Registration) : Prop where
  output : ∀ node result, ArtifactId.nodeFlaw? node = none → r.output? node result =
    (Registration.latestType? regs node result).map (.ofOutput node result)
  param : ∀ name, r.param? name = (Registration.firstType? regs name).map (.ofParameter name)
  produced : ∀ node x, x ∈ r.producedBy node ↔
    ∃ result t, Registration.latestType? regs node result = some t ∧ x = .ofOutput node result t
  sorted : ∀ node, (r.producedBy node).Pairwise fun x y => x.id.text < y.id.text
  refused : ∀ name t, r.registerExternal? name t = none ↔
    ∃ t', Registration.firstType? regs name = some t'

theorem output?_recorded (h : ∀ g ∈ regs, g.Checked) {node result : String}
    (hnode : ArtifactId.nodeFlaw? node = none) : (recorded regs).output? node result =
      (Registration.latestType? regs node result).map (.ofOutput node result) := by
  induction regs using List.reverseRecOn with
  | nil => rfl
  | append_singleton regs g ih =>
    rw [recorded_concat, output?_record (h g (by simp)) hnode,
      ih fun g hg => h g (List.mem_append_left _ hg), Registration.latestType?_concat,
      Option.map_or]

theorem param?_recorded (h : ∀ g ∈ regs, g.Checked) {name : String} :
    (recorded regs).param? name = (Registration.firstType? regs name).map (.ofParameter name) := by
  induction regs using List.reverseRecOn with
  | nil => rfl
  | append_singleton regs g ih =>
    rw [recorded_concat, param?_record (h g (by simp)),
      ih fun g hg => h g (List.mem_append_left _ hg), Registration.firstType?_concat,
      Option.map_or]

theorem filed_recorded (h : ∀ g ∈ regs, g.Checked) : (recorded regs).Filed := by
  induction regs using List.reverseRecOn with
  | nil => exact nofun
  | append_singleton regs g ih =>
    rw [recorded_concat]
    exact (ih fun g hg => h g (List.mem_append_left _ hg)).record (h g (by simp))

theorem mem_producedBy_recorded_iff (h : ∀ g ∈ regs, g.Checked) {node : String} {x : Artifact} :
    x ∈ (recorded regs).producedBy node ↔ ∃ result t,
      Registration.latestType? regs node result = some t ∧ x = .ofOutput node result t := by
  constructor
  · intro hx
    obtain ⟨hnode, result, hresult⟩ := (filed_recorded h).output_of_mem_producedBy hx
    rw [output?_recorded h hnode] at hresult
    obtain ⟨t, ht, rfl⟩ := Option.map_eq_some_iff.mp hresult
    exact ⟨result, t, ht, rfl⟩
  · rintro ⟨result, t, ht, rfl⟩
    have hchecked := h _ (Registration.mem_of_latestType? ht)
    have hresult : (recorded regs).output? node result = some (.ofOutput node result t) := by
      rw [output?_recorded h hchecked.1, ht, Option.map_some]
    exact mem_producedBy_iff.mpr ⟨⟨_, hresult⟩, rfl⟩

theorem answers_recorded (h : ∀ g ∈ regs, g.Checked) : (recorded regs).Answers regs where
  output _ _ hnode := output?_recorded h hnode
  param _ := param?_recorded h
  produced _ _ := mem_producedBy_recorded_iff h
  sorted := (filed_recorded h).pairwise_producedBy
  refused name t := by
    rw [registerExternal?_eq_none_iff, param?_recorded h, Option.ne_none_iff_exists']
    simp

/-- Ids are unambiguous: as long as the ids of nodes are in order, an output is told by its id, and no
output has the id of a parameter. So a registry that has taken names in order alone answers with what
was registered under them. -/
theorem unambiguous :
    (∀ n n' o o', ArtifactId.nodeFlaw? n = none → ArtifactId.nodeFlaw? n' = none →
      ArtifactId.output n o = ArtifactId.output n' o' → n = n' ∧ o = o') ∧
    (∀ n o p, ArtifactId.nodeFlaw? n = none → ArtifactId.output n o ≠ ArtifactId.param p) ∧
    ∀ regs : List Registration, (∀ g ∈ regs, g.Checked) → (recorded regs).Answers regs := by
  refine ⟨fun n n' o o' hn hn' h => ?_, fun n o p hn => ArtifactId.output_ne_param hn,
    fun regs h => answers_recorded h⟩
  obtain ⟨-, -, hpoint⟩ := ArtifactId.nodeFlaw?_eq_none_iff.mp hn
  obtain ⟨-, -, hpoint'⟩ := ArtifactId.nodeFlaw?_eq_none_iff.mp hn'
  exact (ArtifactId.output_inj hpoint hpoint').mp h

/-- A point in the name of a node makes ids meet. -/
example : ArtifactId.output "a.b" "c" = ArtifactId.output "a" "b.c" := by decide

/-- Outputs and a parameter that are registered a second time, with another type. -/
def retyped : List Registration :=
  [.output "train" "model" .model, .external "x" .int, .output "train" "accuracy" .float,
    .external "x" .float, .output "train" "model" .dataset, .output "score" "x" .bool]

theorem retyped_answers :
    ArtifactId.output "train" "x" ≠ .output "score" "x" ∧
    ArtifactId.output "score" "x" ≠ .param "x" ∧
    (∀ g ∈ retyped, g.Checked) ∧
    ((recorded retyped).output? "train" "model").map (·.dataType) = some .dataset ∧
    ((recorded retyped).param? "x").map (·.dataType) = some .int ∧
    .ofOutput "train" "accuracy" .float ∈ (recorded retyped).producedBy "train" := by
  have hchecked : ∀ g ∈ retyped, g.Checked := by decide
  have hanswers := unambiguous.2.2 retyped hchecked
  refine ⟨fun h => ?_, unambiguous.2.1 "score" "x" "x" (by decide), hchecked, ?_, ?_, ?_⟩
  · have := (unambiguous.1 "train" "score" "x" "x" (by decide) (by decide) h).1
    exact absurd this (by decide)
  · rw [hanswers.output "train" "model" (by decide)]
    rfl
  · rw [hanswers.param "x"]
    rfl
  · exact (hanswers.produced "train" _).mpr ⟨"accuracy", .float, rfl, rfl⟩

end ArtifactRegistry
end Workflow
