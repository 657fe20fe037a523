import Mathlib.Data.List.Perm.Subperm
import Workflow.Proofs.Pipeline.Built

/-!
# Nodes of their own

Whatever is done to a builder, no two of its nodes have the same id: the search for a free number
tries more numbers than there are nodes. The outputs of every node are those of its definition, and
all of them are registered.
-/
namespace Workflow

namespace ArtifactRegistry
variable {r : ArtifactRegistry} {a : ArtifactId} {node : String}

/-- What has been registered once stays registered, and so does every output of a new node. -/
theorem isSome_registerOutputs {outputs : List OutputSpec}
    (h : (r.get? a).isSome ∨ ∃ o ∈ outputs, a = .output node o.name) :
    ((outputs.foldl (fun r o => r.registerOutput node o.name o.dataType) r).get? a).isSome := by
  induction outputs generalizing r with
  | nil => simpa using h
  | cons o rest ih =>
    refine ih ?_
    rw [get?_registerOutput]
    rcases h with h | ⟨o', ho', rfl⟩
    · split_ifs
      · exact .inl rfl
      · exact .inl h
    · rcases List.mem_cons.mp ho' with rfl | ho'
      · simp
      · exact .inr ⟨o', ho', rfl⟩

end ArtifactRegistry

namespace Builder
variable {ok : TaskDefinition → Prop} {b : Builder} {name id : String}

/-! ## Free names -/

theorem takes_iff : b.takes id = true ↔ id ∈ b.nodes.map (·.id) := by
  simp [takes]

theorem numbered_inj {i j : Nat} :
    name ++ "-" ++ toString i = name ++ "-" ++ toString j ↔ i = j := by
  refine ⟨fun h => ?_, fun h => h ▸ rfl⟩
  have hlist := congrArg String.toList h
  simp only [String.toList_append] at hlist
  have hdigits := congrArg (Nat.ofDigitChars 10 · 0) (List.append_cancel_left hlist)
  simpa [Nat.toString_eq_ofList_toDigits] using hdigits

/-- No more numbers can be taken than there are nodes. -/
theorem exists_free_suffix {fuel : Nat} (hfuel : b.nodes.length < fuel) (name : String) (k : Nat) :
    ∃ i < fuel, name ++ "-" ++ toString (k + i) ∉ b.nodes.map (·.id) := by
  by_contra hnone
  push Not at hnone
  let candidates := (List.range fuel).map fun i => name ++ "-" ++ toString (k + i)
  have hnodup : candidates.Nodup := by
    refine List.nodup_range.map fun i j hij => ?_
    have hsum := numbered_inj.mp hij
    omega
  have hsub : candidates ⊆ b.nodes.map (·.id) := by
    intro candidate hc
    obtain ⟨i, hi, rfl⟩ := List.mem_map.mp hc
    exact hnone i (List.mem_range.mp hi)
  have hlength := (hnodup.subperm hsub).length_le
  simp only [candidates, List.length_map, List.length_range] at hlength
  omega

/-- The search comes back with the first number that is free. -/
theorem freeSuffix_spec {fuel k : Nat}
    (h : ∃ i < fuel, name ++ "-" ++ toString (k + i) ∉ b.nodes.map (·.id)) :
    ∃ i, b.freeSuffix name fuel k = name ++ "-" ++ toString (k + i) ∧
      name ++ "-" ++ toString (k + i) ∉ b.nodes.map (·.id) ∧
      ∀ j < i, name ++ "-" ++ toString (k + j) ∈ b.nodes.map (·.id) := by
  induction fuel generalizing k with
  | zero =>
    obtain ⟨i, hi, -⟩ := h
    omega
  | succ fuel ih =>
    simp only [freeSuffix]
    split_ifs with hk
    · have hk := takes_iff.mp hk
      have hrest : ∃ i < fuel, name ++ "-" ++ toString (k + 1 + i) ∉ b.nodes.map (·.id) := by
        obtain ⟨i, hi, hfree⟩ := h
        cases i with
        | zero => exact absurd hk hfree
        | succ i => exact ⟨i, by omega, by rwa [Nat.add_right_comm, Nat.add_assoc]⟩
      obtain ⟨i, heq, hfree, hbelow⟩ := ih hrest
      rw [Nat.add_right_comm, Nat.add_assoc] at heq hfree
      refine ⟨i + 1, heq, hfree, fun j hj => ?_⟩
      cases j with
      | zero => exact hk
      | succ j =>
        have := hbelow j (by omega)
        rwa [Nat.add_right_comm, Nat.add_assoc] at this
    · exact ⟨0, rfl, fun hmem => hk (takes_iff.mpr hmem), fun j hj => absurd hj (Nat.not_lt_zero j)⟩

/-- The id for a name when some ids are taken: the name itself if it is free, otherwise the name with
the least number from two on that makes it free. -/
def FirstFree (taken : List String) (name id : String) : Prop :=
  if name ∈ taken then
    ∃ k, 2 ≤ k ∧ id = name ++ "-" ++ toString k ∧ id ∉ taken ∧
      ∀ j, 2 ≤ j → j < k → name ++ "-" ++ toString j ∈ taken
  else id = name

theorem FirstFree.notMem {taken : List String} (h : FirstFree taken name id) : id ∉ taken := by
  unfold FirstFree at h
  split_ifs at h with htaken
  · obtain ⟨k, -, -, hfree, -⟩ := h
    exact hfree
  · rwa [h]

theorem firstFree_nextId (b : Builder) (name : String) :
    FirstFree (b.nodes.map (·.id)) name (b.nextId name) := by
  simp only [FirstFree, nextId, takes_iff]
  split_ifs with htaken
  · obtain ⟨i, heq, hfree, hbelow⟩ :=
      freeSuffix_spec (exists_free_suffix (Nat.lt_succ_self b.nodes.length) name 2)
    refine ⟨2 + i, by omega, heq, heq ▸ hfree, fun j hj hlt => ?_⟩
    have := hbelow (j - 2) (by omega)
    rwa [Nat.add_sub_cancel' hj] at this
  · rfl

theorem nextId_notMem (b : Builder) (name : String) : b.nextId name ∉ b.nodes.map (·.id) :=
  (firstFree_nextId b name).notMem

/-! ## Nodes of a builder -/

/-- What holds of a builder whether or not a fault is kept. -/
structure Formed (b : Builder) : Prop where
  ids_nodup : (b.nodes.map (·.id)).Nodup
  outputs_eq : ∀ n ∈ b.nodes, n.outputs = n.definition.outputs.map fun o => .output n.id o.name
  registered : ∀ n ∈ b.nodes, ∀ o ∈ n.definition.outputs,
    (b.registry.output? n.id o.name).isSome = true

theorem ofName_formed (name : String) (description : Option String) :
    (ofName name description).Formed where
  ids_nodup := List.nodup_nil
  outputs_eq _ h := nomatch h
  registered _ h := nomatch h

theorem Formed.declare (h : b.Formed) (spec : ParameterSpec) : (b.declare spec).Formed := by
  unfold Builder.declare
  cases hr : b.registry.registerExternal? spec.name spec.dataType with
  | none => exact { h with }
  | some r =>
    obtain ⟨-, hget⟩ := ArtifactRegistry.registerExternal?_eq_some hr
    refine { h with registered := fun n hn o ho => ?_ }
    simp only [ArtifactRegistry.output?, hget]
    split_ifs
    · rfl
    · exact h.registered n hn o ho

theorem Formed.define (h : b.Formed) (name : String) (definition : TaskDefinition)
    (bindings : List (String × Binding)) (resources : ResourceProfile) :
    (b.define name definition bindings resources).1.Formed where
  ids_nodup := by
    have hnodup := h.ids_nodup.concat (b.nextId_notMem name)
    rw [List.concat_eq_append] at hnodup
    simpa [Builder.define] using hnodup
  outputs_eq := by
    intro n hn
    rcases List.mem_append.mp hn with hn | hn
    · exact h.outputs_eq n hn
    · rw [List.mem_singleton.mp hn]
  registered := by
    intro n hn o ho
    refine ArtifactRegistry.isSome_registerOutputs ?_
    rcases List.mem_append.mp hn with hn | hn
    · exact .inl (h.registered n hn o ho)
    · rw [List.mem_singleton.mp hn] at ho ⊢
      exact .inr ⟨o, ho, rfl⟩

theorem Formed.connect (h : b.Formed) (task output consumer input : String) :
    (b.connect task output consumer input).Formed := by
  obtain ⟨bindings, he⟩ := b.exists_connect_eq task output consumer input
  rw [he]
  constructor
  case ids_nodup =>
    rw [List.map_map]
    exact h.ids_nodup
  case outputs_eq =>
    intro n hn
    obtain ⟨k, hk, rfl⟩ := List.mem_map.mp hn
    exact h.outputs_eq k hk
  case registered =>
    intro n hn
    obtain ⟨k, hk, rfl⟩ := List.mem_map.mp hn
    exact h.registered k hk

theorem Reached.formed (h : b.Reached ok) : b.Formed := by
  induction h with
  | ofName name description => exact ofName_formed name description
  | declare h spec ih => exact ih.declare spec
  | define h name good bindings resources ih => exact ih.define name _ bindings resources
  | connect h task output consumer input ih => exact ih.connect task output consumer input
  | openScope h clause ih => exact { ih with }
  | closeScopes h depth ih => exact { ih with }

end Builder
end Workflow
