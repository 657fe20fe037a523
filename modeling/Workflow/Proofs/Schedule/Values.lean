import Workflow.Proofs.Artifact.Store
import Workflow.Schedule.Drive

/-!
# Values that a run reads and writes

What is stored when a node ends, what the store holds in the beginning, and how conditions and inputs
depend on the store: they look at the artifacts that they name and at nothing else.
-/
namespace Workflow
variable {store store' : ArtifactStore}

/-! ## Stored outputs -/

theorem get?_storeOutputs (outputs : List NodeOutput) (values : Dict Value) (store : ArtifactStore)
    (a : ArtifactId) :
    (storeOutputs outputs values store).get? a =
      (store.get? a).or
        (outputs.findSome? fun o => if a = o.artifact then values.get? o.name else none) := by
  refine ArtifactStore.get?_foldl_insert (fun store o => ?_) outputs store a
  cases values.get? o.name <;> rfl

theorem extends_storeOutputs (outputs : List NodeOutput) (values : Dict Value)
    (store : ArtifactStore) : store.Extends (storeOutputs outputs values store) := by
  intro a v hv
  rw [get?_storeOutputs, hv, Option.some_or]

@[simp] theorem storeOutputs_empty (outputs : List NodeOutput) (store : ArtifactStore) :
    storeOutputs outputs .empty store = store := by
  induction outputs with
  | nil => rfl
  | cons o rest ih => exact ih

theorem get?_storeOutputs_of_ne {outputs : List NodeOutput} {values : Dict Value} {a : ArtifactId}
    (h : ∀ o ∈ outputs, a ≠ o.artifact) :
    (storeOutputs outputs values store).get? a = store.get? a := by
  have hnone : (outputs.findSome? fun o => if a = o.artifact then values.get? o.name else none) =
      none := List.findSome?_eq_none_iff.mpr fun o ho => if_neg (h o ho)
  rw [get?_storeOutputs, hnone, Option.or_none]

/-- Outputs that are stored under ids of their own are found under these ids. -/
theorem get?_storeOutputs_output {outputs : List NodeOutput} {values : Dict Value}
    {node result : String} (hnode : '.' ∉ node.toList)
    (hid : ∀ o ∈ outputs, o.artifact = .output node o.name)
    (hkeys : ∀ r, r ∉ outputs.map (·.name) → values.get? r = none)
    (hfresh : store.get? (.output node result) = none) :
    (storeOutputs outputs values store).get? (.output node result) = values.get? result := by
  rw [get?_storeOutputs, hfresh, Option.none_or]
  have hsame : ∀ o ∈ outputs, (ArtifactId.output node result = o.artifact ↔ result = o.name) := by
    intro o ho
    rw [hid o ho, ArtifactId.output_inj hnode hnode]
    simp
  cases hv : values.get? result with
  | none =>
    refine List.findSome?_eq_none_iff.mpr fun o ho => ?_
    split_ifs with h
    · rwa [← (hsame o ho).mp h]
    · rfl
  | some v =>
    have hmem : result ∈ outputs.map (·.name) := by
      by_contra hn
      rw [hkeys result hn] at hv
      cases hv
    -- the first output under this id is one with this name
    clear hkeys hid
    induction outputs with
    | nil => cases hmem
    | cons o rest ih =>
      rw [List.findSome?_cons]
      by_cases ho : ArtifactId.output node result = o.artifact
      · simp [ho, ← (hsame o List.mem_cons_self).mp ho, hv]
      · have hne : result ≠ o.name := fun he => ho ((hsame o List.mem_cons_self).mpr he)
        simp only [ho, if_false]
        refine ih (fun o' ho' => hsame o' (List.mem_cons_of_mem _ ho')) ?_
        simpa [hne] using hmem

/-! ## Checked outputs -/

/-- Checked outputs are those that are declared, each once, in their declared types. -/
theorem checkOutputs_spec {outputs : List NodeOutput} {produced : TaskOutputs}
    {checked values : Dict Value} (h : checkOutputs outputs produced checked = .ok values) :
    (outputs.map (·.name)).Nodup ∧
    (∀ o ∈ outputs, ∃ v w, produced.get? o.name = some v ∧ o.dataType.coerce v = .ok w ∧
      values.get? o.name = some w) ∧
    ∀ r, r ∉ outputs.map (·.name) → values.get? r = checked.get? r := by
  induction outputs generalizing produced checked with
  | nil => simpa [checkOutputs] using fun r => by rw [Except.ok.inj h]
  | cons o rest ih =>
    simp only [checkOutputs] at h
    split at h
    · cases h
    · rename_i v hv
      split at h
      · rename_i w hw
        obtain ⟨hnodup, hout, hkeep⟩ := ih h
        -- a value serves one output: a second one of the name would find it gone
        have hnew : o.name ∉ rest.map (·.name) := by
          intro hm
          obtain ⟨o', ho', he⟩ := List.mem_map.mp hm
          obtain ⟨v', w', hv', -⟩ := hout o' ho'
          rw [Dict.get?_erase, if_pos he] at hv'
          cases hv'
        refine ⟨List.nodup_cons.mpr ⟨hnew, hnodup⟩, ?_, ?_⟩
        · intro o' ho'
          rcases List.mem_cons.mp ho' with rfl | ho'
          · exact ⟨v, w, hv, hw, by rw [hkeep _ hnew, Dict.get?_insert_self]⟩
          · obtain ⟨v', w', hv', hw'⟩ := hout o' ho'
            rw [Dict.get?_erase] at hv'
            split_ifs at hv'
            exact ⟨v', w', hv', hw'⟩
        · intro r hr
          simp only [List.map_cons, List.mem_cons, not_or] at hr
          rw [hkeep r hr.2, Dict.get?_insert_of_ne hr.1]
      · cases h

/-- Outputs pass the check if they have names of their own and all of them are there. -/
theorem exists_checkOutputs {outputs : List NodeOutput} {produced : TaskOutputs}
    {checked : Dict Value} (hnodup : (outputs.map (·.name)).Nodup)
    (hall : ∀ o ∈ outputs, ∃ v w, produced.get? o.name = some v ∧ o.dataType.coerce v = .ok w) :
    ∃ values, checkOutputs outputs produced checked = .ok values := by
  induction outputs generalizing produced checked with
  | nil => exact ⟨checked, rfl⟩
  | cons o rest ih =>
    obtain ⟨hnew, hnodup⟩ := List.nodup_cons.mp hnodup
    obtain ⟨⟨v, w, hv, hw⟩, hrest⟩ := List.forall_mem_cons.mp hall
    simp only [checkOutputs, hv, hw]
    refine ih hnodup fun o' ho' => ?_
    -- the value of this output has been taken out, those of the others are still there
    have hne : o'.name ≠ o.name := fun he => hnew (List.mem_map.mpr ⟨o', ho', he⟩)
    rw [Dict.get?_erase, if_neg hne]
    exact hrest o' ho'

/-- Only a body that returns has results. -/
theorem returned_of_results {n : ManifestNode} {ending : Ending} {values : Dict Value}
    (h : n.results ending = .ok values) :
    ∃ outputs, ending = .returned outputs ∧ checkOutputs n.outputs outputs .empty = .ok values := by
  cases ending with
  | returned outputs => exact ⟨outputs, rfl, h⟩
  | failed reason => cases h
  | panicked => cases h

theorem get?_results_of_notMem {n : ManifestNode} {ending : Ending} {values : Dict Value}
    (h : n.results ending = .ok values) {r : String} (hr : r ∉ n.outputs.map (·.name)) :
    values.get? r = none := by
  obtain ⟨outputs, -, hchecked⟩ := returned_of_results h
  obtain ⟨-, -, hkeep⟩ := checkOutputs_spec hchecked
  rw [hkeep r hr, Dict.get?_empty]

/-! ## The first values -/

/-- The value with which a parameter starts. -/
def seed? (params : Dict Scalar) (spec : ParameterSpec) : Option Value :=
  (params.get? spec.name).bind fun v => (spec.dataType.coerce (.scalar v)).toOption

theorem get?_seedArtifacts (m : Manifest) (params : Dict Scalar) (a : ArtifactId) :
    (seedArtifacts m params).get? a =
      m.parameters.findSome? fun spec =>
        if a = .param spec.name then seed? params spec else none := by
  refine (ArtifactStore.get?_foldl_insert (fun s spec => ?_) m.parameters .empty a).trans
    (by rw [ArtifactStore.get?_empty, Option.none_or])
  unfold seed?
  cases params.get? spec.name with
  | none => rfl
  | some v =>
    rw [Option.bind_some]
    cases hv : spec.dataType.coerce (.scalar v) <;> simp [hv, Except.toOption]

theorem seedArtifacts_output {m : Manifest} {params : Dict Scalar} {node result : String}
    (hnode : ArtifactId.nodeFlaw? node = none) :
    (seedArtifacts m params).get? (.output node result) = none := by
  by_contra hne
  rw [get?_seedArtifacts, List.findSome?_eq_none_iff, not_forall] at hne
  obtain ⟨spec, hspec⟩ := hne
  exact hspec fun _ => if_neg (ArtifactId.output_ne_param hnode)

/-! ## Conditions -/

theorem clausesHold_nil : clausesHold store [] = .ok true := rfl

theorem clausesHold_cons {c : ConditionClause} {rest : List ConditionClause} :
    clausesHold store (c :: rest) =
      match (store.get? c.gate.artifact).bind Value.asScalar? with
      | none => .error (.unresolvedCondition c.gate.display)
      | some value => if value.looselyEquals c.equals then clausesHold store rest else .ok false :=
  rfl

theorem clausesHold_congr {clauses : List ConditionClause}
    (h : ∀ c ∈ clauses, store.get? c.gate.artifact = store'.get? c.gate.artifact) :
    clausesHold store clauses = clausesHold store' clauses := by
  induction clauses with
  | nil => rfl
  | cons c rest ih =>
    obtain ⟨hc, hrest⟩ := List.forall_mem_cons.mp h
    rw [clausesHold_cons, clausesHold_cons, hc, ih hrest]

/-- A clause holds if its gate has a scalar that equals the expected value. -/
def ConditionClause.Holds (store : ArtifactStore) (c : ConditionClause) : Prop :=
  ∃ v, (store.get? c.gate.artifact).bind Value.asScalar? = some v ∧ v.looselyEquals c.equals = true

theorem clausesHold_eq_ok_true_iff {clauses : List ConditionClause} :
    clausesHold store clauses = .ok true ↔ ∀ c ∈ clauses, c.Holds store := by
  induction clauses with
  | nil => simp [clausesHold_nil]
  | cons c rest ih =>
    rw [List.forall_mem_cons, ← ih, clausesHold_cons]
    simp only [ConditionClause.Holds]
    cases (store.get? c.gate.artifact).bind Value.asScalar? with
    | none => simp
    | some v => by_cases hv : v.looselyEquals c.equals = true <;> simp [hv]

/-- A clause is false if its gate has a scalar that does not equal the expected value. -/
def ConditionClause.Fails (store : ArtifactStore) (c : ConditionClause) : Prop :=
  ∃ v, (store.get? c.gate.artifact).bind Value.asScalar? = some v ∧
    v.looselyEquals c.equals = false

theorem exists_fails_of_clausesHold {clauses : List ConditionClause}
    (h : clausesHold store clauses = .ok false) : ∃ c ∈ clauses, c.Fails store := by
  induction clauses with
  | nil => cases h
  | cons c rest ih =>
    rw [clausesHold_cons] at h
    cases hv : (store.get? c.gate.artifact).bind Value.asScalar? with
    | none => simp [hv] at h
    | some v =>
      simp only [hv] at h
      split_ifs at h with heq
      · obtain ⟨other, hmem, hfails⟩ := ih h
        exact ⟨other, List.mem_cons_of_mem _ hmem, hfails⟩
      · exact ⟨c, List.mem_cons_self, v, hv, by simpa using heq⟩

/-- While every gate has a scalar a condition is decided. -/
theorem clausesHold_ok_of_scalars {clauses : List ConditionClause}
    (h : ∀ c ∈ clauses, ∃ v, (store.get? c.gate.artifact).bind Value.asScalar? = some v) :
    ∃ b, clausesHold store clauses = .ok b := by
  induction clauses with
  | nil => exact ⟨true, rfl⟩
  | cons c rest ih =>
    obtain ⟨⟨v, hv⟩, hrest⟩ := List.forall_mem_cons.mp h
    obtain ⟨b, hb⟩ := ih hrest
    rw [clausesHold_cons, hv]
    dsimp only
    split_ifs
    · exact ⟨b, hb⟩
    · exact ⟨false, rfl⟩

/-- What has been decided once is decided alike when the store has grown. -/
theorem clausesHold_mono (hle : store.Extends store') {clauses : List ConditionClause} {b : Bool}
    (h : clausesHold store clauses = .ok b) : clausesHold store' clauses = .ok b := by
  induction clauses with
  | nil => exact h
  | cons c rest ih =>
    rw [clausesHold_cons] at h ⊢
    cases hvalue : store.get? c.gate.artifact with
    | none => simp [hvalue] at h
    | some v =>
      rw [hvalue] at h
      rw [hle _ _ hvalue]
      split at h
      · cases h
      · split_ifs at h ⊢
        · exact ih h
        · exact h

theorem ConditionClause.Holds.mono {c : ConditionClause} (h : c.Holds store)
    (hle : store.Extends store') : c.Holds store' := by
  obtain ⟨v, hv, heq⟩ := h
  obtain ⟨w, hw, hwv⟩ := Option.bind_eq_some_iff.mp hv
  exact ⟨v, by rw [hle _ _ hw, Option.bind_some, hwv], heq⟩

/-! ## Inputs -/

theorem resolveInput_eq {i : NodeInput} : resolveInput store i =
    match inputSource? store i with
    | none => .error (.unresolvedInput i.name)
    | some value =>
      match i.dataType.coerce value with
      | .ok value => .ok value
      | .error actual => .error (.inputType i.name i.dataType actual) := rfl

theorem resolveInputs_cons_eq {i : NodeInput} {rest : List NodeInput} {values : Dict Value} :
    resolveInputs store (i :: rest) values =
      (resolveInput store i).bind fun w => resolveInputs store rest (values.insert i.name w) := rfl

theorem resolveInput_eq_ok_iff {i : NodeInput} {w : Value} : resolveInput store i = .ok w ↔
    ∃ v, inputSource? store i = some v ∧ i.dataType.coerce v = .ok w := by
  rw [resolveInput_eq]
  cases inputSource? store i with
  | none => simp
  | some v => cases hv : i.dataType.coerce v <;> simp [hv]

theorem resolveInput_error {i : NodeInput} {f : NodeFault} (h : resolveInput store i = .error f) :
    f = .unresolvedInput i.name ∨ ∃ actual, f = .inputType i.name i.dataType actual := by
  rw [resolveInput_eq] at h
  cases hsource : inputSource? store i with
  | none =>
    rw [hsource] at h
    exact .inl (Except.error.inj h).symm
  | some v =>
    rw [hsource] at h
    cases hcoerce : i.dataType.coerce v with
    | ok w =>
      simp only [hcoerce] at h
      cases h
    | error actual =>
      simp only [hcoerce] at h
      exact .inr ⟨actual, (Except.error.inj h).symm⟩

/-- The inputs of a node fail with the fault of one of them. -/
theorem resolveInputs_error {inputs : List NodeInput} {values : Dict Value} {f : NodeFault}
    (h : resolveInputs store inputs values = .error f) :
    ∃ i ∈ inputs, resolveInput store i = .error f := by
  induction inputs generalizing values with
  | nil => cases h
  | cons i rest ih =>
    rw [resolveInputs_cons_eq] at h
    cases hi : resolveInput store i with
    | error g =>
      rw [hi] at h
      cases h
      exact ⟨i, List.mem_cons_self, hi⟩
    | ok v =>
      rw [hi] at h
      obtain ⟨j, hj, hfault⟩ := ih h
      exact ⟨j, List.mem_cons_of_mem _ hj, hfault⟩

theorem resolveInputs_congr {inputs : List NodeInput} {values : Dict Value}
    (h : ∀ i ∈ inputs, inputSource? store i = inputSource? store' i) :
    resolveInputs store inputs values = resolveInputs store' inputs values := by
  induction inputs generalizing values with
  | nil => rfl
  | cons i rest ih =>
    obtain ⟨hi, hrest⟩ := List.forall_mem_cons.mp h
    rw [resolveInputs_cons_eq, resolveInputs_cons_eq, resolveInput_eq, hi, ← resolveInput_eq]
    cases resolveInput store' i with
    | error f => rfl
    | ok v => exact ih hrest

theorem resolveInputs_cons {i : NodeInput} {rest : List NodeInput} {values result : Dict Value} :
    resolveInputs store (i :: rest) values = .ok result ↔
      ∃ w, resolveInput store i = .ok w ∧
        resolveInputs store rest (values.insert i.name w) = .ok result := by
  rw [resolveInputs_cons_eq]
  cases resolveInput store i <;> simp [Except.bind]

/-- What has been resolved once is resolved alike when the store has grown. -/
theorem resolveInput_mono (hle : store.Extends store') {i : NodeInput} {w : Value}
    (h : resolveInput store i = .ok w) : resolveInput store' i = .ok w := by
  obtain ⟨v, hsource, hw⟩ := resolveInput_eq_ok_iff.mp h
  refine resolveInput_eq_ok_iff.mpr ⟨v, ?_, hw⟩
  unfold inputSource? at hsource ⊢
  split at hsource
  · exact hle _ _ hsource
  · exact hle _ _ hsource
  · exact hsource
  · exact hsource

theorem resolveInputs_mono (hle : store.Extends store') {inputs : List NodeInput}
    {values result : Dict Value} (h : resolveInputs store inputs values = .ok result) :
    resolveInputs store' inputs values = .ok result := by
  induction inputs generalizing values with
  | nil => exact h
  | cons i rest ih =>
    obtain ⟨w, hw, hrest⟩ := resolveInputs_cons.mp h
    exact resolveInputs_cons.mpr ⟨w, resolveInput_mono hle hw, ih hrest⟩

theorem get?_resolveInputs_of_notMem {inputs : List NodeInput} {values result : Dict Value}
    (h : resolveInputs store inputs values = .ok result) {name : String}
    (hname : name ∉ inputs.map (·.name)) : result.get? name = values.get? name := by
  induction inputs generalizing values with
  | nil => rw [Except.ok.inj h]
  | cons i rest ih =>
    obtain ⟨w, -, hrest⟩ := resolveInputs_cons.mp h
    rw [List.map_cons, List.mem_cons, not_or] at hname
    rw [ih hrest hname.2, Dict.get?_insert_of_ne hname.1]

/-- Under the name of an input stands its value, if no later input has this name. -/
theorem get?_resolveInputs {before after : List NodeInput} {k : NodeInput}
    {values result : Dict Value} (h : resolveInputs store (before ++ k :: after) values = .ok result)
    (hlast : k.name ∉ after.map (·.name)) :
    ∃ w, resolveInput store k = .ok w ∧ result.get? k.name = some w := by
  induction before generalizing values with
  | nil =>
    obtain ⟨w, hw, hrest⟩ := resolveInputs_cons.mp h
    refine ⟨w, hw, ?_⟩
    rw [get?_resolveInputs_of_notMem hrest hlast, Dict.get?_insert_self]
  | cons i rest ih =>
    obtain ⟨w, -, hrest⟩ := resolveInputs_cons.mp h
    exact ih hrest

/-- The inputs are resolved if every input is. -/
theorem exists_resolveInputs {inputs : List NodeInput} {values : Dict Value}
    (hall : ∀ i ∈ inputs, ∃ w, resolveInput store i = .ok w) :
    ∃ result, resolveInputs store inputs values = .ok result := by
  cases h : resolveInputs store inputs values with
  | ok result => exact ⟨result, rfl⟩
  | error f =>
    obtain ⟨i, hi, hfault⟩ := resolveInputs_error h
    obtain ⟨w, hw⟩ := hall i hi
    cases hw.symm.trans hfault

/-- Every input is resolved if the inputs are. -/
theorem resolveInput_of_resolveInputs {inputs : List NodeInput} {values result : Dict Value}
    (h : resolveInputs store inputs values = .ok result) {i : NodeInput} (hi : i ∈ inputs) :
    ∃ w, resolveInput store i = .ok w := by
  induction inputs generalizing values with
  | nil => cases hi
  | cons j rest ih =>
    obtain ⟨w, hw, hrest⟩ := resolveInputs_cons.mp h
    rcases List.mem_cons.mp hi with rfl | hi
    · exact ⟨w, hw⟩
    · exact ih hrest hi

end Workflow
