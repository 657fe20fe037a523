import Workflow.Proofs.Value.Fits

/-!
# What binding parameters decides

Which value a declaration takes is a relation between the declaration and what is supplied. Binding
succeeds exactly if every declaration takes a value and nothing else is supplied; it fails at the
first of the faults. Since every value that passes for a type passes again as it is, the bound
parameters are their own binding.
-/
namespace Workflow

/-- `t.Passes s s'`: where `t` is declared the scalar `s` is taken, as `s'`. A scalar of the type is
taken as it is, an int is widened to a float, and a text names an artifact. -/
inductive DataType.Passes : DataType → Scalar → Scalar → Prop
  | same (s : Scalar) : Passes s.dataType s s
  | widened (n : Int64) : Passes .float (.int n) (.float (Binary64.ofInt n.toInt))
  | named {t : DataType} (uri : String) (artifact : t.isArtifact = true) :
      Passes t (.text uri) (.text uri)

namespace DataType
variable {t u : DataType} {s s' : Scalar}

theorem coerceScalar_eq_ok_iff : t.coerceScalar s = .ok s' ↔ t.Passes s s' := by
  constructor
  · intro h
    unfold coerceScalar at h
    split at h
    · cases h
      exact .widened _
    · split_ifs at h with hself hart
      · cases h
        exact hself ▸ .same s
      · cases h
        obtain ⟨hartifact, htext⟩ : t.isArtifact = true ∧ s.dataType = .string := by simpa using hart
        cases s with
        | text uri => exact .named uri hartifact
        | _ => cases htext
  · intro h
    cases h with
    | same => exact coerceScalar_self rfl
    | widened n => rfl
    | named uri artifact => cases t <;> first | rfl | cases artifact

theorem coerceScalar_eq_error (h : t.coerceScalar s = .error u) : u = s.dataType := by
  unfold coerceScalar at h
  split at h
  · cases h
  · split_ifs at h
    exact (Except.error.inj h).symm

/-- What passes for a type passes again, unchanged. -/
theorem Passes.again (h : t.Passes s s') : t.Passes s' s' := by
  cases h with
  | same => exact .same s
  | widened n => exact .same (.float _)
  | named uri artifact => exact .named uri artifact

end DataType

namespace ParameterSpec
variable {spec : ParameterSpec} {supplied : Dict Scalar} {s' : Scalar} {f : Fault}

/-- What is supplied under the name, or else the default. -/
def chosen (spec : ParameterSpec) (supplied : Dict Scalar) : Option Scalar :=
  supplied.get? spec.name <|> spec.defaultValue

/-- The chosen value passes for the declared type, as `s'`. -/
def Takes (spec : ParameterSpec) (supplied : Dict Scalar) (s' : Scalar) : Prop :=
  ∃ s, spec.chosen supplied = some s ∧ spec.dataType.Passes s s'

/-- What is wrong with a declaration: there is no value to choose, or the chosen one does not
pass. -/
inductive Faulty (spec : ParameterSpec) (supplied : Dict Scalar) : Fault → Prop
  | missing (none : spec.chosen supplied = none) : Faulty spec supplied (.missingParameter spec.name)
  | mistyped {s : Scalar} (chosen : spec.chosen supplied = some s)
      (refused : ∀ s', ¬ spec.dataType.Passes s s') :
      Faulty spec supplied (.parameterType spec.name spec.dataType s.dataType.name)

theorem bind_eq_ok_iff : spec.bind supplied = .ok s' ↔ spec.Takes supplied s' := by
  unfold bind Takes chosen
  cases supplied.get? spec.name <|> spec.defaultValue with
  | none => simp
  | some s =>
    simp only [Option.some.injEq, exists_eq_left', ← DataType.coerceScalar_eq_ok_iff]
    cases spec.dataType.coerceScalar s <;> simp

theorem faulty_of_bind (h : spec.bind supplied = .error f) : spec.Faulty supplied f := by
  unfold bind at h
  split at h
  · rename_i hnone
    cases h
    exact .missing hnone
  · rename_i s hsome
    split at h
    · cases h
    · rename_i actual hactual
      obtain rfl := DataType.coerceScalar_eq_error hactual
      cases h
      refine .mistyped hsome fun s' hs' => ?_
      rw [DataType.coerceScalar_eq_ok_iff.mpr hs'] at hactual
      cases hactual

/-- A declaration takes again what it has taken. -/
theorem Takes.again {values : Dict Scalar} (h : spec.Takes supplied s')
    (hget : values.get? spec.name = some s') : spec.Takes values s' := by
  obtain ⟨s, -, hs⟩ := h
  exact ⟨s', by simp [chosen, hget], hs.again⟩

end ParameterSpec

section
variable {specs : List ParameterSpec} {supplied bound values : Dict Scalar} {f : Fault}

/-! ## One declaration after the other -/

theorem exists_bindSpecs (h : ∀ spec ∈ specs, ∃ s', spec.Takes supplied s') (bound : Dict Scalar) :
    ∃ values, bindSpecs supplied specs bound = .ok values := by
  induction specs generalizing bound with
  | nil => exact ⟨bound, rfl⟩
  | cons spec rest ih =>
    obtain ⟨⟨s', hs'⟩, hrest⟩ := List.forall_mem_cons.mp h
    unfold bindSpecs
    rw [ParameterSpec.bind_eq_ok_iff.mpr hs']
    exact ih hrest _

/-- The declarations are bound as far as the first one that is faulty. -/
theorem exists_faulty_of_bindSpecs (h : bindSpecs supplied specs bound = .error f) :
    ∃ before spec after, specs = before ++ spec :: after ∧
      (∀ earlier ∈ before, ∃ s', earlier.Takes supplied s') ∧ spec.Faulty supplied f := by
  induction specs generalizing bound with
  | nil => cases h
  | cons spec rest ih =>
    unfold bindSpecs at h
    cases hs : spec.bind supplied with
    | error f' =>
      rw [hs] at h
      cases h
      exact ⟨[], spec, rest, rfl, List.forall_mem_nil _, ParameterSpec.faulty_of_bind hs⟩
    | ok s' =>
      rw [hs] at h
      obtain ⟨before, faulty, after, hsplit, hbefore, hfaulty⟩ := ih h
      have htakes : ∃ s', spec.Takes supplied s' := ⟨s', ParameterSpec.bind_eq_ok_iff.mp hs⟩
      exact ⟨spec :: before, faulty, after, congrArg (spec :: ·) hsplit,
        List.forall_mem_cons.mpr ⟨htakes, hbefore⟩, hfaulty⟩

/-- Under its name every declaration has the value that it takes. -/
theorem get?_bindSpecs (hnodup : (specs.map (·.name)).Nodup)
    (h : bindSpecs supplied specs bound = .ok values) :
    ∀ spec ∈ specs, ∃ s', values.get? spec.name = some s' ∧ spec.Takes supplied s' := by
  intro spec hspec
  obtain ⟨spec', hspec', hname, s', hbind, hget⟩ :=
    exists_bind_of_bindSpecs h (List.mem_map.mpr ⟨spec, hspec, rfl⟩)
  obtain rfl := List.inj_on_of_nodup_map hnodup hspec' hspec hname
  exact ⟨s', hget, ParameterSpec.bind_eq_ok_iff.mp hbind⟩

/-- Nothing is bound that was neither bound before nor declared. -/
theorem mem_keys_bindSpecs_iff (hnodup : (specs.map (·.name)).Nodup)
    (h : bindSpecs supplied specs .empty = .ok values) {name : String} :
    name ∈ values.keys ↔ name ∈ specs.map (·.name) := by
  rw [Dict.mem_keys_iff]
  constructor
  · rintro ⟨s, hs⟩
    by_contra hname
    rw [get?_bindSpecs_of_notMem h hname] at hs
    cases hs
  · intro hname
    obtain ⟨spec, hspec, rfl⟩ := List.mem_map.mp hname
    obtain ⟨s', hs', -⟩ := get?_bindSpecs hnodup h spec hspec
    exact ⟨s', hs'⟩

theorem bindSpecs_congr {supplied' : Dict Scalar}
    (h : ∀ spec ∈ specs, spec.bind supplied = spec.bind supplied') (bound : Dict Scalar) :
    bindSpecs supplied specs bound = bindSpecs supplied' specs bound := by
  induction specs generalizing bound with
  | nil => rfl
  | cons spec rest ih =>
    obtain ⟨hspec, hrest⟩ := List.forall_mem_cons.mp h
    unfold bindSpecs
    rw [hspec]
    cases spec.bind supplied' with
    | error f => rfl
    | ok s' => exact ih hrest _

theorem bindSpecs_again (hnodup : (specs.map (·.name)).Nodup)
    (h : bindSpecs supplied specs .empty = .ok values) :
    bindSpecs values specs .empty = .ok values := by
  refine (bindSpecs_congr (fun spec hspec => ?_) _).trans h
  obtain ⟨s', hget, htakes⟩ := get?_bindSpecs hnodup h spec hspec
  exact (ParameterSpec.bind_eq_ok_iff.mpr (htakes.again hget)).trans
    (ParameterSpec.bind_eq_ok_iff.mpr htakes).symm

/-! ## The parameters of a submission -/

/-- The fault at which binding stops: the least name that is supplied but not declared, or, if there
is none, what is wrong with the first faulty declaration. -/
inductive FirstFault (specs : List ParameterSpec) (supplied : Dict Scalar) : Fault → Prop
  | undeclared {name : String} (member : name ∈ supplied.keys)
      (unknown : name ∉ specs.map (·.name))
      (least : ∀ other ∈ supplied.keys, other ∉ specs.map (·.name) → name ≤ other) :
      FirstFault specs supplied (.unexpectedParameter name)
  | declaration {f : Fault} {before after : List ParameterSpec} {spec : ParameterSpec}
      (declared : ∀ name ∈ supplied.keys, name ∈ specs.map (·.name))
      (split : specs = before ++ spec :: after)
      (earlier : ∀ e ∈ before, ∃ s', e.Takes supplied s') (faulty : spec.Faulty supplied f) :
      FirstFault specs supplied f

theorem bindParameters_of_declared (h : ∀ name ∈ supplied.keys, name ∈ specs.map (·.name)) :
    bindParameters specs supplied = bindSpecs supplied specs .empty := by
  have hnone : (supplied.keys.find? fun k => ¬ specs.any fun s => s.name = k) = none :=
    List.find?_eq_none.mpr fun name hname => by simpa using List.mem_map.mp (h name hname)
  rw [bindParameters, hnone]

/-- The names of a dictionary are searched in their order, so that the first one found is the
least. -/
theorem bindParameters_of_undeclared (h : ¬ ∀ name ∈ supplied.keys, name ∈ specs.map (·.name)) :
    ∃ name, bindParameters specs supplied = .error (.unexpectedParameter name) ∧
      FirstFault specs supplied (.unexpectedParameter name) := by
  cases hfind : supplied.keys.find? fun k => ¬ specs.any fun s => s.name = k with
  | none =>
    refine absurd (fun name hname => ?_) h
    simpa using List.find?_eq_none.mp hfind name hname
  | some name =>
    refine ⟨name, by rw [bindParameters, hfind], ?_⟩
    obtain ⟨hunknown, before, after, hsplit, hbefore⟩ := List.find?_eq_some_iff_append.mp hfind
    have hkeys : supplied.keys.Pairwise (· < ·) := List.pairwise_map.mpr supplied.increasing
    refine .undeclared (by simp [hsplit]) (by simpa using hunknown) fun other hother hnew => ?_
    rw [hsplit] at hother hkeys
    rcases List.mem_append.mp hother with hearlier | hlater
    · exact absurd (by simpa using hbefore other hearlier) hnew
    · rcases List.mem_cons.mp hlater with rfl | hlater
      · exact Std.le_refl _
      · have hpairs := List.pairwise_cons.mp (List.pairwise_append.mp hkeys).2.1
        exact Std.le_of_lt (hpairs.1 other hlater)

/-- Where names are declared once, binding succeeds exactly if every supplied name is declared and
every declaration takes a value. The result has the declared names, each with the value that its
declaration takes, and binding it again changes nothing. A failure is the first of the faults. -/
theorem bindParameters_correct (hnodup : (specs.map (·.name)).Nodup) (supplied : Dict Scalar) :
    ((∃ values, bindParameters specs supplied = .ok values) ↔
      (∀ name ∈ supplied.keys, name ∈ specs.map (·.name)) ∧
        ∀ spec ∈ specs, ∃ s', spec.Takes supplied s') ∧
    (∀ values, bindParameters specs supplied = .ok values →
      (∀ name, name ∈ values.keys ↔ name ∈ specs.map (·.name)) ∧
      (∀ spec ∈ specs, ∃ s', values.get? spec.name = some s' ∧ spec.Takes supplied s') ∧
      bindParameters specs values = .ok values) ∧
    ∀ f, bindParameters specs supplied = .error f → FirstFault specs supplied f := by
  -- names that are not declared are refused before any declaration is looked at
  by_cases hdeclared : ∀ name ∈ supplied.keys, name ∈ specs.map (·.name)
  case neg =>
    obtain ⟨name, herror, hfirst⟩ := bindParameters_of_undeclared hdeclared
    rw [herror]
    refine ⟨⟨nofun, fun h => absurd h.1 hdeclared⟩, nofun, fun f hf => ?_⟩
    exact Except.error.inj hf ▸ hfirst
  case pos =>
    rw [bindParameters_of_declared hdeclared]
    refine ⟨⟨?_, fun h => exists_bindSpecs h.2 _⟩, ?_, ?_⟩
    · rintro ⟨values, h⟩
      refine ⟨hdeclared, fun spec hspec => ?_⟩
      obtain ⟨s', -, htakes⟩ := get?_bindSpecs hnodup h spec hspec
      exact ⟨s', htakes⟩
    · intro values h
      have hkeys : ∀ name, name ∈ values.keys ↔ name ∈ specs.map (·.name) := fun _ =>
        mem_keys_bindSpecs_iff hnodup h
      refine ⟨hkeys, get?_bindSpecs hnodup h, ?_⟩
      rw [bindParameters_of_declared fun name => (hkeys name).mp]
      exact bindSpecs_again hnodup h
    · intro f h
      obtain ⟨before, spec, after, hsplit, hbefore, hfaulty⟩ := exists_faulty_of_bindSpecs h
      exact .declaration hdeclared hsplit hbefore hfaulty

/-- Two declarations of a training: one with a default, one that must be supplied. -/
def trainingSpecs : List ParameterSpec :=
  [⟨"rate", .float, some (.int 1)⟩, ⟨"data", .dataset, none⟩]

theorem trainingSpecs_bind :
    let supplied := Dict.empty.insert "data" (.text "s3://d")
    let values := supplied.insert "rate" (.float (.ofInt 1))
    (trainingSpecs.map (·.name)).Nodup ∧ bindParameters trainingSpecs supplied = .ok values ∧
      bindParameters trainingSpecs values = .ok values ∧
      FirstFault trainingSpecs (supplied.insert "steps" (.int 3)) (.unexpectedParameter "steps") ∧
      FirstFault trainingSpecs .empty (.missingParameter "data") := by
  intro supplied values
  have hnodup : (trainingSpecs.map (·.name)).Nodup := by decide
  have hbind : bindParameters trainingSpecs supplied = .ok values := by decide +kernel
  have hfirst {d : Dict Scalar} {f : Fault} (h : bindParameters trainingSpecs d = .error f) :
      FirstFault trainingSpecs d f := (bindParameters_correct hnodup d).2.2 f h
  exact ⟨hnodup, hbind, ((bindParameters_correct hnodup supplied).2.1 values hbind).2.2,
    hfirst (by decide +kernel), hfirst (by decide +kernel)⟩

end

end Workflow
