import Mathlib.Tactic.SplitIfs
import Workflow.Proofs.Data.Dict
import Workflow.Schedule.Parameters
import Workflow.Value.Basic

/-!
# Values of a type

A coerced value has the type to which it was coerced, and a value of a type that another one accepts
is coerced to that one without fail.
-/
namespace Workflow

/-- The value is of the type: a scalar has it as its own, and every reference serves for it if it is
an artifact type. -/
def Value.Fits (t : DataType) : Value → Prop
  | .scalar s => s.dataType = t
  | .artifact _ => t.isArtifact = true

namespace DataType
variable {t u : DataType}

theorem isArtifact_dataType (s : Scalar) : s.dataType.isArtifact = false := by
  cases s <;> rfl

theorem coerceScalar_self {s : Scalar} (h : s.dataType = t) : t.coerceScalar s = .ok s := by
  subst h
  cases s <;> rfl

/-- A scalar that passes for a type has it, or is a text that names an artifact. -/
theorem dataType_of_coerceScalar {s s' : Scalar} (h : t.coerceScalar s = .ok s') :
    s'.dataType = t ∨ t.isArtifact = true ∧ ∃ uri, s' = .text uri := by
  unfold coerceScalar at h
  split at h
  · cases h
    exact .inl rfl
  · split_ifs at h with he hart
    · cases h
      exact .inl he.symm
    · cases h
      simp only [Bool.and_eq_true, decide_eq_true_eq] at hart
      refine .inr ⟨hart.1, ?_⟩
      cases s with
      | text uri => exact ⟨uri, rfl⟩
      | _ => cases hart.2

theorem fits_of_coerce {v w : Value} (h : t.coerce v = .ok w) : w.Fits t := by
  cases v with
  | artifact p =>
    simp only [coerce] at h
    split_ifs at h with hart
    cases h
    exact hart
  | scalar s =>
    simp only [coerce] at h
    split_ifs at h with hart
    · split at h
      · cases h
        exact hart
      · cases h
    · split at h
      · rename_i s' hs
        cases h
        rcases dataType_of_coerceScalar hs with he | ⟨hart', -⟩
        · exact he
        · exact absurd hart' hart
      · cases h

/-- A value of an accepted type is coerced. -/
theorem coerce_of_accepts {v : Value} (ha : t.accepts u = true) (hv : v.Fits u) :
    ∃ w, t.coerce v = .ok w := by
  simp only [accepts, Bool.or_eq_true, Bool.and_eq_true, decide_eq_true_eq] at ha
  cases v with
  | artifact p =>
    have hart : t.isArtifact = true := by
      rcases ha with rfl | ⟨rfl, rfl⟩
      · exact hv
      · cases hv
    exact ⟨.artifact p, by simp [coerce, hart]⟩
  | scalar s =>
    have hs : s.dataType = u := hv
    rcases ha with rfl | ⟨rfl, rfl⟩
    · have hart : t.isArtifact = false := hs ▸ isArtifact_dataType s
      exact ⟨.scalar s, by simp [coerce, hart, coerceScalar_self hs]⟩
    · cases s with
      | int n => exact ⟨_, rfl⟩
      | _ => cases hs

/-- May a value that is declared as `actual` be given where `t` is expected? A reference passes for
every artifact type, and so does a text. -/
def takes (t actual : DataType) : Bool :=
  t.accepts actual || (t.isArtifact && (actual.isArtifact || actual = .string))

/-- A value is coerced exactly if its type is taken. -/
theorem exists_coerce_iff {v : Value} (hv : v.Fits u) :
    (∃ w, t.coerce v = .ok w) ↔ t.takes u = true := by
  cases v with
  | artifact p =>
    have hu : u.isArtifact = true := hv
    cases ht : t.isArtifact with
    | true => simp [coerce, takes, ht, hu]
    | false =>
      have haccepts : t.accepts u = false := by
        by_contra hne
        obtain ⟨w, hw⟩ := coerce_of_accepts (by simpa using hne) hv
        simp [coerce, ht] at hw
      simp [coerce, takes, ht, haccepts]
  | scalar s =>
    obtain rfl : s.dataType = u := hv
    cases s <;> cases t <;>
      simp [coerce, coerceScalar, takes, accepts, isArtifact, kind, Scalar.dataType]

/-- A scalar that passes for a type gives a value of it. -/
theorem coerce_of_coerceScalar {s s' : Scalar} (h : t.coerceScalar s = .ok s') :
    ∃ w, t.coerce (.scalar s') = .ok w := by
  rcases dataType_of_coerceScalar h with he | ⟨hart, uri, rfl⟩
  · exact coerce_of_accepts (u := t) (by simp [accepts]) he
  · exact ⟨.atUri uri, by simp [coerce, hart]⟩

end DataType

/-! ## Bound parameters -/

theorem get?_bindSpecs_of_notMem {supplied bound values : Dict Scalar} {specs : List ParameterSpec}
    (h : bindSpecs supplied specs bound = .ok values) {name : String}
    (hname : name ∉ specs.map (·.name)) : values.get? name = bound.get? name := by
  induction specs generalizing bound with
  | nil => rw [Except.ok.inj h]
  | cons spec rest ih =>
    simp only [List.map_cons, List.mem_cons, not_or] at hname
    unfold bindSpecs at h
    cases hs : spec.bind supplied with
    | error f => rw [hs] at h; cases h
    | ok v =>
      rw [hs] at h
      rw [ih h hname.2, Dict.get?_insert_of_ne hname.1]

/-- Every declared name has the value of one of its declarations. -/
theorem exists_bind_of_bindSpecs {supplied bound values : Dict Scalar} {specs : List ParameterSpec}
    (h : bindSpecs supplied specs bound = .ok values) {name : String}
    (hname : name ∈ specs.map (·.name)) : ∃ spec ∈ specs, spec.name = name ∧
      ∃ s', spec.bind supplied = .ok s' ∧ values.get? name = some s' := by
  induction specs generalizing bound with
  | nil => cases hname
  | cons spec rest ih =>
    unfold bindSpecs at h
    cases hs : spec.bind supplied with
    | error f => rw [hs] at h; cases h
    | ok s' =>
      rw [hs] at h
      by_cases hlater : name ∈ rest.map (·.name)
      · obtain ⟨spec', hspec', hrest⟩ := ih h hlater
        exact ⟨spec', List.mem_cons_of_mem _ hspec', hrest⟩
      · obtain rfl : name = spec.name := (List.mem_cons.mp hname).resolve_right hlater
        refine ⟨spec, List.mem_cons_self, rfl, s', hs, ?_⟩
        rw [get?_bindSpecs_of_notMem h hlater, Dict.get?_insert_self]

/-- The value of a declaration passes for its type. -/
theorem ParameterSpec.coerce_of_bind {spec : ParameterSpec} {supplied : Dict Scalar} {s' : Scalar}
    (h : spec.bind supplied = .ok s') : ∃ s, spec.dataType.coerceScalar s = .ok s' := by
  unfold bind at h
  split at h
  · cases h
  · rename_i s _
    split at h
    · rename_i s'' hs
      exact ⟨s, hs.trans (congrArg _ (Except.ok.inj h))⟩
    · cases h

/-- Every declared name is bound to a scalar that passes for the type of one of its declarations. -/
theorem exists_bound_of_bindParameters {supplied values : Dict Scalar} {specs : List ParameterSpec}
    (h : bindParameters specs supplied = .ok values) {name : String}
    (hname : name ∈ specs.map (·.name)) : ∃ spec ∈ specs, spec.name = name ∧
      ∃ s s', spec.dataType.coerceScalar s = .ok s' ∧ values.get? name = some s' := by
  unfold bindParameters at h
  split at h
  · cases h
  · obtain ⟨spec, hspec, rfl, s', hbind, hget⟩ := exists_bind_of_bindSpecs h hname
    obtain ⟨s, hs⟩ := ParameterSpec.coerce_of_bind hbind
    exact ⟨spec, hspec, rfl, s, s', hs, hget⟩

/-- A parameter that is declared once is bound to a scalar that passes for its type. -/
theorem get?_bindParameters {supplied values : Dict Scalar} {specs : List ParameterSpec}
    (hnodup : (specs.map (·.name)).Nodup) (h : bindParameters specs supplied = .ok values) :
    ∀ spec ∈ specs, ∃ s s', spec.dataType.coerceScalar s = .ok s' ∧
      values.get? spec.name = some s' := by
  intro spec hspec
  obtain ⟨spec', hspec', hname, hbound⟩ :=
    exists_bound_of_bindParameters h (List.mem_map.mpr ⟨spec, hspec, rfl⟩)
  rwa [List.inj_on_of_nodup_map hnodup hspec' hspec hname] at hbound

end Workflow
