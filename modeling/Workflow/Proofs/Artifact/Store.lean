import Mathlib.Tactic.SplitIfs
import Workflow.Artifact.Store
import Workflow.Proofs.Data.Dict

/-!
# Artifact ids and the store

The point that ends the first part of an id can be told from those of the second part, because node
ids have no points. An output is found again in its id, and no output has the id of a parameter.

A write to the store fills an id that has no value and leaves all others alone, so that a store only
grows and what has been read once is read again.
-/
namespace Workflow.ArtifactId

/-- A text without points before the first point of a list of characters. -/
theorem append_point_inj {l₁ l₂ r₁ r₂ : List Char} (h₁ : '.' ∉ l₁) (h₂ : '.' ∉ l₂)
    (h : l₁ ++ '.' :: r₁ = l₂ ++ '.' :: r₂) : l₁ = l₂ ∧ r₁ = r₂ := by
  induction l₁ generalizing l₂ with
  | nil =>
    cases l₂ with
    | nil => exact ⟨rfl, (List.cons.inj h).2⟩
    | cons c l₂ => exact absurd ((List.cons.inj h).1 ▸ List.mem_cons_self) h₂
  | cons c l₁ ih =>
    cases l₂ with
    | nil => exact absurd ((List.cons.inj h).1 ▸ List.mem_cons_self) h₁
    | cons d l₂ =>
      obtain ⟨hcd, htail⟩ := List.cons.inj h
      obtain ⟨hl, hr⟩ := ih (fun hm => h₁ (List.mem_cons_of_mem _ hm))
        (fun hm => h₂ (List.mem_cons_of_mem _ hm)) htail
      exact ⟨by rw [hcd, hl], hr⟩

theorem segmentFlaw?_eq_none_iff {name : String} :
    segmentFlaw? name = none ↔ name ≠ "" ∧ '.' ∉ name.toList := by
  unfold segmentFlaw?
  split_ifs with he hd
  · simpa using fun h => absurd he (by simpa using h)
  · simpa using fun _ => by simpa using hd
  · simp_all

theorem nodeFlaw?_eq_none_iff {id : String} :
    nodeFlaw? id = none ↔ id ≠ paramsNamespace ∧ id ≠ "" ∧ '.' ∉ id.toList := by
  unfold nodeFlaw?
  split_ifs with h
  · simp [h]
  · simp [h, segmentFlaw?_eq_none_iff]

theorem text_inj {s₁ s₂ t₁ t₂ : String} (h₁ : '.' ∉ s₁.toList) (h₂ : '.' ∉ s₂.toList)
    (h : s₁ ++ "." ++ t₁ = s₂ ++ "." ++ t₂) : s₁ = s₂ ∧ t₁ = t₂ := by
  have hlist := congrArg String.toList h
  simp only [String.toList_append, List.append_assoc] at hlist
  obtain ⟨hl, hr⟩ := append_point_inj h₁ h₂ hlist
  exact ⟨String.toList_inj.mp hl, String.toList_inj.mp hr⟩

theorem output_inj {n n' o o' : String} (hn : '.' ∉ n.toList) (hn' : '.' ∉ n'.toList) :
    output n o = output n' o' ↔ n = n' ∧ o = o' := by
  constructor
  · intro h
    exact text_inj hn hn' (congrArg ArtifactId.text h)
  · rintro ⟨rfl, rfl⟩
    rfl

theorem param_inj {p p' : String} : param p = param p' ↔ p = p' := by
  constructor
  · intro h
    exact (text_inj (by decide) (by decide) (congrArg ArtifactId.text h)).2
  · rintro rfl
    rfl

theorem output_ne_param {n o p : String} (hn : nodeFlaw? n = none) : output n o ≠ param p := by
  obtain ⟨hne, -, hpoint⟩ := nodeFlaw?_eq_none_iff.mp hn
  intro h
  exact hne (text_inj hpoint (by decide) (congrArg ArtifactId.text h)).1

end Workflow.ArtifactId

namespace Workflow.ArtifactStore
variable {s t : ArtifactStore} {a b : ArtifactId} {v : Value}

@[simp] theorem get?_empty (a : ArtifactId) : empty.get? a = none := rfl

theorem get?_insert (s : ArtifactStore) (a b : ArtifactId) (v : Value) :
    (s.insert a v).get? b = (s.get? b).or (if b = a then some v else none) := by
  have htext : b.text = a.text ↔ b = a :=
    ⟨fun h => congrArg ArtifactId.mk h, fun h => congrArg ArtifactId.text h⟩
  unfold insert
  split_ifs with hc hb hb
  · obtain ⟨w, hw⟩ := Dict.contains_iff.mp hc
    subst hb
    rw [get?, hw, Option.some_or]
  · rw [Option.or_none]
  · have hnone : s.get? b = none := by
      rw [get?, hb]
      exact Option.not_isSome_iff_eq_none.mp hc
    rw [hnone, Option.none_or, get?, Dict.get?_insert, if_pos (htext.mpr hb)]
  · rw [Option.or_none, get?, Dict.get?_insert, if_neg fun h => hb (htext.mp h)]
    rfl

/-- The second store answers as the first one does where that has a value. -/
def Extends (s t : ArtifactStore) : Prop := ∀ a v, s.get? a = some v → t.get? a = some v

theorem Extends.refl (s : ArtifactStore) : Extends s s := fun _ _ h => h

/-- After a sequence of writes an id has the value that it had before, or the first one that was
written under it. -/
theorem get?_foldl_insert {α : Type} {key : α → ArtifactId} {value : α → Option Value}
    {write : ArtifactStore → α → ArtifactStore}
    (hwrite : ∀ s x, write s x = (value x).elim s (s.insert (key x))) (items : List α)
    (s : ArtifactStore) (a : ArtifactId) :
    (items.foldl write s).get? a =
      (s.get? a).or (items.findSome? fun x => if a = key x then value x else none) := by
  induction items generalizing s with
  | nil => simp
  | cons x rest ih =>
    rw [List.foldl_cons, ih, List.findSome?_cons, hwrite]
    cases value x with
    | none => simp
    | some v =>
      rw [Option.elim_some, get?_insert]
      by_cases ha : a = key x <;> simp [ha]

end Workflow.ArtifactStore
