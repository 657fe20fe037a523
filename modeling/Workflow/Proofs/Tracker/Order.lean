import Mathlib.Data.List.Sort
import Mathlib.Data.Prod.Lex
import Mathlib.Data.String.Basic
import Workflow.Tracker.Basic

/-!
# The order of listings

Listings are sorted by a key. Where no two items have the same key, the order in which they are
found does not show.
-/
namespace Workflow

section Sorting
variable {α κ : Type} [LinearOrder κ] (key : α → κ) {le : α → α → Bool} {l l' : List α}

theorem pairwise_key_mergeSort (hle : ∀ a b, le a b = true ↔ key a ≤ key b) (l : List α) :
    (l.mergeSort le).Pairwise fun a b => key a ≤ key b := by
  have htrans (a b c : α) (hab : le a b = true) (hbc : le b c = true) : le a c = true :=
    (hle a c).mpr (((hle a b).mp hab).trans ((hle b c).mp hbc))
  have htotal (a b : α) : (le a b || le b a) = true := by
    rw [Bool.or_eq_true, hle, hle]
    exact le_total _ _
  exact (List.pairwise_mergeSort htrans htotal l).imp fun h => (hle _ _).mp h

theorem mergeSort_eq_of_perm (hle : ∀ a b, le a b = true ↔ key a ≤ key b) (h : l.Perm l')
    (hinj : ∀ a ∈ l, ∀ b ∈ l, key a = key b → a = b) : l.mergeSort le = l'.mergeSort le := by
  have hperm : (l.mergeSort le).Perm (l'.mergeSort le) :=
    (List.mergeSort_perm l le).trans (h.trans (List.mergeSort_perm l' le).symm)
  refine List.Perm.eq_of_pairwise (fun a b ha hb hab hba => ?_)
    (pairwise_key_mergeSort key hle l) (pairwise_key_mergeSort key hle l') hperm
  have ha' : a ∈ l := List.mem_mergeSort.mp ha
  have hb' : b ∈ l := h.mem_iff.mpr (List.mem_mergeSort.mp hb)
  exact hinj a ha' b hb' (le_antisymm hab hba)

variable (le) in
/-- Sorting by a key that occurs once forgets the order as well. -/
theorem mergeSort_eq_of_nodup (hle : ∀ a b, le a b = true ↔ key a ≤ key b) (h : l.Perm l')
    (hnodup : (l.map key).Nodup) : l.mergeSort le = l'.mergeSort le :=
  mergeSort_eq_of_perm key hle h fun _ ha _ hb he => List.inj_on_of_nodup_map hnodup ha hb he

/-- The keys of a sorted list increase if none of them occurs twice. -/
theorem mergeSort_increases (hle : ∀ a b, le a b = true ↔ key a ≤ key b)
    (h : (l.map key).Nodup) : (l.mergeSort le).Pairwise fun a b => key a < key b := by
  have hnodup : (l.mergeSort le).Pairwise fun a b => key a ≠ key b :=
    List.pairwise_map.mp (((List.mergeSort_perm l le).map key).nodup_iff.mpr h)
  exact ((pairwise_key_mergeSort key hle l).and hnodup).imp fun h => lt_of_le_of_ne h.1 h.2

end Sorting

/-- The order of instants. -/
def Instant.rank (t : Instant) : ℤ ×ₗ ℕ := toLex (t.seconds, t.nanos)

theorem Instant.before_iff (a b : Instant) : a.before b = true ↔ a.rank < b.rank := by
  simp [before, rank, Prod.Lex.toLex_lt_toLex]

/-- The listing of runs does not depend on the order in which they are found. -/
theorem orderRuns_eq_of_perm {l l' : List Run} (h : l.Perm l')
    (hid : ∀ a ∈ l, ∀ b ∈ l, a.id = b.id → a = b) (experiment : Option String) :
    orderRuns experiment l = orderRuns experiment l' := by
  refine mergeSort_eq_of_perm (fun r : Run => toLex (r.createdAt.rank, r.id))
    (fun a b => ?_) (h.filter _) fun a ha b hb heq => ?_
  · rw [Prod.Lex.toLex_le_toLex, Bool.or_eq_true, Instant.before_iff]
    rcases lt_trichotomy a.createdAt.rank b.createdAt.rank with hlt | heq | hgt
    · simp [hlt]
    · simp [heq, Instant.before_iff]
    · simp [hgt, hgt.not_gt, hgt.ne', Instant.before_iff]
  · exact hid a (List.mem_filter.mp ha).1 b (List.mem_filter.mp hb).1 (congrArg (·.2) heq)

/-- The listing of experiments does not depend on the order in which they are found. -/
theorem orderExperiments_eq_of_perm {l l' : List Experiment} (h : l.Perm l')
    (hname : ∀ a ∈ l, ∀ b ∈ l, a.name = b.name → a = b) :
    orderExperiments l = orderExperiments l' := by
  refine mergeSort_eq_of_perm (fun e : Experiment => toLex (e.name, e.createdAt.rank))
    (fun a b => ?_) h fun a ha b hb heq => hname a ha b hb (congrArg (·.1) heq)
  rw [Prod.Lex.toLex_le_toLex]
  simp [Instant.before_iff]

end Workflow
