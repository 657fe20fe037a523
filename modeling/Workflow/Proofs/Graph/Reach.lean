import Workflow.Proofs.Graph.Basic

/-!
# Reachability

The search from a node finds exactly the nodes to which there is a way. Every step of it takes one
node off the list of pending nodes, and a node's edges are put there once, so that the number of
edges bounds the steps.
-/
namespace Workflow.TaskGraph
variable {g : TaskGraph}

def unseenEdges (g : TaskGraph) (seen : List String) : Nat := g.edges.countP fun e => e.1 ∉ seen

def unseenNodes (g : TaskGraph) (seen : List String) : Nat := g.nodes.countP fun x => x ∉ seen

theorem unseenNodes_le (seen : List String) : g.unseenNodes seen ≤ g.nodes.length :=
  List.countP_le_length

theorem unseenEdges_le (seen : List String) : g.unseenEdges seen ≤ g.edges.length :=
  List.countP_le_length

theorem length_successors (id : String) :
    (g.successors id).length = g.edges.countP fun e => e.1 = id := by
  simp [successors, List.countP_eq_length_filter]

theorem unseenEdges_cons {id : String} {seen : List String} (h : id ∉ seen) :
    g.unseenEdges seen = g.unseenEdges (id :: seen) + (g.successors id).length := by
  rw [length_successors]
  unfold unseenEdges
  induction g.edges with
  | nil => rfl
  | cons e es ih =>
    rw [List.countP_cons, List.countP_cons, List.countP_cons, ih]
    by_cases he : e.1 = id
    · simp [he, h]
      omega
    · by_cases hs : e.1 ∈ seen <;> simp [he, hs]
      omega

theorem unseenNodes_cons_lt {id : String} {seen : List String} (hid : id ∈ g.nodes)
    (h : id ∉ seen) : g.unseenNodes (id :: seen) < g.unseenNodes seen := by
  unfold unseenNodes
  generalize g.nodes = nodes at hid ⊢
  induction nodes with
  | nil => simp at hid
  | cons x xs ih =>
    have hle : xs.countP (fun y => y ∉ id :: seen) ≤ xs.countP (fun y => y ∉ seen) :=
      List.countP_mono_left fun y _ hy => by
        simp only [List.mem_cons, not_or, decide_eq_true_eq] at hy ⊢
        exact hy.2
    rw [List.countP_cons, List.countP_cons]
    by_cases hx : x = id
    · subst hx
      rw [if_neg (by simp), if_pos (by simpa using h)]
      omega
    · have hlt := ih ((List.mem_cons.mp hid).resolve_left (Ne.symm hx))
      by_cases hs : x ∈ seen
      · rwa [if_neg (by simp [hs]), if_neg (by simp [hs]), Nat.add_zero, Nat.add_zero]
      · rw [if_pos (by simp [hx, hs]), if_pos (by simpa using hs)]
        omega

theorem nodup_reachFrom {fuel : Nat} {seen pending : List String} (h : seen.Nodup) :
    (g.reachFrom fuel seen pending).Nodup := by
  induction fuel generalizing seen pending with
  | zero => exact h
  | succ fuel ih =>
    cases pending with
    | nil => exact h
    | cons id pending =>
      rw [reachFrom]
      split_ifs with hs
      · exact ih h
      · exact ih (List.nodup_cons.mpr ⟨by simpa using hs, h⟩)

theorem way_of_mem_reachFrom {fuel : Nat} {seen pending : List String} {x : String}
    (h : x ∈ g.reachFrom fuel seen pending) : x ∈ seen ∨ ∃ y ∈ pending, g.Way y x := by
  induction fuel generalizing seen pending with
  | zero => exact .inl h
  | succ fuel ih =>
    cases pending with
    | nil => exact .inl h
    | cons id pending =>
      rw [reachFrom] at h
      split_ifs at h with hs
      · rcases ih h with h | ⟨y, hy, hw⟩
        · exact .inl h
        · exact .inr ⟨y, List.mem_cons_of_mem _ hy, hw⟩
      · rcases ih h with h | ⟨y, hy, hw⟩
        · rcases List.mem_cons.mp h with rfl | h
          · exact .inr ⟨x, List.mem_cons_self, .refl⟩
          · exact .inl h
        · rcases List.mem_append.mp hy with hy | hy
          · exact .inr ⟨id, List.mem_cons_self, .head (mem_successors.mp hy) hw⟩
          · exact .inr ⟨y, List.mem_cons_of_mem _ hy, hw⟩

/-- Every successor of a node that was seen has been seen as well or is pending. -/
def Followed (g : TaskGraph) (seen pending : List String) : Prop :=
  ∀ x ∈ seen, ∀ y, g.Edge x y → y ∈ seen ∨ y ∈ pending

theorem mem_or_mem_of_cons {id x : String} {seen pending : List String} (hid : id ∈ seen)
    (h : x ∈ seen ∨ x ∈ id :: pending) : x ∈ seen ∨ x ∈ pending := by
  rcases h with h | h
  · exact .inl h
  · rcases List.mem_cons.mp h with rfl | h
    · exact .inl hid
    · exact .inr h

theorem Followed.drop {id : String} {seen pending : List String}
    (h : g.Followed seen (id :: pending)) (hid : id ∈ seen) : g.Followed seen pending :=
  fun x hx y he => mem_or_mem_of_cons hid (h x hx y he)

theorem Followed.visit {id : String} {seen pending : List String}
    (h : g.Followed seen (id :: pending)) :
    g.Followed (id :: seen) (g.successors id ++ pending) := by
  intro x hx y he
  rcases List.mem_cons.mp hx with rfl | hx
  · exact .inr (List.mem_append_left _ (mem_successors.mpr he))
  · have hy := (h x hx y he).imp_left (List.mem_cons_of_mem id)
    exact (mem_or_mem_of_cons List.mem_cons_self hy).imp_right (List.mem_append_right _)

/-- With enough fuel the search ends with all that was seen or pending, and with every successor of
a node with which it ends. -/
theorem reachFrom_closed {fuel : Nat} {seen pending : List String}
    (hfuel : pending.length + g.unseenEdges seen ≤ fuel) (hfollowed : g.Followed seen pending) :
    (∀ x, x ∈ seen ∨ x ∈ pending → x ∈ g.reachFrom fuel seen pending) ∧
      ∀ x ∈ g.reachFrom fuel seen pending, ∀ y, g.Edge x y →
        y ∈ g.reachFrom fuel seen pending := by
  -- every round takes a node off the pending ones, and a new node is paid for by its unseen edges
  induction fuel generalizing seen pending with
  | zero =>
    have hnil : pending = [] := List.length_eq_zero_iff.mp (by omega)
    subst hnil
    simpa [reachFrom, Followed] using hfollowed
  | succ fuel ih =>
    cases pending with
    | nil => simpa [reachFrom, Followed] using hfollowed
    | cons id pending =>
      rw [reachFrom]
      split_ifs with hs
      · have hid : id ∈ seen := by simpa using hs
        have hfuel' : pending.length + g.unseenEdges seen ≤ fuel := by
          simp only [List.length_cons] at hfuel
          omega
        obtain ⟨hall, hclosed⟩ := ih hfuel' (hfollowed.drop hid)
        exact ⟨fun x hx => hall x (mem_or_mem_of_cons hid hx), hclosed⟩
      · have hid : id ∉ seen := by simpa using hs
        have hfuel' : (g.successors id ++ pending).length + g.unseenEdges (id :: seen) ≤ fuel := by
          rw [unseenEdges_cons hid] at hfuel
          simp only [List.length_cons, List.length_append] at hfuel ⊢
          omega
        obtain ⟨hall, hclosed⟩ := ih hfuel' hfollowed.visit
        refine ⟨fun x hx => hall x ?_, hclosed⟩
        have hx' := hx.imp_left (List.mem_cons_of_mem id)
        exact (mem_or_mem_of_cons List.mem_cons_self hx').imp_right (List.mem_append_right _)

/-- The search from a node finds the nodes to which there is a way from it. -/
theorem mem_reachable {id x : String} : x ∈ g.reachable id ↔ g.Way id x := by
  constructor
  · intro h
    rcases way_of_mem_reachFrom h with h | ⟨y, hy, hw⟩
    · simp at h
    · exact List.mem_singleton.mp hy ▸ hw
  · intro h
    have hfuel : [id].length + g.unseenEdges [] ≤ g.nodes.length + g.edges.length + 1 := by
      have hedges := g.unseenEdges_le []
      simp only [List.length_singleton]
      omega
    have hspec := g.reachFrom_closed hfuel (by simp [Followed])
    induction h with
    | refl => exact hspec.1 id (.inr (List.mem_singleton.mpr rfl))
    | tail _ he ih => exact hspec.2 _ ih _ he

theorem nodup_reachable (id : String) : (g.reachable id).Nodup := nodup_reachFrom List.nodup_nil

end Workflow.TaskGraph
