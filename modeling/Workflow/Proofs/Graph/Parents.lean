import Mathlib.Data.List.Perm.Subperm
import Workflow.Graph.Cycle
import Workflow.Proofs.Graph.Basic

/-!
# Ways along parents

The breadth-first search notes the parent of every node that it comes to, and reads the way to a
node off the parents when it has found the end. It finds what a search finds that keeps whole ways
in its queue, since the parents of what has been queued do not change any more.
-/
namespace Workflow.TaskGraph
variable {g : TaskGraph} {members : List String} {start node : String} {parents : Dict String}
  {queue : List String}

/-! ## One node -/

theorem enqueue_found {next : List String} :
    (enqueue start node next parents queue).1 = true ↔ start ∈ next := by
  induction next generalizing parents queue with
  | nil => simp [enqueue]
  | cons x rest ih =>
    rw [enqueue]
    split_ifs with hstart hknown
    · simp [hstart]
    · rw [ih, List.mem_cons, or_iff_right (Ne.symm hstart)]
    · rw [ih, List.mem_cons, or_iff_right (Ne.symm hstart)]

/-- Parents that are known stay, and the start gets none. -/
theorem enqueue_parents {next : List String} {x : String}
    (h : x = start ∨ ∃ y, parents.get? x = some y) :
    (enqueue start node next parents queue).2.1.get? x = parents.get? x := by
  induction next generalizing parents queue with
  | nil => rfl
  | cons y rest ih =>
    rw [enqueue]
    split_ifs with hstart hknown
    · rfl
    · exact ih h
    · have hne : x ≠ y := by
        rintro rfl
        rcases h with rfl | h
        · exact hstart rfl
        · exact hknown (Dict.contains_iff.mpr h)
      have hsame := Dict.get?_insert_of_ne (d := parents) (v := node) hne
      rw [ih (h.imp_right fun h => hsame ▸ h), hsame]

/-- While the start is not found, what has no parent is queued and gets one. -/
theorem enqueue_spec (node : String) (parents : Dict String) (queue : List String)
    {next : List String} (hnodup : next.Nodup) (hstart : start ∉ next) :
    (enqueue start node next parents queue).2.2 =
        queue ++ next.filter (fun x => ¬ parents.contains x) ∧
      ∀ x, (enqueue start node next parents queue).2.1.get? x =
        if x ∈ next ∧ parents.get? x = none then some node else parents.get? x := by
  induction next generalizing parents queue with
  | nil => simp [enqueue]
  | cons y rest ih =>
    obtain ⟨hy, hrest⟩ := List.nodup_cons.mp hnodup
    obtain ⟨hne, hnot⟩ := not_or.mp (mt List.mem_cons.mpr hstart)
    rw [enqueue, if_neg (Ne.symm hne)]
    -- a node that has a parent already is left out of the queue
    split_ifs with hknown
    · obtain ⟨hqueue, hparents⟩ := ih parents queue hrest hnot
      refine ⟨by simp [hqueue, hknown], fun x => ?_⟩
      have hsome : parents.get? y ≠ none := Option.isSome_iff_ne_none.mp hknown
      rw [hparents]
      by_cases hx : x = y <;> simp [hx, hsome]
    · obtain ⟨hqueue, hparents⟩ := ih (parents.insert y node) (queue ++ [y]) hrest hnot
      have hnone : parents.get? y = none := by simpa [Dict.contains] using hknown
      refine ⟨?_, fun x => ?_⟩
      · have hsame : rest.filter (fun x => ¬ (parents.insert y node).contains x) =
            rest.filter fun x => ¬ parents.contains x := by
          refine List.filter_congr fun x hx => ?_
          have hxy : x ≠ y := fun h => hy (h ▸ hx)
          rw [Dict.contains, Dict.contains, Dict.get?_insert_of_ne hxy]
        rw [hqueue, hsame, List.filter_cons_of_pos (by simpa using hknown), List.append_assoc,
          List.singleton_append]
      · rw [hparents, Dict.get?_insert]
        by_cases hx : x = y <;> simp [hx, hy, hnone]

/-! ## Whole ways -/

/-- The search with whole ways in the queue, each with its last node first. A node joins the queue
once. -/
def firstWay? (g : TaskGraph) (members : List String) (start : String) :
    Nat → List String → List (List String) → Option (List String)
  | 0, _, _ => none
  | _, _, [] => none
  | fuel + 1, seen, way :: ways =>
    let here := way.headD start
    let next := g.inNodeOrder ((g.successors here).filter members.contains)
    if next.contains start then some way.reverse
    else
      let fresh := next.filter fun id => ¬ seen.contains id
      firstWay? g members start fuel (seen ++ fresh) (ways ++ fresh.map (· :: way))

/-- A way on which every node but the start is followed by its parent. -/
inductive Traced (g : TaskGraph) (start : String) (parents : Dict String) : List String → Prop
  | start (member : start ∈ g.nodes) (root : parents.get? start = none) :
      Traced g start parents [start]
  | step {x y : String} {way : List String} (before : Traced g start parents (y :: way))
      (member : x ∈ g.nodes) (parent : parents.get? x = some y) (new : x ∉ y :: way) :
      Traced g start parents (x :: y :: way)

namespace Traced
variable {way : List String}

theorem known (h : g.Traced start parents way) {x : String} (hx : x ∈ way) :
    x = start ∨ ∃ y, parents.get? x = some y := by
  induction h with
  | start => exact .inl (List.mem_singleton.mp hx)
  | step before member parent new ih =>
    rcases List.mem_cons.mp hx with rfl | hx
    · exact .inr ⟨_, parent⟩
    · exact ih hx

theorem mono (h : g.Traced start parents way) {parents' : Dict String}
    (hsame : ∀ x, (x = start ∨ ∃ y, parents.get? x = some y) →
      parents'.get? x = parents.get? x) : g.Traced start parents' way := by
  induction h with
  | start member root => exact .start member ((hsame start (.inl rfl)).trans root)
  | step before member parent new ih =>
    exact .step ih member ((hsame _ (.inr ⟨_, parent⟩)).trans parent) new

/-- A way has no more nodes than the graph. -/
theorem length_le (h : g.Traced start parents way) : way.length ≤ g.nodes.length := by
  have hspec : way.Nodup ∧ way ⊆ g.nodes := by
    induction h with
    | start member => exact ⟨List.nodup_singleton _, by simpa using member⟩
    | step before member parent new ih =>
      exact ⟨List.nodup_cons.mpr ⟨new, ih.1⟩, List.cons_subset.mpr ⟨member, ih.2⟩⟩
  exact (List.subperm_of_subset hspec.1 hspec.2).length_le

theorem lineage_eq (h : g.Traced start parents way) {fuel : Nat} (hfuel : way.length ≤ fuel + 1) :
    lineage parents fuel (way.headD start) = way := by
  induction h generalizing fuel with
  | start member root => cases fuel <;> simp [lineage, root]
  | step before member parent new ih =>
    cases fuel with
    | zero => simp at hfuel
    | succ fuel =>
      have hlineage := ih (Nat.le_of_succ_le_succ hfuel)
      rw [List.headD_cons] at hlineage ⊢
      simp only [lineage, parent, hlineage]

end Traced

/-- The nodes that have been seen are those with a parent, and every way in the queue is read off
the parents. -/
structure Charted (g : TaskGraph) (start : String) (parents : Dict String) (seen : List String)
    (ways : List (List String)) : Prop where
  seen_iff : ∀ x, x ∈ seen ↔ ∃ y, parents.get? x = some y
  traced : ∀ way ∈ ways, g.Traced start parents way

theorem Charted.round {seen fresh way : List String} {ways : List (List String)}
    {parents' : Dict String} (h : g.Charted start parents seen (way :: ways))
    (hfresh : ∀ x ∈ fresh, x ∈ g.nodes ∧ x ≠ start ∧ parents.get? x = none)
    (hparents : ∀ x, parents'.get? x =
      if x ∈ fresh then some (way.headD start) else parents.get? x) :
    g.Charted start parents' (seen ++ fresh) (ways ++ fresh.map (· :: way)) := by
  -- the start and whatever has a parent keep what they have
  have hkept : ∀ x, (x = start ∨ ∃ y, parents.get? x = some y) →
      parents'.get? x = parents.get? x := by
    intro x hx
    rw [hparents, if_neg]
    intro hmem
    obtain ⟨-, hne, hnone⟩ := hfresh x hmem
    rcases hx with hx | ⟨y, hy⟩
    · exact hne hx
    · exact Option.some_ne_none y (hy.symm.trans hnone)
  refine ⟨fun x => ?_, fun w hw => ?_⟩
  · rw [List.mem_append, h.seen_iff, hparents]
    split_ifs with hx <;> simp [hx]
  · rcases List.mem_append.mp hw with hw | hw
    · exact (h.traced w (List.mem_cons_of_mem _ hw)).mono hkept
    · obtain ⟨x, hx, rfl⟩ := List.mem_map.mp hw
      obtain ⟨hnode, hne, hnone⟩ := hfresh x hx
      have hway := h.traced way List.mem_cons_self
      have hnew : x ∉ way := by
        intro hmem
        rcases hway.known hmem with heq | ⟨y, hy⟩
        · exact hne heq
        · exact Option.some_ne_none y (hy.symm.trans hnone)
      have hparent : parents'.get? x = some (way.headD start) := by rw [hparents, if_pos hx]
      have hway' := hway.mono hkept
      cases way with
      | nil => cases hway
      | cons y way => exact .step hway' hnode hparent hnew

/-- The search with parents finds what the search with whole ways finds. -/
theorem wayBack?_eq_of_charted (hg : g.WellFormed) {fuel : Nat} {seen : List String}
    {ways : List (List String)} (h : g.Charted start parents seen ways) :
    g.wayBack? members start fuel parents (ways.map (·.headD start)) =
      g.firstWay? members start fuel seen ways := by
  induction fuel generalizing parents seen ways with
  | zero => rw [wayBack?, firstWay?]
  | succ fuel ih =>
    cases ways with
    | nil => simp [wayBack?, firstWay?]
    | cons way ways =>
      have hway := h.traced way List.mem_cons_self
      rw [List.map_cons, wayBack?, firstWay?]
      set node := way.headD start
      set next := g.inNodeOrder ((g.successors node).filter members.contains)
      set after := enqueue start node next parents (ways.map (·.headD start)) with hafter
      -- both searches end when the start is a successor, and queue the same nodes otherwise
      have hfound : after.1 = true ↔ start ∈ next := enqueue_found
      by_cases hback : start ∈ next
      · have hkept : g.Traced start after.2.1 way := hway.mono fun x => enqueue_parents
        have hlineage := hkept.lineage_eq (Nat.le_succ_of_le hway.length_le)
        simp only [hfound.mpr hback, List.contains_iff_mem.mpr hback, if_true]
        rw [hlineage]
      · have hnodup : next.Nodup := hg.nodes_nodup.filter _
        obtain ⟨hqueue, hparents⟩ :=
          enqueue_spec node parents (ways.map (·.headD start)) hnodup hback
        have hfresh : next.filter (fun x => ¬ parents.contains x) =
            next.filter fun x => ¬ seen.contains x := by
          refine List.filter_congr fun x _ => ?_
          rw [decide_eq_decide, List.contains_iff_mem, h.seen_iff, Dict.contains_iff]
        rw [← hafter] at hqueue hparents
        rw [hfresh] at hqueue
        set fresh := next.filter fun x => ¬ seen.contains x
        have hmem (x : String) : x ∈ fresh ↔ x ∈ next ∧ parents.get? x = none := by
          rw [← hfresh, List.mem_filter, decide_eq_true_eq, Dict.contains_iff,
            ← Option.isSome_iff_exists, Option.not_isSome_iff_eq_none]
        have hcharted : g.Charted start after.2.1 (seen ++ fresh)
            (ways ++ fresh.map (· :: way)) := by
          refine h.round (fun x hx => ?_) fun x => ?_
          · obtain ⟨hx, hnone⟩ := (hmem x).mp hx
            exact ⟨(mem_inNodeOrder.mp hx).1, fun heq => hback (heq ▸ hx), hnone⟩
          · rw [hparents]
            simp only [hmem]
            rfl
        simp only [mt hfound.mp hback, mt List.contains_iff_mem.mp hback]
        rw [← ih hcharted, hqueue, List.map_append, List.map_map]
        simp [Function.comp_def]

theorem wayBack?_eq_firstWay? (hg : g.WellFormed) (hstart : start ∈ g.nodes) {fuel : Nat} :
    g.wayBack? members start fuel .empty [start] = g.firstWay? members start fuel [] [[start]] := by
  have hcharted : g.Charted start .empty [] [[start]] :=
    ⟨by simp, fun way hway => List.mem_singleton.mp hway ▸ .start hstart rfl⟩
  exact wayBack?_eq_of_charted hg hcharted

end Workflow.TaskGraph
